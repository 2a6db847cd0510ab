import QnscKb.Lib.JsonText

/-!
# MCP — Pages

How an assistant reads a long article: `get_article` shapes one window of the body
(`_shape_article_page`), `format_result` caps the body and then the encoded text
(`src/domain/mcp_tools.py`).
-/

namespace QnscKb.Mcp

open JsonText (Value Fields Number)

/-- A JSON object as `response.json()` gives it. -/
abbrev Payload := List (Text × Value)

/-- `{**data, key: value}`, and `data[key] = value`. -/
def assign (key : Text) (value : Value) : Payload → Payload
  | [] => [(key, value)]
  | (k, v) :: fields => if k = key then (k, value) :: fields else (k, v) :: assign key value fields

/-! ### Shaping -/

def bodyMd : Text := "body_md".toList
def bodyChars : Text := "body_chars".toList
def offset : Text := "offset".toList
def nextOffset : Text := "next_offset".toList
def truncated : Text := "truncated".toList

def articleSummary : List Text :=
  ["id", "title", "dept", "type", "sensitivity", "status", "language", "version", "index_status",
    "created_at", "next_review", "tags"].map String.toList

def articleFull : List Text :=
  articleSummary ++ [bodyMd, "source_available".toList, "owner".toList, "departments".toList]

def pick (item : Payload) (keys : List Text) : Payload :=
  keys.filterMap fun k => (item.lookup k).map fun value => (k, value)

/-- `10**9`. -/
def maxOffset : Nat := 1000000000

/-- `_int`; an error is a `ToolInputError`. -/
def int (args : Payload) (key : Text) (default low high : Int) : Except Text Int :=
  match args.lookup key with
  | none => .ok (max low (min default high))
  | some (.number n) =>
    match n.int? with
    | some value => .ok (max low (min value high))
    | none => .error ("'".toList ++ key ++ "' must be an integer".toList)
  | some _ => .error ("'".toList ++ key ++ "' must be an integer".toList)

def rfindNewline (body : Text) (low high : Nat) : Option Nat :=
  (List.range' low (high - low)).reverse.find? fun i => body[i]? == some '\n'

def pageEnd (body : Text) (start window : Nat) : Nat :=
  let finish := min body.length (start + window)
  if body.length ≤ finish then finish
  else
    match rfindNewline body (start + window * 4 / 5) finish with
    | some cut => cut + 1
    | none => finish

def slice (body : Text) (start finish : Nat) : Text := (body.take finish).drop start

def moreText (body : Text) (finish : Nat) : Text :=
  Nat.toDigits 10 (body.length - finish) ++
    " more characters; call get_article again with offset=".toList ++
    Nat.toDigits 10 finish ++ " to continue.".toList

/-- The article of `_shape_article_page`, with the window from `start` on. -/
def page (article : Payload) (body : Text) (start window : Nat) : Payload :=
  let finish := pageEnd body start window
  let article := assign bodyMd (.string (slice body start finish)) article
  let article := assign bodyChars (.number (.ofNat body.length)) article
  let article := assign offset (.number (.ofNat start)) article
  if finish < body.length then
    assign truncated (.string (moreText body finish))
      (assign nextOffset (.number (.ofNat finish)) article)
  else article

/-- `max(settings.MCP_MAX_RESULT_CHARS // 2, 1000)`. -/
def pageWindow (maxResultChars : Nat) : Nat := max (maxResultChars / 2) 1000

def shapeArticlePage (maxResultChars : Nat) (data args : Payload) : Except Text Payload :=
  let article := pick data articleFull
  match article.lookup bodyMd with
  | some (.string body) => do
      let start ← int args offset 0 0 maxOffset
      pure (page article body start.toNat (pageWindow maxResultChars))
  | _ => pure article

def capText (text : Text) (limit : Nat) : Text :=
  if text.length ≤ limit then text
  else
    text.take limit ++ ("\n\n[truncated: ".toList ++ Nat.toDigits 10 (text.length - limit) ++
      " more characters. Ask for a narrower result.]".toList)

def capArticleBody (data : Payload) (limit : Nat) : Payload :=
  match data.lookup bodyMd with
  | some (.string body) =>
    if limit < body.length then
      assign bodyMd (.string (body.take limit ++ ("\n\n[truncated: ".toList ++
        Nat.toDigits 10 (body.length - limit) ++ " more characters]".toList))) data
    else data
  | _ => data

/-- The text of `format_result`, for `get_article` and a reply below 400. -/
def formatResult (maxResultChars : Nat) (payload arguments : Payload) : Except Text Text := do
  let data ← shapeArticlePage maxResultChars payload arguments
  let data := capArticleBody data (maxResultChars / 2)
  pure (capText (JsonText.dumps (.object (.ofList data))) maxResultChars)

/-! ### Reading on -/

/-- An article as the API gives it, with its body. -/
structure Article where
  payload : Payload
  body : Text
  hasBody : payload.lookup bodyMd = some (.string body)

/-- `get_article` from `start` on. -/
def getArticle (maxResultChars : Nat) (article : Article) (start : Nat) : Except Text Text :=
  formatResult maxResultChars article.payload [(offset, .number (.ofNat start))]

/-- The pieces of the body in the results read from `start` on, each result valid JSON, up to one
without `next_offset`. -/
inductive Reads (maxResultChars : Nat) (article : Article) : Nat → List Text → Prop
  | last {start : Nat} {text piece : Text} {fields : Fields}
      (result : getArticle maxResultChars article start = .ok text)
      (valid : JsonText.loads text = some (.object fields))
      (body : fields.get bodyMd = some (.string piece))
      (stop : fields.get nextOffset = none) : Reads maxResultChars article start [piece]
  | next {start finish : Nat} {text piece : Text} {fields : Fields} {pieces : List Text}
      (result : getArticle maxResultChars article start = .ok text)
      (valid : JsonText.loads text = some (.object fields))
      (body : fields.get bodyMd = some (.string piece))
      (more : fields.get nextOffset = some (.number (.ofNat finish)))
      (rest : Reads maxResultChars article finish pieces) :
      Reads maxResultChars article start (piece :: pieces)

/-- Reading from offset 0 ends, and what was read is the body. -/
def ReadWhole (maxResultChars : Nat) (article : Article) : Prop :=
  ∃ pieces, Reads maxResultChars article 0 pieces ∧ pieces.flatten = article.body

def window (maxResultChars : Nat) (article : Article) (start : Nat) : Payload :=
  page (pick article.payload articleFull) article.body start (pageWindow maxResultChars)

/-- Where the page from `start` on ends. -/
def windowEnd (maxResultChars : Nat) (article : Article) (start : Nat) : Nat :=
  pageEnd article.body start (pageWindow maxResultChars)

/-- The next page starts where a page ends. -/
def Turns (maxResultChars : Nat) (article : Article) (start finish : Nat) : Prop :=
  finish = windowEnd maxResultChars article start ∧ finish < article.body.length

/-- The page from `start` on is within every cap. -/
structure Fits (maxResultChars : Nat) (article : Article) (start : Nat) : Prop where
  body : (slice article.body start (windowEnd maxResultChars article start)).length ≤
    maxResultChars / 2
  encoded : (JsonText.dumps (.object (.ofList (window maxResultChars article start)))).length ≤
    maxResultChars
  offset : windowEnd maxResultChars article start < article.body.length →
    windowEnd maxResultChars article start ≤ maxOffset

/-- From `start` on, every page is. -/
def FitsFrom (maxResultChars : Nat) (article : Article) (start : Nat) : Prop :=
  ∀ s, Relation.ReflTransGen (Turns maxResultChars article) start s →
    Fits maxResultChars article s

/-! ### Objects -/

theorem lookup_assign_self (key : Text) (value : Value) (data : Payload) :
    (assign key value data).lookup key = some value := by
  induction data with
  | nil => simp [assign]
  | cons field fields ih =>
    obtain ⟨k, v⟩ := field
    by_cases hk : k = key
    · simp [assign, hk]
    · rw [assign, if_neg hk, List.lookup_cons, beq_eq_false_iff_ne.mpr (Ne.symm hk)]
      exact ih

theorem lookup_assign_of_ne {key other : Text} (h : other ≠ key) (value : Value) (data : Payload) :
    (assign key value data).lookup other = data.lookup other := by
  induction data with
  | nil => simp [assign, List.lookup_cons, beq_eq_false_iff_ne.mpr h]
  | cons field fields ih =>
    obtain ⟨k, v⟩ := field
    by_cases hk : k = key
    · subst hk
      simp [assign, List.lookup_cons, beq_eq_false_iff_ne.mpr h]
    · rw [assign, if_neg hk, List.lookup_cons, List.lookup_cons, ih]

theorem lookup_pick {item : Payload} {keys : List Text} (key : Text) :
    (pick item keys).lookup key = if key ∈ keys then item.lookup key else none := by
  induction keys with
  | nil => rfl
  | cons k keys ih =>
    rw [pick, List.filterMap_cons]
    cases hvalue : item.lookup k with
    | none =>
      refine ih.trans ?_
      by_cases hk : key = k
      · subst hk
        simp [hvalue]
      · simp [hk]
    | some value =>
      by_cases hk : key = k
      · subst hk
        simp [hvalue]
      · rw [Option.map_some, List.lookup_cons, beq_eq_false_iff_ne.mpr hk]
        refine ih.trans ?_
        simp [hk]

theorem mem_of_lookup {data : Payload} {key : Text} {value : Value}
    (h : data.lookup key = some value) : (key, value) ∈ data := by
  induction data with
  | nil => cases h
  | cons field fields ih =>
    rw [List.lookup_cons] at h
    split at h
    · rename_i hk
      cases h
      rw [eq_of_beq hk]
      exact List.mem_cons_self
    · exact List.mem_cons_of_mem _ (ih h)

theorem lookup_pick_bodyMd (article : Article) :
    (pick article.payload articleFull).lookup bodyMd = some (.string article.body) := by
  rw [lookup_pick, if_pos (by decide), article.hasBody]

theorem lookup_pick_nextOffset (item : Payload) :
    (pick item articleFull).lookup nextOffset = none := by
  rw [lookup_pick, if_neg (by decide)]

section page

variable (data : Payload) (text : Text) (start window : Nat)

theorem lookup_page_bodyMd :
    (page data text start window).lookup bodyMd =
      some (.string (slice text start (pageEnd text start window))) := by
  have hchars : bodyMd ≠ bodyChars := by decide
  have hoffset : bodyMd ≠ offset := by decide
  have hnext : bodyMd ≠ nextOffset := by decide
  have htruncated : bodyMd ≠ truncated := by decide
  simp only [page]
  split
  · rw [lookup_assign_of_ne htruncated, lookup_assign_of_ne hnext, lookup_assign_of_ne hoffset,
      lookup_assign_of_ne hchars, lookup_assign_self]
  · rw [lookup_assign_of_ne hoffset, lookup_assign_of_ne hchars, lookup_assign_self]

theorem lookup_page_nextOffset (h : data.lookup nextOffset = none) :
    (page data text start window).lookup nextOffset =
      if pageEnd text start window < text.length
      then some (.number (.ofNat (pageEnd text start window))) else none := by
  have hbody : nextOffset ≠ bodyMd := by decide
  have hchars : nextOffset ≠ bodyChars := by decide
  have hoffset : nextOffset ≠ offset := by decide
  have htruncated : nextOffset ≠ truncated := by decide
  simp only [page]
  split
  · rw [lookup_assign_of_ne htruncated, lookup_assign_self]
  · rw [lookup_assign_of_ne hoffset, lookup_assign_of_ne hchars, lookup_assign_of_ne hbody, h]

end page

/-! ### One result -/

theorem int_offset (start : Nat) :
    int [(offset, .number (.ofNat start))] offset 0 0 maxOffset =
      .ok ((min start maxOffset : Nat) : Int) := by
  have hlookup : List.lookup offset [(offset, Value.number (.ofNat start))] =
      some (.number (.ofNat start)) := by rw [List.lookup_cons, beq_self_eq_true]
  simp only [int, hlookup, Number.int?_ofNat]
  congr 1
  omega

theorem getArticle_eq (maxResultChars : Nat) (article : Article) (start : Nat) :
    getArticle maxResultChars article start = .ok (capText (JsonText.dumps (.object (.ofList
      (capArticleBody (window maxResultChars article (min start maxOffset))
        (maxResultChars / 2))))) maxResultChars) := by
  have hshape : shapeArticlePage maxResultChars article.payload
      [(offset, .number (.ofNat start))] =
        .ok (window maxResultChars article (min start maxOffset)) := by
    simp only [shapeArticlePage, lookup_pick_bodyMd, int_offset]
    rfl
  simp only [getArticle, formatResult, hshape]
  rfl

variable {body : Text} {limit start : Nat}

theorem capArticleBody_of_le {data : Payload} (hbody : data.lookup bodyMd = some (.string body))
    (h : body.length ≤ limit) : capArticleBody data limit = data := by
  simp only [capArticleBody, hbody]
  rw [if_neg (by omega)]

theorem capText_of_le {text : Text} (h : text.length ≤ limit) :
    capText text limit = text := if_pos h

theorem dumps_object (fields : Fields) : ∃ t, JsonText.dumps (.object fields) = '{' :: t := by
  cases fields <;> exact ⟨_, rfl⟩

/-- **A cut object is no JSON**: it opens with a brace and ends with the bracket of the note. -/
theorem loads_capText {fields : Fields} {v : Value} (hlimit : 0 < limit)
    (h : JsonText.loads (capText (JsonText.dumps (.object fields)) limit) = some v) :
    (JsonText.dumps (.object fields)).length ≤ limit := by
  by_contra hlong
  obtain ⟨t, ht⟩ := dumps_object fields
  obtain ⟨limit, rfl⟩ : ∃ n, limit = n + 1 := Nat.exists_eq_succ_of_ne_zero (by omega)
  rw [capText, if_neg hlong] at h
  generalize (JsonText.dumps (.object fields)).length - (limit + 1) = omitted at h
  rw [ht, List.take_succ_cons, List.cons_append] at h
  obtain ⟨front, space, heq, hspace⟩ := JsonText.ends_of_loads h
  have hnote : ('{' :: (t.take limit ++ ("\n\n[truncated: ".toList ++ Nat.toDigits 10 omitted ++
      " more characters. Ask for a narrower result.]".toList))).getLast? = some ']' := by
    rw [← List.cons_append, ← List.append_assoc, List.getLast?_append]
    rfl
  rw [heq, List.getLast?_append] at hnote
  have hlast : ('}' :: space).getLast? = some ']' := by
    cases hc : ('}' :: space).getLast? with
    | none => exact absurd (List.getLast?_eq_none_iff.mp hc) (List.cons_ne_nil _ _)
    | some c => rwa [hc] at hnote
  rcases List.mem_cons.mp (List.mem_of_getLast? hlast) with hbrace | hmem
  · exact absurd hbrace (by decide)
  · exact absurd (hspace _ hmem) (by decide)

/-! ### Windows -/

theorem rfindNewline_bounds {low high cut : Nat} (h : rfindNewline body low high = some cut) :
    low ≤ cut ∧ cut < high := by
  have hmem := List.mem_of_find?_eq_some h
  rw [List.mem_reverse, List.mem_range'_1] at hmem
  omega

/-- A page ends within its window and within the body, and holds a character where there is one. -/
theorem pageEnd_bounds (body : Text) (start window : Nat) :
    pageEnd body start window ≤ min body.length (start + window) ∧
      min body.length (start + min 1 window) ≤ pageEnd body start window := by
  unfold pageEnd
  dsimp only
  split
  · omega
  · split
    · -- the newline found is in the window's last fifth, and the page ends behind it
      rename_i cut hcut
      have := rfindNewline_bounds hcut
      omega
    · omega

theorem pageEnd_le_length (body : Text) (start window : Nat) :
    pageEnd body start window ≤ body.length :=
  (pageEnd_bounds body start window).1.trans (min_le_left _ _)

theorem pageEnd_le_window (body : Text) (start window : Nat) :
    pageEnd body start window ≤ start + window :=
  (pageEnd_bounds body start window).1.trans (min_le_right _ _)

theorem lt_pageEnd {window : Nat} (hstart : start < body.length) (hwindow : 0 < window) :
    start < pageEnd body start window := by
  have hbound := (pageEnd_bounds body start window).2
  omega

theorem le_pageEnd (window : Nat) (hstart : start ≤ body.length) :
    start ≤ pageEnd body start window := by
  have hbound := (pageEnd_bounds body start window).2
  omega

theorem pageWindow_pos (maxResultChars : Nat) : 0 < pageWindow maxResultChars := by
  rw [pageWindow]
  omega

theorem length_slice (start : Nat) {finish : Nat} (hfinish : finish ≤ body.length) :
    (slice body start finish).length = finish - start := by
  rw [slice, List.length_drop, List.length_take, Nat.min_eq_left hfinish]

theorem slice_append_drop {finish : Nat} (hle : start ≤ finish) (hfinish : finish ≤ body.length) :
    slice body start finish ++ body.drop finish =
      body.drop start := by
  have hlength : start ≤ (body.take finish).length := by
    rw [List.length_take]
    omega
  rw [slice, ← List.drop_append_of_le_length hlength, List.take_append_drop]

section Reading

variable {maxResultChars : Nat} {article : Article}

theorem lookup_window_bodyMd (maxResultChars : Nat) (article : Article) (start : Nat) :
    (window maxResultChars article start).lookup bodyMd =
      some (.string (slice article.body start (windowEnd maxResultChars article start))) :=
  lookup_page_bodyMd ..

variable {start : Nat}

theorem Fits.getArticle_eq (h : Fits maxResultChars article start) (hstart : start ≤ maxOffset) :
    getArticle maxResultChars article start =
      .ok (JsonText.dumps (.object (.ofList (window maxResultChars article start)))) := by
  rw [Mcp.getArticle_eq, Nat.min_eq_left hstart,
    capArticleBody_of_le (lookup_window_bodyMd ..) h.body, capText_of_le h.encoded]

variable (maxResultChars article)

theorem get_window_bodyMd (start : Nat) :
    (Fields.ofList (window maxResultChars article start)).get bodyMd =
      some (.string (slice article.body start (windowEnd maxResultChars article start))) := by
  rw [Fields.get_ofList, lookup_window_bodyMd]

theorem get_window_nextOffset (start : Nat) :
    (Fields.ofList (window maxResultChars article start)).get nextOffset =
      if windowEnd maxResultChars article start < article.body.length
      then some (.number (.ofNat (windowEnd maxResultChars article start))) else none := by
  rw [Fields.get_ofList]
  exact lookup_page_nextOffset _ _ _ _ (lookup_pick_nextOffset _)

variable {maxResultChars article}

theorem reads_of_fitsFrom (h : FitsFrom maxResultChars article start) (hstart : start ≤ maxOffset)
    (hlength : start ≤ article.body.length) :
    ∃ pieces, Reads maxResultChars article start pieces ∧
      pieces.flatten = article.body.drop start := by
  -- on what is left of the body
  induction hleft : article.body.length - start using Nat.strongRecOn generalizing start with
  | ind left ih =>
    have hfits := h start .refl
    have hresult := hfits.getArticle_eq hstart
    have hbody := get_window_bodyMd maxResultChars article start
    have hnext := get_window_nextOffset maxResultChars article start
    have hend := pageEnd_le_length article.body start (pageWindow maxResultChars)
    by_cases hmore : windowEnd maxResultChars article start < article.body.length
    · rw [if_pos hmore] at hnext
      have hlt : start < windowEnd maxResultChars article start := by
        by_cases heq : start < article.body.length
        · exact lt_pageEnd heq (pageWindow_pos _)
        · have := le_pageEnd (pageWindow maxResultChars) hlength
          unfold windowEnd at hmore
          omega
      obtain ⟨pieces, hreads, hpieces⟩ := ih _ (by omega)
        (fun s hs => h s (.head ⟨rfl, hmore⟩ hs)) (hfits.offset hmore) (by omega) rfl
      refine ⟨_, .next hresult (JsonText.loads_dumps _) hbody hnext hreads, ?_⟩
      rw [List.flatten_cons, hpieces, slice_append_drop (by omega) (by omega)]
    · rw [if_neg hmore] at hnext
      refine ⟨_, .last hresult (JsonText.loads_dumps _) hbody hnext, ?_⟩
      have hall : windowEnd maxResultChars article start = article.body.length := by
        unfold windowEnd at hmore ⊢
        omega
      rw [List.flatten_cons, List.flatten_nil, List.append_nil, hall, slice, List.take_length]

theorem readWhole_of_fitsFrom (h : FitsFrom maxResultChars article 0) :
    ReadWhole maxResultChars article :=
  reads_of_fitsFrom h (Nat.zero_le _) (Nat.zero_le _)

theorem length_slice_le (article : Article) (hmax : 2000 ≤ maxResultChars) (start : Nat) :
    (slice article.body start (windowEnd maxResultChars article start)).length ≤
      maxResultChars / 2 := by
  have hlength := pageEnd_le_length article.body start (pageWindow maxResultChars)
  have hwindow := pageEnd_le_window article.body start (pageWindow maxResultChars)
  have hhalf : pageWindow maxResultChars = maxResultChars / 2 := by
    rw [pageWindow]
    omega
  rw [windowEnd, length_slice _ hlength]
  omega

theorem window_of_valid (hmax : 2000 ≤ maxResultChars) {text : Text} {fields : Fields}
    (result : getArticle maxResultChars article start = .ok text)
    (valid : JsonText.loads text = some (.object fields)) :
    fields = .ofList (window maxResultChars article (min start maxOffset)) ∧
      (JsonText.dumps (.object (.ofList
        (window maxResultChars article (min start maxOffset))))).length ≤ maxResultChars := by
  rw [getArticle_eq, capArticleBody_of_le (lookup_window_bodyMd ..) (length_slice_le article hmax _)]
    at result
  cases result
  have hlength := loads_capText (by omega) valid
  rw [capText_of_le hlength, JsonText.loads_dumps] at valid
  cases valid
  exact ⟨rfl, hlength⟩

theorem fitsFrom_of_reads (hmax : 2000 ≤ maxResultChars) {pieces : List Text}
    (h : Reads maxResultChars article start pieces)
    (hstart : min start maxOffset ≤ article.body.length) :
    article.body.length ≤ min start maxOffset + pieces.flatten.length ∧
      (min start maxOffset + pieces.flatten.length ≤ article.body.length →
        FitsFrom maxResultChars article (min start maxOffset)) := by
  induction h with
  | @last start text piece fields result valid body stop =>
    obtain ⟨rfl, hencoded⟩ := window_of_valid hmax result valid
    have hslice := length_slice_le article hmax (min start maxOffset)
    rw [get_window_bodyMd] at body
    cases body
    rw [get_window_nextOffset] at stop
    have hend := pageEnd_le_length article.body (min start maxOffset) (pageWindow maxResultChars)
    have hdone : ¬ windowEnd maxResultChars article (min start maxOffset) <
        article.body.length := fun hlt => by
      rw [if_pos hlt] at stop
      cases stop
    have hlength := length_slice (min start maxOffset) hend
    simp only [List.flatten_cons, List.flatten_nil, List.append_nil]
    refine ⟨?_, fun _ s hs => ?_⟩
    · unfold windowEnd at hdone ⊢
      omega
    · rcases Relation.ReflTransGen.cases_head hs with rfl | ⟨finish, ⟨rfl, hlt⟩, -⟩
      · exact ⟨hslice, hencoded, fun hlt => absurd hlt hdone⟩
      · exact absurd hlt hdone
  | @next start finish text piece fields pieces result valid body more rest ih =>
    obtain ⟨rfl, hencoded⟩ := window_of_valid hmax result valid
    have hslice := length_slice_le article hmax (min start maxOffset)
    rw [get_window_bodyMd] at body
    cases body
    rw [get_window_nextOffset] at more
    split at more
    · rename_i hlt
      have hfinish := Number.ofNat_inj (Value.number.inj (Option.some.inj more))
      obtain ⟨hcover, honce⟩ := ih (by omega)
      have hend := pageEnd_le_length article.body (min start maxOffset) (pageWindow maxResultChars)
      have hlength := length_slice (min start maxOffset) hend
      simp only [List.flatten_cons, List.length_append]
      unfold windowEnd at hfinish hslice hlt ⊢
      refine ⟨by omega, fun hexact s hs => ?_⟩
      have hreach : finish ≤ maxOffset := by omega
      rcases Relation.ReflTransGen.cases_head hs with rfl | ⟨finish', ⟨rfl, -⟩, hrest⟩
      · refine ⟨hslice, hencoded, fun _ => ?_⟩
        rw [windowEnd, hfinish]
        exact hreach
      · refine honce (by omega) s ?_
        rwa [Nat.min_eq_left hreach, ← hfinish]
    · cases more

theorem fitsFrom_of_readWhole (hmax : 2000 ≤ maxResultChars)
    (h : ReadWhole maxResultChars article) : FitsFrom maxResultChars article 0 := by
  obtain ⟨pieces, hreads, hpieces⟩ := h
  have hfits := (fitsFrom_of_reads hmax hreads (Nat.zero_le _)).2
  rw [hpieces] at hfits
  exact hfits (by omega)

/-- **The article is read whole where every page of it, encoded with its metadata, is within the
limit**; from a limit of 2000 on, only there. -/
theorem readWhole_of_fits (maxResultChars : Nat) (article : Article) :
    (FitsFrom maxResultChars article 0 → ReadWhole maxResultChars article) ∧
      (2000 ≤ maxResultChars → ReadWhole maxResultChars article →
        FitsFrom maxResultChars article 0) :=
  ⟨readWhole_of_fitsFrom, fitsFrom_of_readWhole⟩

end Reading

/-- A line as long as a page of 1000 characters, and another. -/
def twoLines : Text := List.replicate 999 'a' ++ '\n' :: List.replicate 200 'a'

/-- A note of two pages. -/
def note : Article where
  payload := [("id".toList, .string "7".toList), ("title".toList, .string "Leave".toList),
    (bodyMd, .string twoLines)]
  body := twoLines
  hasBody := rfl

theorem fitsFrom_note : FitsFrom 2000 note 0 := by
  have hsecond : windowEnd 2000 note 0 = 1000 := by decide +kernel
  have hlast : windowEnd 2000 note 1000 = note.body.length := by decide +kernel
  intro s hs
  rcases Relation.ReflTransGen.cases_head hs with hs | ⟨finish, hturn, hrest⟩
  · subst hs
    exact ⟨by decide +kernel, by decide +kernel, by decide +kernel⟩
  · rw [hturn.1, hsecond] at hrest
    rcases Relation.ReflTransGen.cases_head hrest with hs | ⟨finish, hturn, -⟩
    · subst hs
      exact ⟨by decide +kernel, by decide +kernel, by decide +kernel⟩
    · exact absurd hturn.2 (by rw [hturn.1, hlast]; exact lt_irrefl _)

theorem readWhole_note : ReadWhole 2000 note ∧ windowEnd 2000 note 0 < note.body.length :=
  ⟨(readWhole_of_fits 2000 note).1 fitsFrom_note, by decide +kernel⟩

def quotes (n : Nat) : Article where
  payload := [("id".toList, .string "8".toList), ("title".toList, .string "Quotes".toList),
    (bodyMd, .string (List.replicate n '"'))]
  body := List.replicate n '"'
  hasBody := rfl

theorem windowEnd_quotes {n : Nat} (h : n ≤ 30000) : windowEnd 60000 (quotes n) 0 = n := by
  have hlength : (quotes n).body.length = n := List.length_replicate
  have hwindow : pageWindow 60000 = 30000 := rfl
  have hfinish : min n (0 + 30000) = n := by omega
  rw [windowEnd, pageEnd, hlength, hwindow, hfinish]
  exact if_pos (le_refl n)

theorem length_quote_quotes (n : Nat) :
    (JsonText.quote (slice (quotes n).body 0 n)).length = 2 * n + 2 := by
  have hslice : slice (quotes n).body 0 n = List.replicate n '"' := by
    exact List.take_of_length_le (List.length_replicate.le)
  rw [hslice, JsonText.quote, List.length_cons, List.length_append, List.length_flatMap,
    List.map_replicate, List.sum_replicate_nat]
  change n * 2 + 1 + 1 = 2 * n + 2
  omega

/-- **The default limit cuts the result of an article of 30000 quotation marks.** -/
theorem quotes_cut : ¬ ReadWhole 60000 (quotes 30000) := by
  intro h
  have hfits := (fitsFrom_of_readWhole (by decide) h 0 .refl).encoded
  have hlong := JsonText.length_dumps (mem_of_lookup (lookup_window_bodyMd 60000 (quotes 30000) 0))
  rw [windowEnd_quotes (le_refl _), length_quote_quotes] at hlong
  omega

end QnscKb.Mcp
