import QnscKb.Ask.Json

/-!
# Storage — Keys

The keys uploaded sources are stored under (`src/domain/source_storage.py`): the tenant, the hash and
the file name each pass a normaliser and are joined by separators.
-/

namespace QnscKb.Storage

open QnscKb.Ask (Python)

/-! ### Normalisers -/

/-- `[A-Za-z0-9._-]`. -/
def isSafe (c : Char) : Bool := c.isAlphanum || c == '.' || c == '_' || c == '-'

/-- `re.sub(r"[^A-Za-z0-9._-]+", "_", …)`, inside a run that is replaced or not. -/
def underscored : Bool → Text → Text
  | _, [] => []
  | replacing, c :: t =>
    if isSafe c then c :: underscored false t
    else if replacing then underscored true t
    else '_' :: underscored true t

/-- `Path(…).name`: the last part that is neither empty nor a dot. -/
def pathName (filename : Text) : Text :=
  (((filename.splitOn '/').filter fun part => part != [] && part != ['.']).getLast?).getD []

def safeName (filename : Text) : Text :=
  Text.orElse (some (underscored false (pathName filename))) "source.bin".toList

variable (P : Python)

/-- `(company_domain or "local").strip().lower()`. -/
def tenant (companyDomain : Option Text) : Text :=
  P.lower (Text.strip (Text.orElse companyDomain "local".toList))

def safeNamespace (companyDomain : Option Text) : Text :=
  Text.orElse (some ((underscored false (tenant P companyDomain)).take 120)) "local".toList

def isHex (c : Char) : Bool :=
  c.isDigit || ('a' ≤ c && c ≤ 'f') || ('A' ≤ c && c ≤ 'F')

/-- `re.sub(r"[^A-Fa-f0-9]", "", source_hash).lower()`. -/
def normalizedHash (sourceHash : Text) : Text := (sourceHash.filter isHex).map Char.toLower

/-! ### Keys -/

structure Settings where
  backend : Text
  bucket : Option Text
  pathPrefix : Text

/-- `RuntimeError`, `ValueError`, `FileNotFoundError`, with their texts. -/
inductive StorageError
  | runtimeError (message : String)
  | valueError (message : String)
  | fileNotFoundError (message : String)
  deriving DecidableEq, Repr

variable (settings : Settings)

def isObjectStorage : Bool :=
  ["r2".toList, "cloudflare_r2".toList].contains (P.lower settings.backend)

/-- `SOURCE_STORAGE_PREFIX.strip('/')`. -/
def strippedPrefix : Text :=
  ((settings.pathPrefix.dropWhile (· == '/')).reverse.dropWhile (· == '/')).reverse

def bucketText : Text := settings.bucket.getD "None".toList

def s3Key (sourceHash filename : Text) (companyDomain : Option Text) : Except StorageError Text :=
  let hash := normalizedHash sourceHash
  if hash.length ≠ 64 then
    .error (.valueError "source_hash must be a 64-character SHA-256 hex digest")
  else
    .ok (strippedPrefix settings ++ '/' :: (safeNamespace P companyDomain ++ '/' ::
      (hash.take 2 ++ '/' :: (hash ++ '_' :: safeName filename))))

def sourceStorageKey (sourceHash filename : Text) (companyDomain : Option Text) :
    Except StorageError Text :=
  if isObjectStorage P settings then
    (s3Key P settings sourceHash filename companyDomain).map fun key =>
      "s3://".toList ++ (bucketText settings ++ '/' :: key)
  else
    .error (.runtimeError "Cloudflare R2 is required; local-disk source storage is disabled")

def validatedStorageKey (storageKey : Text) : Except StorageError (Text × Text) :=
  if "s3://".toList.isPrefixOf storageKey then
    let path := storageKey.drop 5
    let bucket := path.takeWhile (· != '/')
    let key := (path.dropWhile (· != '/')).drop 1
    if bucket = [] ∨ key = [] ∨ some bucket ≠ settings.bucket ∨
        (strippedPrefix settings ++ ['/']).isPrefixOf key = false then
      .error (.fileNotFoundError "Invalid R2 source key")
    else .ok (bucket, key)
  else .error (.fileNotFoundError "Invalid R2 source key")

/-! ### Reading a key -/

section Reading

variable {P settings}

theorem slash_notMem_underscored (replacing : Bool) (t : Text) : '/' ∉ underscored replacing t := by
  induction t generalizing replacing with
  | nil => exact List.not_mem_nil
  | cons c t ih =>
    rw [underscored]
    split_ifs with hsafe
    · refine List.not_mem_cons_of_ne_of_not_mem ?_ (ih false)
      rintro rfl
      exact absurd hsafe (by decide)
    · exact ih true
    · exact List.not_mem_cons_of_ne_of_not_mem (by decide) (ih true)

theorem notMem_orElse {c : Char} {t fallback : Text} (ht : c ∉ t) (hfallback : c ∉ fallback) :
    c ∉ Text.orElse (some t) fallback := by
  cases t with
  | nil => exact hfallback
  | cons d t => exact ht

theorem slash_notMem_safeNamespace (companyDomain : Option Text) :
    '/' ∉ safeNamespace P companyDomain :=
  notMem_orElse (fun hmem => slash_notMem_underscored _ _ (List.mem_of_mem_take hmem)) (by decide)

theorem append_cons_inj {c : Char} {s s' t t' : Text} (hs : c ∉ s) (hs' : c ∉ s')
    (h : s ++ c :: t = s' ++ c :: t') : s = s' ∧ t = t' := by
  induction s generalizing s' with
  | nil =>
    cases s' with
    | nil => exact ⟨rfl, (List.cons.inj h).2⟩
    | cons d s' => exact absurd (List.cons.inj h).1 (List.ne_of_not_mem_cons hs')
  | cons d s ih =>
    cases s' with
    | nil => exact absurd (List.cons.inj h).1.symm (List.ne_of_not_mem_cons hs)
    | cons d' s' =>
      obtain ⟨rfl, htail⟩ := List.cons.inj h
      obtain ⟨rfl, rfl⟩ := ih (List.not_mem_of_not_mem_cons hs)
        (List.not_mem_of_not_mem_cons hs') htail
      exact ⟨rfl, rfl⟩

theorem s3Key_ok {sourceHash filename key : Text} {companyDomain : Option Text}
    (h : s3Key P settings sourceHash filename companyDomain = .ok key) :
    (normalizedHash sourceHash).length = 64 ∧
      key = strippedPrefix settings ++ '/' :: (safeNamespace P companyDomain ++ '/' ::
        ((normalizedHash sourceHash).take 2 ++ '/' ::
          (normalizedHash sourceHash ++ '_' :: safeName filename))) := by
  dsimp only [s3Key] at h
  split_ifs at h with hlength
  exact ⟨not_not.mp hlength, (Except.ok.inj h).symm⟩

theorem sourceStorageKey_ok {sourceHash filename key : Text} {companyDomain : Option Text}
    (h : sourceStorageKey P settings sourceHash filename companyDomain = .ok key) :
    isObjectStorage P settings = true ∧ ∃ object,
      s3Key P settings sourceHash filename companyDomain = .ok object ∧
        key = "s3://".toList ++ (bucketText settings ++ '/' :: object) := by
  rw [sourceStorageKey] at h
  split_ifs at h with hstorage
  refine ⟨hstorage, ?_⟩
  cases hobject : s3Key P settings sourceHash filename companyDomain with
  | error e =>
    rw [hobject] at h
    cases h
  | ok object =>
    rw [hobject] at h
    exact ⟨object, rfl, (Except.ok.inj h).symm⟩

/-- A key gives back the namespace and the hash it was made of. -/
theorem sourceStorageKey_inj {hash hash' name name' key : Text} {domain domain' : Option Text}
    (h : sourceStorageKey P settings hash name domain = .ok key)
    (h' : sourceStorageKey P settings hash' name' domain' = .ok key) :
    normalizedHash hash = normalizedHash hash' ∧
      safeNamespace P domain = safeNamespace P domain' := by
  obtain ⟨-, object, hobject, hkey⟩ := sourceStorageKey_ok h
  obtain ⟨-, object', hobject', hkey'⟩ := sourceStorageKey_ok h'
  obtain ⟨hlength, rfl⟩ := s3Key_ok hobject
  obtain ⟨hlength', rfl⟩ := s3Key_ok hobject'
  have hobjects := List.append_cancel_left (hkey.symm.trans hkey')
  have hpaths := (List.cons.inj (List.append_cancel_left hobjects)).2
  have hrest := (List.cons.inj (List.append_cancel_left hpaths)).2
  obtain ⟨hnamespace, htail⟩ := append_cons_inj (slash_notMem_safeNamespace domain)
    (slash_notMem_safeNamespace domain') hrest
  have hshards : ((normalizedHash hash).take 2).length = ((normalizedHash hash').take 2).length := by
    rw [List.length_take, List.length_take, hlength, hlength']
  have hhash := (List.cons.inj (List.append_inj htail hshards).2).2
  exact ⟨(List.append_inj hhash (hlength.trans hlength'.symm)).1, hnamespace⟩

theorem dropWhile_cons_slash {s t : Text} (hs : '/' ∉ s) :
    (s ++ '/' :: t).takeWhile (· != '/') = s ∧ (s ++ '/' :: t).dropWhile (· != '/') = '/' :: t := by
  have hall : ∀ c ∈ s, (c != '/') = true := fun c hc => by
    simpa using fun heq : c = '/' => hs (heq ▸ hc)
  have hstop : ('/' :: t).takeWhile (· != '/') = [] ∧ ('/' :: t).dropWhile (· != '/') = '/' :: t :=
    ⟨rfl, rfl⟩
  rw [List.takeWhile_append_of_pos hall, List.dropWhile_append_of_pos hall, hstop.1, hstop.2,
    List.append_nil]
  exact ⟨rfl, rfl⟩

theorem validatedStorageKey_ok {bucket object rest : Text} (hbucket : settings.bucket = some bucket)
    (hne : bucket ≠ []) (hslash : '/' ∉ bucket)
    (hobject : object = strippedPrefix settings ++ '/' :: rest) :
    validatedStorageKey settings ("s3://".toList ++ (bucketText settings ++ '/' :: object)) =
      .ok (bucket, object) := by
  have htext : bucketText settings = bucket := by rw [bucketText, hbucket, Option.getD_some]
  have hprefix : (strippedPrefix settings ++ ['/']).isPrefixOf object = true := by
    rw [hobject, List.isPrefixOf_iff_prefix]
    exact ⟨rest, by simp⟩
  have hkey : object ≠ [] := by
    rw [hobject]
    exact List.append_ne_nil_of_right_ne_nil _ (List.cons_ne_nil _ _)
  obtain ⟨htake, hdrop⟩ := dropWhile_cons_slash (t := object) hslash
  have hpath : ("s3://".toList ++ (bucket ++ '/' :: object)).drop 5 = bucket ++ '/' :: object := rfl
  have hscheme : "s3://".toList.isPrefixOf ("s3://".toList ++ (bucket ++ '/' :: object)) = true :=
    List.isPrefixOf_iff_prefix.mpr ⟨_, rfl⟩
  dsimp only [validatedStorageKey]
  rw [htext, if_pos hscheme, hpath, htake, hdrop, hbucket, if_neg]
  · rfl
  · simp [hne, hkey, hprefix]

theorem bucket_of_validated {bucket key storageKey : Text}
    (h : validatedStorageKey settings storageKey = .ok (bucket, key)) :
    settings.bucket = some bucket ∧ bucket ≠ [] ∧ '/' ∉ bucket := by
  dsimp only [validatedStorageKey] at h
  split_ifs at h with hscheme hrefused
  obtain ⟨hne, -, hbucket, -⟩ : _ ∧ _ ∧ _ ∧ _ := by simpa only [not_or] using hrefused
  obtain ⟨rfl, -⟩ := Prod.mk.inj (Except.ok.inj h)
  exact ⟨(not_not.mp hbucket).symm, hne, fun hmem =>
    absurd (List.mem_takeWhile_imp hmem) (by decide)⟩

end Reading

/-! ### Tenants -/

/-- **Stored objects.**  Under two company domains, uploads share a key only where the hashes are
equal and the domains one tenant, and every key is read back as its bucket and object key, if and
only if the domains have one namespace only as one tenant, and the bucket's name no separator. -/
theorem tenants_apart_iff (domain domain' : Option Text) :
    ((∀ hash hash' name name' key,
        sourceStorageKey P settings hash name domain = .ok key →
        sourceStorageKey P settings hash' name' domain' = .ok key →
          normalizedHash hash = normalizedHash hash' ∧ tenant P domain = tenant P domain') ∧
      ∀ hash name key, sourceStorageKey P settings hash name domain = .ok key →
        ∃ bucket object, settings.bucket = some bucket ∧
          s3Key P settings hash name domain = .ok object ∧
          validatedStorageKey settings key = .ok (bucket, object)) ↔
      (isObjectStorage P settings = true →
        (safeNamespace P domain = safeNamespace P domain' → tenant P domain = tenant P domain') ∧
          ∃ bucket, settings.bucket = some bucket ∧ bucket ≠ [] ∧ '/' ∉ bucket) := by
  constructor
  · rintro ⟨hshared, hread⟩ hstorage
    -- Any upload under a domain has a key: take one.
    have hhash : (normalizedHash (List.replicate 64 'a')).length = 64 := by decide
    have hkey : ∀ domain, sourceStorageKey P settings (List.replicate 64 'a') [] domain =
        .ok ("s3://".toList ++ (bucketText settings ++ '/' :: (strippedPrefix settings ++
          '/' :: (safeNamespace P domain ++ '/' ::
            ((normalizedHash (List.replicate 64 'a')).take 2 ++
              '/' :: (normalizedHash (List.replicate 64 'a') ++ '_' :: safeName [])))))) :=
      fun domain => by
        dsimp only [sourceStorageKey, s3Key]
        rw [if_pos hstorage]
        rfl
    refine ⟨fun hnamespace => ?_, ?_⟩
    · exact (hshared _ _ _ _ _ (hkey domain) (by rw [hkey domain', hnamespace])).2
    · obtain ⟨bucket, object, hbucket, -, hvalid⟩ := hread _ _ _ (hkey domain)
      obtain ⟨-, hne, hslash⟩ := bucket_of_validated hvalid
      exact ⟨bucket, hbucket, hne, hslash⟩
  · refine fun hcondition => ⟨fun hash hash' name name' key h h' => ?_, fun hash name key h => ?_⟩
    · obtain ⟨hhashes, hnamespaces⟩ := sourceStorageKey_inj h h'
      exact ⟨hhashes, (hcondition (sourceStorageKey_ok h).1).1 hnamespaces⟩
    · obtain ⟨hstorage, object, hobject, rfl⟩ := sourceStorageKey_ok h
      obtain ⟨bucket, hbucket, hne, hslash⟩ := (hcondition hstorage).2
      exact ⟨bucket, object, hbucket, hobject,
        validatedStorageKey_ok hbucket hne hslash (s3Key_ok hobject).2⟩

/-- Two tenants whose domains differ in a letter that is replaced share every object. -/
theorem umlauts_share_an_object :
    ∃ key, sourceStorageKey Ask.asciiPython ⟨"r2".toList, some "kb".toList, "src".toList⟩
        (List.replicate 64 'a') "report.pdf".toList (some "tü.vn".toList) = .ok key ∧
      sourceStorageKey Ask.asciiPython ⟨"r2".toList, some "kb".toList, "src".toList⟩
        (List.replicate 64 'a') "report.pdf".toList (some "tö.vn".toList) = .ok key ∧
      tenant Ask.asciiPython (some "tü.vn".toList) ≠ tenant Ask.asciiPython (some "tö.vn".toList) := by
  refine ⟨_, rfl, ?_, ?_⟩
  · decide +kernel
  · decide +kernel

end QnscKb.Storage
