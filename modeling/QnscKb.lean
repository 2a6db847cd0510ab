import QnscKb.Access.Isolation
import QnscKb.Access.SourceAcl
import QnscKb.Access.SearchScope
import QnscKb.Access.CacheSafety
import QnscKb.Access.Redaction
import QnscKb.Review.Coverage
import QnscKb.Review.OnRecord
import QnscKb.Review.Splitting
import QnscKb.Review.Lifecycle
import QnscKb.Review.PageRanges
import QnscKb.Listing.Catalog
import QnscKb.Edits.LostUpdate
import QnscKb.History.Placement
import QnscKb.Ask.Envelope
import QnscKb.Ask.Freshness
import QnscKb.Ask.SectionsKept
import QnscKb.Sync.Snapshots
import QnscKb.Sync.FullImport
import QnscKb.Sync.Retries
import QnscKb.Sync.Notices
import QnscKb.Sync.Settled
import QnscKb.Sync.AutoMapping
import QnscKb.Outbox.Resending
import QnscKb.SourceEdit.Paragraph
import QnscKb.Ask.Withholding
import QnscKb.Retrieval.Sufficient
import QnscKb.Retrieval.Breaker
import QnscKb.Evidence.Exactness
import QnscKb.Corpus.Batches
import QnscKb.Routing.Spans
import QnscKb.Review.OneRule
import QnscKb.Auth.SingleUse
import QnscKb.Auth.Revocation
import QnscKb.Auth.Binding
import QnscKb.Mcp.Pages
import QnscKb.Connectors.Classified
import QnscKb.Sync.Forgotten
import QnscKb.Users.Ownership
import QnscKb.Users.Acceptance
import QnscKb.Mcp.Rotation
import QnscKb.Webhooks.Account
import QnscKb.Purge.Purged
import QnscKb.Llm.Probe
import QnscKb.Llm.Refusals
import QnscKb.Storage.Spared
import QnscKb.Restructure.Chunks
import QnscKb.Logs.Secrets
import QnscKb.Retrieval.Collapse
import QnscKb.History.Changes
import QnscKb.Ask.Verified
import QnscKb.Review.Conserved
import QnscKb.Retrieval.Abbreviations
import QnscKb.Retrieval.CrossEncoder
import QnscKb.Retrieval.Superseded
import QnscKb.Retrieval.Supersession
import QnscKb.Retrieval.Rescaled
import QnscKb.Retrieval.Forms
import QnscKb.RateLimit.Window
import QnscKb.Restructure.Oversized
import QnscKb.Restructure.Fallback
import QnscKb.Access.Effective
import QnscKb.Indexing.Order
import QnscKb.Ask.Minted
import QnscKb.Ask.Contradictions
import QnscKb.Mcp.ArticleSections
import QnscKb.Lessons.Decision
import QnscKb.Ask.Selection
import QnscKb.Sources.Pages
import QnscKb.Indexing.Recovery
import QnscKb.Corpus.DigestInput
