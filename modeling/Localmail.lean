import Localmail.LabelledRun
import Localmail.OrderLimit
import Localmail.SyncStore
import Localmail.SyncPass
import Localmail.SyncNoLoss
import Localmail.RunningLeast
import Localmail.Backfill
import Localmail.BackfillOrder
import Localmail.KeysetWalk
import Localmail.DateWalk
import Localmail.DateWalkOnce
import Localmail.ChangesFeed
import Localmail.ChangesNoSkip
import Localmail.RankPool
import Localmail.RankSession
import Localmail.QueryParse
import Localmail.SearchRequest
import Localmail.RunSearch
import Localmail.SearchGrant
import Localmail.ReadCommitted
import Localmail.Processes
import Localmail.Credentials
import Localmail.CredentialPrograms
import Localmail.CredentialActs
import Localmail.CodeSingleUse
import Localmail.SessionLineage
import Localmail.SessionTerminal
import Localmail.RefreshFamily
import Localmail.ReuseContained
import Localmail.ReuseDetection
import Localmail.RevocationCheck
import Localmail.RevocationTerminal
import Localmail.AuthTables
import Localmail.AuthEffects
import Localmail.KeyIsolation
import Localmail.AdminPrograms
import Localmail.LastAdmin
import Localmail.HeldBody
import Localmail.HeldRows
import Localmail.HeldWindow
import Localmail.HeldBookkeeping
import Localmail.ArchiveImport
import Localmail.ArchiveRows
import Localmail.ArchiveUids
import Localmail.FailedRecords
import Localmail.TextChunks
import Localmail.IndexSweeps
import Localmail.BrowseWalk
import Localmail.RankEnds
import Localmail.FiniteScores
import Localmail.LikePattern
import Localmail.SubstringFilters
import Localmail.Snippet
import Localmail.CursorChain
import Localmail.FilterParse
import Localmail.MailList
import Localmail.SearchResults
import Localmail.OverlapNoLoss
import Localmail.QueryTokens
import Localmail.FreeText
import Localmail.ComposedTokens
import Localmail.FilterTokens
import Localmail.QueryCompose
import Localmail.StorableText
import Localmail.SearchGate
import Localmail.PhraseQuery
import Localmail.ExclusionScope
import Localmail.StorableQuery
import Localmail.MailParser
import Localmail.MailTexts
import Localmail.KeyringPrograms
import Localmail.KeyringPairing
import Localmail.ImportJobs
import Localmail.ImportTerminal
import Localmail.LogoutErasure
import Localmail.QuotedWords
import Localmail.RebuiltQuery
import Localmail.LoneSpaces
import Localmail.FilterChips
import Localmail.HeaderBlock
import Localmail.TextPaging
import Localmail.StripText
import Localmail.IntText
import Localmail.RangeRequests
import Localmail.ClientIp
import Localmail.SlidingWindow
import Localmail.LoginLimits
import Localmail.PoolOrder
import Localmail.AttributeFilter
import Localmail.CursorCodecs
import Localmail.SignedTokens
import Localmail.TokenLaws
import Localmail.TokenRoundTrips
import Localmail.UrlSplit
import Localmail.ResourceBinding
import Localmail.ResourceReading
import Localmail.Calendar
import Localmail.DateHeader
import Localmail.ConcurrentIngest
import Localmail.IngestOnce
import Localmail.AttachmentKind
import Localmail.OuterJoin
import Localmail.ExtractQueue
import Localmail.QueueReport
import Localmail.ExtractWorker
import Localmail.ExtractDrain
import Localmail.SessionJournal
import Localmail.ImportRun
import Localmail.ImportCounts
import Localmail.FailurePacing
import Localmail.TokenWindows
import Localmail.ExtractCharacters
import Localmail.DaemonSupervisor
import Localmail.ReadingPane
import Localmail.MailListOnce
import Localmail.FileTree
import Localmail.BlobTemps
import Localmail.BlobStore
import Localmail.BlobSafety
import Localmail.BlobRuns
import Localmail.BlobGuarantees
import Localmail.BlobAgeGate
import Localmail.BlobSweep
import Localmail.ContentDisposition
import Localmail.BlobResponse
import Localmail.ResumedDownload
import Localmail.SnapshotReads
import Localmail.AccountReads
import Localmail.AccountView
import Localmail.DaemonLoop
import Localmail.DaemonPlan
import Localmail.DaemonRegistry
import Localmail.DaemonRuns
import Localmail.DaemonCommands
import Localmail.LruTtl
import Localmail.SearchCaches
import Localmail.RewriteCache
