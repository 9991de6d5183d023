import Webshot.Foundation.Splitting
import Webshot.Foundation.SegmentCuts
import Webshot.Foundation.DigestLists
import Webshot.Foundation.Octets
import Webshot.Foundation.SignedWords
import Webshot.Foundation.Base64Url
import Webshot.Foundation.JsonText
import Webshot.Foundation.JsonLiterals
import Webshot.Foundation.PercentEncoding
import Webshot.Foundation.OrderedSelect
import Webshot.Foundation.GroupedPaging
import Webshot.Foundation.PagePositions
import Webshot.Foundation.TransitionRuns
import Webshot.Foundation.KeysetPaging
import Webshot.Foundation.KeyedMaps
import Webshot.Foundation.Reservations
import Webshot.Foundation.Occurrences
import Webshot.Foundation.FirstCuts
import Webshot.Foundation.MarkedLines
import Webshot.Foundation.FramedRecords
import Webshot.Foundation.Tiling
import Webshot.Foundation.LeadCodes
import Webshot.Foundation.JoinedFields
import Webshot.Foundation.UniqueRows
import Webshot.Text.Bytes
import Webshot.Storage.Values
import Webshot.Storage.UuidText
import Webshot.Storage.CredentialRefresh
import Webshot.Storage.QueryStrings
import Webshot.Storage.CanonicalQuery
import Webshot.Storage.SignedRequests
import Webshot.Storage.SignatureChecks
import Webshot.Storage.SignedCalls
import Webshot.Foundation.NamedValues
import Webshot.Foundation.Squeezing
import Webshot.Access.Link
import Webshot.Access.LinkText
import Webshot.Access.PlainUrls
import Webshot.Access.SurtKeys
import Webshot.Access.PrefixKeys
import Webshot.Access.LinkKeys
import Webshot.Access.PrefixTreeLaw
import Webshot.Access.PolicyDecisions
import Webshot.Access.PolicyInserts
import Webshot.Capture.CaptureTable
import Webshot.Capture.Cursor
import Webshot.Capture.PrefixCursor
import Webshot.Capture.CursorJson
import Webshot.Capture.PrefixPage
import Webshot.Capture.PrefixRanges
import Webshot.Capture.PrefixPageRefinement
import Webshot.Capture.PrefixWalk
import Webshot.Capture.PrefixPageUndo
import Webshot.Capture.PrefixPageSafety
import Webshot.Capture.LinkCursor
import Webshot.Capture.CursorRange
import Webshot.Capture.LinkPage
import Webshot.Capture.PersistAndPurge
import Webshot.Capture.RemoteStores
import Webshot.Capture.PersistOutcomes
import Webshot.Capture.PurgeLoop
import Webshot.Capture.ContentDedup
import Webshot.Capture.PurgeFinality
import Webshot.Jobs.CrawlJobRows
import Webshot.Jobs.JobLifecycle
import Webshot.Jobs.CrawlJobTask
import Webshot.Jobs.RateLimitWindow
import Webshot.Jobs.JobSpacing
import Webshot.Crawler.CdpMessages
import Webshot.Crawler.CdpClient
import Webshot.Crawler.CdpSteps
import Webshot.Crawler.CdpCommandInv
import Webshot.Crawler.CdpCommands
import Webshot.Crawler.CdpEvents
import Webshot.Crawler.CdpReader
import Webshot.Crawler.CapturedUrls
import Webshot.Crawler.PageTracker
import Webshot.Crawler.TrackerInvariant
import Webshot.Crawler.CaptureWaits
import Webshot.Crawler.UrlResolution
import Webshot.Crawler.LocationHeaders
import Webshot.Crawler.UrlSpelling
import Webshot.Text.Strings
import Webshot.Text.Utf8
import Webshot.Crawler.RedirectTargets
import Webshot.Crawler.EgressProxy
import Webshot.Crawler.ErrorDetail
import Webshot.Crawler.BrowserStart
import Webshot.Crawler.RetainedLogs
import Webshot.Crawler.CaptureErrors
import Webshot.Crawler.CaptureFailures
import Webshot.Crawler.RunArtifacts
import Webshot.Crawler.ContentIdentity
import Webshot.Crawler.CapturedBytes
import Webshot.Crawler.RunResults
import Webshot.Crawler.FailureCauses
import Webshot.Crawler.ProxyBudget
import Webshot.Crawler.ProxyRequests
import Webshot.Crawler.Authorities
import Webshot.Crawler.ForwardedRequests
import Webshot.Crawler.ProxyRelay
import Webshot.Crawler.IpAddresses
import Webshot.Crawler.UpstreamDialing
import Webshot.Crawler.WarcRecords
import Webshot.Crawler.WarcFraming
import Webshot.Crawler.RunAborts
import Webshot.Crawler.WarcIndex
import Webshot.Crawler.CdxIndex
import Webshot.Arkhiv.ZipPaths
import Webshot.Arkhiv.ZipArchives
import Webshot.Arkhiv.ZipRoundTrip
import Webshot.Foundation.FailingPrograms
import Webshot.Crawler.PageSessions
import Webshot.Crawler.PageRelease
import Webshot.Crawler.FetchGate
import Webshot.Crawler.FetchGateRuns
import Webshot.Crawler.WaczArchives
import Webshot.Foundation.TextLines
import Webshot.Crawler.CgroupStats
import Webshot.Crawler.CgroupSnapshots
import Webshot.Crawler.NetworkActivity
import Webshot.Crawler.IdleWaits
import Webshot.Crawler.IdleEnds
import Webshot.Jobs.ServiceSystem
import Webshot.Jobs.JobResults
import Webshot.Jobs.ResultObjects
import Webshot.Crawler.ProxyDownloads
import Webshot.Crawler.DownloadRuns
import Webshot.Crawler.JournalRuns
