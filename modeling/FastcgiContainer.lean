import FastcgiContainer.Word
import FastcgiContainer.Search
import FastcgiContainer.OrderedMap
import FastcgiContainer.Ctype
import FastcgiContainer.Range
import FastcgiContainer.StringBuffer
import FastcgiContainer.MMapFile
import FastcgiContainer.FileBuffer
import FastcgiContainer.DataBufferImpl
import FastcgiContainer.FlatBuffer
import FastcgiContainer.DataBuffer
import FastcgiContainer.StringUtils
import FastcgiContainer.FormDecoding
import FastcgiContainer.Request
import FastcgiContainer.Parser
import FastcgiContainer.Multipart
import FastcgiContainer.MultipartStorage
import FastcgiContainer.MultipartEncoding
import FastcgiContainer.BufferWriter
import FastcgiContainer.RequestSerializer
import FastcgiContainer.Response
import FastcgiContainer.ResponseRuns
import FastcgiContainer.RequestImage
import FastcgiContainer.RequestRoundTrip
import FastcgiContainer.Environment
import FastcgiContainer.Attach
import FastcgiContainer.AttachedRequest
import FastcgiContainer.SessionManager
import FastcgiContainer.SessionRegistry
import FastcgiContainer.SessionEffects
import FastcgiContainer.Authenticator
import FastcgiContainer.SessionRuns
import FastcgiContainer.SessionThreads
import FastcgiContainer.SessionOwnership
import FastcgiContainer.SessionFailures
import FastcgiContainer.SessionCookie
import FastcgiContainer.SessionFrame
import FastcgiContainer.SessionExpiry
import FastcgiContainer.SessionFixation
import FastcgiContainer.AuthenticatorFilter
import FastcgiContainer.Mediation
import FastcgiContainer.FormAuthenticator
import FastcgiContainer.ThreadPool
import FastcgiContainer.Disk
import FastcgiContainer.FileRequestCache
import FastcgiContainer.CacheKeys
import FastcgiContainer.CacheEffects
import FastcgiContainer.CacheRuns
import FastcgiContainer.CacheRetries
import FastcgiContainer.ActiveRequests
import FastcgiContainer.Postorder
import FastcgiContainer.ComponentSet
import FastcgiContainer.ComponentLoading
import FastcgiContainer.ComponentUnloading
import FastcgiContainer.UrlEncoding
import FastcgiContainer.CookieRoundTrip
import FastcgiContainer.FilterChain
import FastcgiContainer.RequestsThreadPool
import FastcgiContainer.TaskHandling
import FastcgiContainer.FileLogger
import FastcgiContainer.PageReader
import FastcgiContainer.PageSections
import FastcgiContainer.CppLiteral
import FastcgiContainer.PageMarkup
import FastcgiContainer.TwoRuns
import FastcgiContainer.PartIsolation
import FastcgiContainer.StoredImage
import FastcgiContainer.ImageRanges
import FastcgiContainer.Finishing
import FastcgiContainer.ImageReading
import FastcgiContainer.Boundary
import FastcgiContainer.QuotedParameters
import FastcgiContainer.DeclaredType
import FastcgiContainer.PartDelimiters
import FastcgiContainer.Base64
import FastcgiContainer.BasicCredentials
import FastcgiContainer.FormResumption
import FastcgiContainer.HeadResponse
import FastcgiContainer.Lines
import FastcgiContainer.HeaderFraming
import FastcgiContainer.RawCookies
import FastcgiContainer.PoolConfiguration
import FastcgiContainer.Acyclic
import FastcgiContainer.ConfigVariables
import FastcgiContainer.VariableResolution
import FastcgiContainer.UniqueKeys
import FastcgiContainer.EmptyStatements
import FastcgiContainer.Scriptlets
import FastcgiContainer.Directives
import FastcgiContainer.PageInclusion
import FastcgiContainer.AttributesHolder
import FastcgiContainer.MappingWindow
import FastcgiContainer.Runs
import FastcgiContainer.SplitFields
import FastcgiContainer.Selection
import FastcgiContainer.HandlerSet
import FastcgiContainer.Routing
import FastcgiContainer.Ledger
import FastcgiContainer.Container
import FastcgiContainer.ResponseFrame
import FastcgiContainer.PoolTasks
import FastcgiContainer.Dispatching
import FastcgiContainer.Startup
import FastcgiContainer.Custody
import FastcgiContainer.QueueRouting
import FastcgiContainer.BusyCounters
import FastcgiContainer.Shutdown
import FastcgiContainer.Wakeups
import FastcgiContainer.Responses
import FastcgiContainer.ResponseTimes
import FastcgiContainer.Calendar
import FastcgiContainer.HttpDates
import FastcgiContainer.PageMeaning
import FastcgiContainer.CodeWriter
import FastcgiContainer.PageBuild
import FastcgiContainer.PageOutputs
