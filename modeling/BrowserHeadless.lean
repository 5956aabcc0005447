import BrowserHeadless.Lib.System
import BrowserHeadless.Lib.HashMap
import BrowserHeadless.RateLimit
import BrowserHeadless.Pool.Recycle
import BrowserHeadless.Pool.Drain
import BrowserHeadless.Pool.Queueing
import BrowserHeadless.Pool.Profile
import BrowserHeadless.Pool.Served
import BrowserHeadless.Capture.Teardown
import BrowserHeadless.Queue.AtLeastOnce
import BrowserHeadless.Queue.ResultKept
import BrowserHeadless.Queue.Producer
import BrowserHeadless.Queue.Payload
import BrowserHeadless.Queue.Stored
import BrowserHeadless.Jobs.Bound
import BrowserHeadless.Jobs.Drain
import BrowserHeadless.Jobs.View
import BrowserHeadless.Ssrf.Interception
import BrowserHeadless.Ssrf.Documented
import BrowserHeadless.Collect.Reorder
import BrowserHeadless.Collect.LandingReports
import BrowserHeadless.Collect.ErrorClasses
import BrowserHeadless.Collect.Initiators
import BrowserHeadless.Collect.Exit
import BrowserHeadless.Queue.Redact
import BrowserHeadless.Capture.Scripts
import BrowserHeadless.Collect.Patterns
import BrowserHeadless.Coverage.Js
import BrowserHeadless.Coverage.Css
import BrowserHeadless.Summary.Compression
import BrowserHeadless.Summary.Waste
import BrowserHeadless.Summary.Chains
import BrowserHeadless.Markdown.Truncation
import BrowserHeadless.Markdown.Fence
import BrowserHeadless.Capture.Cookies
import BrowserHeadless.Security.Hsts
import BrowserHeadless.Summary.CacheControl
import BrowserHeadless.Security.Csp
import BrowserHeadless.Queue.Retry
import BrowserHeadless.Capture.Batch
import BrowserHeadless.Queue.Backpressure
import BrowserHeadless.Vitals.Loaf
import BrowserHeadless.Images.Audit
import BrowserHeadless.Pool.Gauge
import BrowserHeadless.Capture.Waits
import BrowserHeadless.Queue.Connection
import BrowserHeadless.Capture.Report
import BrowserHeadless.Collect.Sooner
import BrowserHeadless.Capture.One
import BrowserHeadless.Lib.Block
import BrowserHeadless.Mcp.Text
import BrowserHeadless.Mcp.Tools
import BrowserHeadless.Http.Front
import BrowserHeadless.Queue.Dispatch
import BrowserHeadless.Queue.JobTime
import BrowserHeadless.Lib.Handover
import BrowserHeadless.Pool.Token
import BrowserHeadless.Pool.Slots
import BrowserHeadless.Capture.Rollups
import BrowserHeadless.Summary.Gaps
import BrowserHeadless.Vitals.LongTasks
