import ECSUtil.Lib.StepSystem
import ECSUtil.Lib.Execution
import ECSUtil.Lib.Outcome
import ECSUtil.Lib.Channel
import ECSUtil.Lib.Slice
import ECSUtil.Lib.Trace
import ECSUtil.Lib.Sha256
import ECSUtil.Lib.SortedMap
import ECSUtil.Lib.Paging
import ECSUtil.Lib.Batch
import ECSUtil.Lib.CodePage
import ECSUtil.Lib.Checked
import ECSUtil.Lib.Loop
import ECSUtil.Lib.Percent
import ECSUtil.Lib.Sharing
import ECSUtil.Lib.SrwLock
import ECSUtil.Conn.Error
import ECSUtil.Conn.Stream
import ECSUtil.Conn.Text
import ECSUtil.Conn.Time
import ECSUtil.Conn.Format
import ECSUtil.Files.Read
import ECSUtil.Files.Write
import ECSUtil.Multipart.PartList
import ECSUtil.Multipart.Plan
import ECSUtil.Multipart.Pending
import ECSUtil.Multipart.Upload
import ECSUtil.Multipart.Complete
import ECSUtil.Multipart.Abort
import ECSUtil.Multipart.Feeder
import ECSUtil.Multipart.Object
import ECSUtil.Multipart.ReadLoops
import ECSUtil.Sign.Key
import ECSUtil.Sign.Config
import ECSUtil.Sign.Secret
import ECSUtil.Sign.Uri
import ECSUtil.Stream.Send
import ECSUtil.Stream.Progress
import ECSUtil.Buffer.Block
import ECSUtil.Buffer.Values
import ECSUtil.Lock.Recursive
import ECSUtil.Session.Map
import ECSUtil.Session.Owner
import ECSUtil.Session.Entries
import ECSUtil.Session.Settings
import ECSUtil.Session.StateList
import ECSUtil.Request.Callback
import ECSUtil.Request.Send
import ECSUtil.Request.Exit
import ECSUtil.Request.Buffer
import ECSUtil.Request.Done
import ECSUtil.Xml.Scan
import ECSUtil.Xml.Errors
import ECSUtil.Xml.Operations
import ECSUtil.Xml.Document
import ECSUtil.Xml.ErrorBody
import ECSUtil.Xml.Writer
import ECSUtil.Xml.Markup
import ECSUtil.Listing.Callback
import ECSUtil.Listing.Internal
import ECSUtil.Listing.Server
import ECSUtil.Listing.Pages
import ECSUtil.Delete.Send
import ECSUtil.Delete.Batches
import ECSUtil.Delete.Folder
import ECSUtil.Body.Acl
import ECSUtil.Body.Lifecycle
import ECSUtil.Copy.Agree
import ECSUtil.Copy.Rename
import ECSUtil.Body.CodePage
import ECSUtil.Copy.Ranges
import ECSUtil.Bucket.Name
import ECSUtil.Body.AclDups
import ECSUtil.Throttle.Refill
import ECSUtil.Retry.Marks
import ECSUtil.Retry.Limit
import ECSUtil.Receive.Read
import ECSUtil.ThreadPool.Future
import ECSUtil.Throttle.Timer
import ECSUtil.Admin.Port
import ECSUtil.Admin.Credentials
import ECSUtil.Session.AbortList
import ECSUtil.Throttle.Quota
import ECSUtil.ThreadPool.Order
import ECSUtil.ThreadPool.Limit
import ECSUtil.Conn.Iso8601
import ECSUtil.Xml.Content
import ECSUtil.Listing.Records
import ECSUtil.Request.Tokens
import ECSUtil.Multipart.Uploads
import ECSUtil.Search.Literals
import ECSUtil.Search.Records
import ECSUtil.Sign.Canonical
import ECSUtil.Sign.Order
import ECSUtil.Sign.Share
import ECSUtil.Lib.Responder
import ECSUtil.Lib.Branching
import ECSUtil.Buffer.Slack
import ECSUtil.Buffer.Stream
import ECSUtil.Buffer.Compare
import ECSUtil.Buffer.Bounds
import ECSUtil.Session.PerfSize
import ECSUtil.Queue.Bounded
import ECSUtil.Queue.Links
import ECSUtil.Crypto.Providers
import ECSUtil.Crypto.Modes
import ECSUtil.Stream.Grammar
import ECSUtil.Stream.Framing
import ECSUtil.Lib.LockOrder
import ECSUtil.ThreadPool.Locks
import ECSUtil.Worker.Thread
import ECSUtil.Worker.Lifecycle
import ECSUtil.ThreadPool.Custody
