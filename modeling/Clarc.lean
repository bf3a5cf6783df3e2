import Clarc.Core.Run
import Clarc.Core.HeaderText
import Clarc.Core.Connection
import Clarc.Threads.Pool
import Clarc.Http.MicroCurl
import Clarc.Local.LocalFileList
import Clarc.Local.Walk
import Clarc.Local.DatabasePatterns
import Clarc.Storage.FileListStorage
import Clarc.Upload.Uploader
import Clarc.Upload.Ledger
import Clarc.Upload.Acknowledged
import Clarc.Upload.RetryLoop
import Clarc.Upload.RequestHeaders
import Clarc.Upload.StringToSign
import Clarc.Upload.SoftLink
import Clarc.Upload.Idempotence
import Clarc.Upload.OneByOne
import Clarc.Upload.Pool
import Clarc.Upload.Editing
import Clarc.Delete.DeleteList
import Clarc.Listing.CompleteListing
import Clarc.Listing.Redirects
import Clarc.Listing.Pool
import Clarc.Listing.RebuildRecovers
import Clarc.Listing.Md5Width
import Clarc.Main.DryRun
import Clarc.Main.Deletions
import Clarc.Main.RemoteDatabase
import Clarc.Main.RowsAndObjects
import Clarc.Listing.ParseListOfFiles
import Clarc.Http.ReadFunction
import Clarc.Http.FinalResponse
import Clarc.Main.Destination
import Clarc.Delete.Batches
import Clarc.Delete.XmlEscape
import Clarc.Listing.PageBuffer
import Clarc.Listing.Malformed
import Clarc.Storage.Chunks
import Clarc.Listing.LastHead
import Clarc.Upload.JobEnds
import Clarc.Hash.Base64
import Clarc.Upload.Stopped
import Clarc.Main.Understood
import Clarc.Main.Ends
import Clarc.Main.AfterStops
import Clarc.Main.SecondRun
