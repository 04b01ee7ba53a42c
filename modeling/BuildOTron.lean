import BuildOTron.Lib.Machine
import BuildOTron.Lib.Outcome
import BuildOTron.Lib.Json
import BuildOTron.Core.Sql
import BuildOTron.Core.Protocol
import BuildOTron.Core.DbCtx
import BuildOTron.Driver.RunRecords
import BuildOTron.Driver.Assignment
import BuildOTron.Driver.ClientJob
import BuildOTron.Driver.TokenRace
import BuildOTron.WebServer.Push
import BuildOTron.WebServer.PushRecords
import BuildOTron.Lib.Conduit
import BuildOTron.Lib.Effect
import BuildOTron.Lib.UnixPath
import BuildOTron.Native.Io
import BuildOTron.Runner.Capture
import BuildOTron.Runner.JobReport
import BuildOTron.WebServer.LiveArtifact
import BuildOTron.Core.Framing
import BuildOTron.Driver.Finality
import BuildOTron.Driver.HandOut
import BuildOTron.Driver.Placement
import BuildOTron.Driver.AlternateRuns
import BuildOTron.Driver.ArtifactPosts
import BuildOTron.Driver.Isolation
import BuildOTron.Session.Handshake
import BuildOTron.Core.Integrity
import BuildOTron.Ctl.Command
import BuildOTron.Driver.Lookups
import BuildOTron.Web.RepoIndex
import BuildOTron.WebServer.PushLookups
import BuildOTron.System.Integrity
import BuildOTron.Lib.Schema
import BuildOTron.Core.Statements
import BuildOTron.Core.FreshTables
import BuildOTron.Core.FreshDatabase
import BuildOTron.WebServer.Redelivery
import BuildOTron.WebServer.RefNames
import BuildOTron.Lib.Intern
import BuildOTron.Core.Hosts
import BuildOTron.Wasm.PositionalRead
import BuildOTron.Driver.StaleRuns
import BuildOTron.Driver.WorkSelection
import BuildOTron.Native.DbctxExt
import BuildOTron.Driver.Reservations
import BuildOTron.Ctl.RerunCommit
import BuildOTron.Web.Pages
import BuildOTron.System.Writes
import BuildOTron.System.Pages
import BuildOTron.Lib.AsyncWrite
import BuildOTron.Native.Forward
import BuildOTron.Lib.TopK
import BuildOTron.Web.RepoSummary
import BuildOTron.Lib.OnePerKey
import BuildOTron.Web.JobMetrics
import BuildOTron.Lib.OpenFiles
import BuildOTron.Runner.LocalArtifacts
import BuildOTron.Runner.BuildArgs
import BuildOTron.Lib.Like
import BuildOTron.WebServer.CommitStatus
import BuildOTron.Lib.Hex
import BuildOTron.WebServer.Webhook
import BuildOTron.Lib.Greatest
import BuildOTron.Web.LatestRun
import BuildOTron.System.LatestRun
import BuildOTron.Lib.Amounts
import BuildOTron.Web.Duration
import BuildOTron.Ctl.AddRepo
import BuildOTron.Driver.RunTimes
import BuildOTron.System.RunTimes
import BuildOTron.Lib.Channel
import BuildOTron.Lib.JsonUtf8
import BuildOTron.Driver.Admission
import BuildOTron.Native.StoreAll
import BuildOTron.System.Upload
import BuildOTron.Session.Results
import BuildOTron.System.References
import BuildOTron.Driver.Serving
import BuildOTron.Driver.ArtifactTimes
import BuildOTron.System.CommitPage
import BuildOTron.System.Drain
import BuildOTron.WebServer.StatusPage
import BuildOTron.System.Origins
import BuildOTron.System.Announcements
import BuildOTron.Lib.Binary64
import BuildOTron.Lib.Lines
import BuildOTron.Lib.Numerals
import BuildOTron.Runner.HostInfo
import BuildOTron.Runner.ProcCpuInfo
import BuildOTron.System.HostStarts
