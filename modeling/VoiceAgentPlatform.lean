import VoiceAgentPlatform.Lib.Run
import VoiceAgentPlatform.Lib.Raising
import VoiceAgentPlatform.Lib.Ordered
import VoiceAgentPlatform.Lib.Async
import VoiceAgentPlatform.Lib.KeyedTable
import VoiceAgentPlatform.Lib.JsText
import VoiceAgentPlatform.Lib.PyVal
import VoiceAgentPlatform.Lib.Json
import VoiceAgentPlatform.Lib.Base64
import VoiceAgentPlatform.VoiceServer.SipParser
import VoiceAgentPlatform.VoiceServer.PortPool
import VoiceAgentPlatform.VoiceServer.RtpSession
import VoiceAgentPlatform.VoiceServer.SipServer
import VoiceAgentPlatform.VoiceServer.PortLedger
import VoiceAgentPlatform.VoiceServer.PortConservation
import VoiceAgentPlatform.VoiceServer.ZombieCalls
import VoiceAgentPlatform.VoiceServer.Bridge
import VoiceAgentPlatform.VoiceServer.Teardown
import VoiceAgentPlatform.Users.UserStore
import VoiceAgentPlatform.Users.Auth
import VoiceAgentPlatform.Users.Deletion
import VoiceAgentPlatform.Users.Lockout
import VoiceAgentPlatform.Users.Setup
import VoiceAgentPlatform.History.Row
import VoiceAgentPlatform.History.List
import VoiceAgentPlatform.History.Pagination
import VoiceAgentPlatform.Http
import VoiceAgentPlatform.Ddb
import VoiceAgentPlatform.Lib.CachedTable
import VoiceAgentPlatform.Lib.DictEdit
import VoiceAgentPlatform.Demos.Demo
import VoiceAgentPlatform.Demos.DemoStore
import VoiceAgentPlatform.Demos.StoredDemo
import VoiceAgentPlatform.Demos.Patch
import VoiceAgentPlatform.Demos.Edits
import VoiceAgentPlatform.Voices.VoiceStore
import VoiceAgentPlatform.StoreCaches
import VoiceAgentPlatform.History.Recorder
import VoiceAgentPlatform.History.HeadlessRows
import VoiceAgentPlatform.History.OutcomeRow
import VoiceAgentPlatform.Lib.Date
import VoiceAgentPlatform.Lib.Keyset
import VoiceAgentPlatform.Activity.ActivityStore
import VoiceAgentPlatform.Activity.Pagination
import VoiceAgentPlatform.Lib.ItemQuery
import VoiceAgentPlatform.History.AdminRow
import VoiceAgentPlatform.History.AdminList
import VoiceAgentPlatform.History.ReadPaths
import VoiceAgentPlatform.Lib.Marker
import VoiceAgentPlatform.Tts.MiniMax
import VoiceAgentPlatform.Tts.Events
import VoiceAgentPlatform.VoiceServer.RouteSet
import VoiceAgentPlatform.VoiceServer.NextHop
import VoiceAgentPlatform.Tts.Delivery
import VoiceAgentPlatform.VoiceServer.ByeRouting
import VoiceAgentPlatform.VoiceServer.Transactions
import VoiceAgentPlatform.Sessions.Ownership
import VoiceAgentPlatform.Sessions.Release
import VoiceAgentPlatform.Asr.SignerPatch
import VoiceAgentPlatform.History.Privacy
import VoiceAgentPlatform.Lib.DictUpdate
import VoiceAgentPlatform.Lib.AtomicFile
import VoiceAgentPlatform.Config.RuntimeConfig
import VoiceAgentPlatform.Config.Loading
import VoiceAgentPlatform.Mcp.McpConfig
import VoiceAgentPlatform.Config.FailedWrites
import VoiceAgentPlatform.Users.UserPatch
import VoiceAgentPlatform.Config.LaunchDefaults
import VoiceAgentPlatform.Launch.GuestLink
import VoiceAgentPlatform.Demos.VoiceTriple
import VoiceAgentPlatform.VoiceServer.RtpPacket
import VoiceAgentPlatform.VoiceServer.RtpSender
import VoiceAgentPlatform.Lib.JsObject
import VoiceAgentPlatform.VoiceServer.FoldedHeaders
import VoiceAgentPlatform.Mcp.Calls
import VoiceAgentPlatform.Lib.Trimming
import VoiceAgentPlatform.Mcp.WellFormed
import VoiceAgentPlatform.Mcp.MaskedRoundTrip
import VoiceAgentPlatform.Lib.Contract
import VoiceAgentPlatform.Voices.Constants
import VoiceAgentPlatform.Voices.VoiceRoutes
import VoiceAgentPlatform.Voices.Resolution
import VoiceAgentPlatform.Voices.SeedingPromise
import VoiceAgentPlatform.Demos.DemoLoader
import VoiceAgentPlatform.Demos.Migration
import VoiceAgentPlatform.Lib.PyNumbers
import VoiceAgentPlatform.Demos.RoundTrip
import VoiceAgentPlatform.VoiceServer.MessageRoundTrip
import VoiceAgentPlatform.VoiceServer.RoutingEcho
import VoiceAgentPlatform.VoiceServer.RouteSplitting
import VoiceAgentPlatform.Lib.JsNumber
import VoiceAgentPlatform.VoiceServer.SdpSections
import VoiceAgentPlatform.Lib.Repush
import VoiceAgentPlatform.Pipeline.Frames
import VoiceAgentPlatform.Pipeline.Playout
import VoiceAgentPlatform.Pipeline.EventBroadcaster
import VoiceAgentPlatform.Pipeline.PlayoutEstimate
import VoiceAgentPlatform.VoiceServer.BargeIn
import VoiceAgentPlatform.Pipeline.LatencyObserver
import VoiceAgentPlatform.Lib.TaskSlot
import VoiceAgentPlatform.Pipeline.TimeoutFiller
import VoiceAgentPlatform.Pipeline.IdleNudge
import VoiceAgentPlatform.Pipeline.Tools
import VoiceAgentPlatform.Talk.EventLog
import VoiceAgentPlatform.Activity.Sanitize
import VoiceAgentPlatform.Lib.Sweep
import VoiceAgentPlatform.History.PeakConcurrent
import VoiceAgentPlatform.Lib.Rounding
import VoiceAgentPlatform.VoiceServer.Resampling
import VoiceAgentPlatform.Twilio.Signature
import VoiceAgentPlatform.Twilio.Handshake
import VoiceAgentPlatform.Lib.Words
import VoiceAgentPlatform.Asr.TranscriptFilter
import VoiceAgentPlatform.Pipeline.CallControl
import VoiceAgentPlatform.Lib.Rollup
import VoiceAgentPlatform.Talk.LogRows
import VoiceAgentPlatform.Talk.LogShown
import VoiceAgentPlatform.History.SummaryStruct
import VoiceAgentPlatform.Lib.UrlQuery
import VoiceAgentPlatform.Asr.Presign
import VoiceAgentPlatform.Talk.Selection
import VoiceAgentPlatform.Talk.LaunchParams
import VoiceAgentPlatform.Deploy.ChimeProvisioner
import VoiceAgentPlatform.Demos.PatchFrame
import VoiceAgentPlatform.Tokens.Tokens
import VoiceAgentPlatform.Tokens.Provenance
import VoiceAgentPlatform.Lib.TtlCache
import VoiceAgentPlatform.Lib.Tally
import VoiceAgentPlatform.Lib.OrderStatistics
import VoiceAgentPlatform.Dashboard.Metrics
import VoiceAgentPlatform.Dashboard.MetricsCache
import VoiceAgentPlatform.Lib.Csv
import VoiceAgentPlatform.History.CsvExport
import VoiceAgentPlatform.History.ByCaller
import VoiceAgentPlatform.Lib.JsonLines
import VoiceAgentPlatform.Pipeline.LatencyLog
import VoiceAgentPlatform.Lib.Binary64Order
import VoiceAgentPlatform.Pipeline.LatencyReport
import VoiceAgentPlatform.Lib.Framing
import VoiceAgentPlatform.Lib.Hysteresis
import VoiceAgentPlatform.Pipeline.Vad
import VoiceAgentPlatform.Lib.Window
import VoiceAgentPlatform.Talk.Transcript
import VoiceAgentPlatform.VoiceServer.PhoneUplink
import VoiceAgentPlatform.Talk.GuestLaunch
