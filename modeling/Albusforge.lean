import Albusforge.Lib.Sorting
import Albusforge.Lib.JsText
import Albusforge.Lib.Json
import Albusforge.Lib.Search
import Albusforge.Lib.Serial
import Albusforge.Lib.Register
import Albusforge.Matcher.Completeness
import Albusforge.Matcher.EvidenceOrder
import Albusforge.Matcher.RuntimeRanges
import Albusforge.Matcher.Budget
import Albusforge.Matcher.Wiring
import Albusforge.Cloudlink.ExactlyOnce
import Albusforge.Cloudlink.Confluence
import Albusforge.Firmware.WireSchema
import Albusforge.Firmware.Numeric
import Albusforge.Camera.Ownership
import Albusforge.Camera.SpoolSafety
import Albusforge.Camera.PowerCuts
import Albusforge.Camera.FormFields
import Albusforge.Camera.SavedWifi
import Albusforge.Gateway.Stream
import Albusforge.Gateway.TurnScheduler
import Albusforge.Gateway.Completeness
import Albusforge.Intake.Stranded
import Albusforge.Intake.Clarification
import Albusforge.Intake.Survivors
import Albusforge.Observations.Media
import Albusforge.Chat.Replays
import Albusforge.Plans.OneWay
import Albusforge.Provisioning.Windows
import Albusforge.Sessions.Agree
import Albusforge.SignIn.Spend
import Albusforge.SignIn.Verify
import Albusforge.Codegen.Versions
import Albusforge.Registry.PowerPath
import Albusforge.Registry.Load
import Albusforge.Registry.Catalogue
import Albusforge.Plans.Identity
import Albusforge.Cloudlink.Jpeg
import Albusforge.Llm.Call
import Albusforge.Llm.Bounds
import Albusforge.Camera.Dns
import Albusforge.Cloudlink.UploadSlots
import Albusforge.Db.Handle
import Albusforge.Db.Managed
import Albusforge.Bme280.Formula
import Albusforge.Bme280.Numeric
import Albusforge.Bme280.Plant
import Albusforge.Lib.Url
import Albusforge.Web.NextPath
import Albusforge.Intake.Vocabulary
import Albusforge.Gateway.RateLimit
import Albusforge.Web.Transcript
import Albusforge.Web.Conversation
import Albusforge.Lib.Window
import Albusforge.Web.LiveFleet
import Albusforge.Web.LiveDashboard
import Albusforge.Web.Snapshots
import Albusforge.Lib.Keyset
import Albusforge.Observations.Health
import Albusforge.Lib.Civil
import Albusforge.Lib.Utf8
import Albusforge.Lib.Schema
import Albusforge.Provisioning.Manifest
import Albusforge.Provisioning.FirmwareCheck
import Albusforge.Provisioning.FirmwareOrder
import Albusforge.Observations.Gallery
import Albusforge.Web.Rules
import Albusforge.Web.RulesCard
import Albusforge.Camera.Schedule
import Albusforge.Ask.Status
import Albusforge.Web.ErrorHistory
import Albusforge.Intake.Log
import Albusforge.Fit.Enclosed
import Albusforge.Camera.Evidence
import Albusforge.Ask.Returned
import Albusforge.Llm.ToolLoop
import Albusforge.Ask.ChatLedger
import Albusforge.Telemetry.Progress
import Albusforge.Telemetry.Reads
import Albusforge.Camera.Telemetry
import Albusforge.Camera.TelemetryWire
