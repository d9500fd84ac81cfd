import StarStats.Lib.Regex
import StarStats.Lib.Text
import StarStats.Lib.Json
import StarStats.Lib.Tables
import StarStats.Lib.Spans
import StarStats.Lib.Histories
import StarStats.Lib.Percent
import StarStats.Core.ParserDefs
import StarStats.Core.BurstOrder
import StarStats.Core.BurstsLeft
import StarStats.Core.Rituals
import StarStats.Core.Ageing
import StarStats.Core.CivilDays
import StarStats.Core.TransactionOrder
import StarStats.Core.OpenRequests
import StarStats.Core.ShellMisses
import StarStats.Core.ShopTimeouts
import StarStats.Core.LocationChanges
import StarStats.Core.ImplicitDeaths
import StarStats.Core.InferredRows
import StarStats.Core.Supersession
import StarStats.Core.UnknownLines
import StarStats.Core.Validators
import StarStats.Client.BurstRules
import StarStats.Client.TailRuns
import StarStats.Client.CrashRuns
import StarStats.Client.ReplayRuns
import StarStats.Client.ReparseTwice
import StarStats.Client.RetroLive
import StarStats.Client.UnknownCache
import StarStats.Client.SyncRuns
import StarStats.Client.SummaryFaults
import StarStats.Client.BurstKinds
import StarStats.Client.TwoKeys
import StarStats.Client.ReviewQueue
import StarStats.Client.ConfigRaces
import StarStats.Client.Discovery
import StarStats.Client.SideSources
import StarStats.Client.NoiseList
import StarStats.Client.Health
import StarStats.Server.SmtpConfig
import StarStats.Tray.Review
import StarStats.Server.SecondFactor
import StarStats.Server.HalfLogin
import StarStats.Server.ShareExpiry
import StarStats.Server.ShareScopes
import StarStats.EndToEnd
import StarStats.Server.OrderStates
import StarStats.Server.AuditTampering
import StarStats.Server.AuditNumbers
import StarStats.Server.AuditRaces
import StarStats.Server.OwnEvents
import StarStats.Server.Erasure
import StarStats.Server.Reregistered
import StarStats.Server.EmailChange
import StarStats.Server.DeviceSessions
import StarStats.Server.FirstAddress
import StarStats.Server.MagicLinks
import StarStats.Server.RsiVerify
import StarStats.Server.TotpSetup
import StarStats.Server.RecoveryCodes
import StarStats.Server.LoginCodes
import StarStats.Server.SignUps
import StarStats.Server.Sessions
import StarStats.Server.Dwell
import StarStats.Server.Timelines
import StarStats.Server.TopZones
import StarStats.Server.GrantGate
import StarStats.Server.ReportedShares
import StarStats.Server.LoneFlagger
import StarStats.Server.NewSubmissions
import StarStats.Server.NamePlates
import StarStats.Server.OrgRemovals
import StarStats.Server.OrgSuccessors
import StarStats.Server.Cursors
import StarStats.Server.StaffRoles
import StarStats.Server.RsiBadges
import StarStats.Server.TokenOwners
import StarStats.Tray.Occurrences
import StarStats.Server.Slugs
import StarStats.Server.WebhookSignatures
import StarStats.Server.CanonicalJson
import StarStats.Client.Hangar
import StarStats.Client.Settings
import StarStats.Web.Rollups
