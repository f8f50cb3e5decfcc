import Winkd.LateMessages
import Winkd.Replay
import Winkd.ForwardSecrecy
import Winkd.BreakInRecovery
import Winkd.Authenticity
import Winkd.HandshakeAgreement
import Winkd.SkippedKeys
import Winkd.CrossedHandshakes
import Winkd.OverlappingCalls
import Winkd.SecondFactor
import Winkd.ActiveSecret
import Winkd.OneTimeCodes
import Winkd.TwoFactorRaces
import Winkd.SingleUse
import Winkd.Delivery
import Winkd.SenderOrder
import Winkd.Wakeups
import Winkd.OfflineQueue
import Winkd.Registration
import Winkd.PresenceAgreement
import Winkd.BlockedMessages
import Winkd.BlockedRequests
import Winkd.Consent
import Winkd.PresenceDisclosure
import Winkd.AddedAgain
import Winkd.Overlap
import Winkd.Rosters
import Winkd.Entitlements
import Winkd.Invisible
import Winkd.PresenceEvents
import Winkd.ReceivedSize
import Winkd.Purchases
import Winkd.Replays
import Winkd.Renewals
import Winkd.OneTimeKeys
import Winkd.BundleOrigin
import Winkd.RevokedKeys
import Winkd.DeviceRegistry
import Winkd.AccountOwners
import Winkd.MessageMarkup
import Winkd.SentOnce
import Winkd.OneEntry
import Winkd.Reconnects
import Winkd.AuthFlag
import Winkd.ChatHistory
import Winkd.BuddyCounter
import Winkd.UnreadBadge
import Winkd.DeliveredStays
import Winkd.SharedStorage
import Winkd.ClientAgreement
import Winkd.RosterMirror
import Winkd.TotpCodes
import Winkd.RecoveryCodes
import Winkd.RateLimits
import Winkd.FreeNames
import Winkd.SlotPacks
import Winkd.Preflight
import Winkd.SafetyNumbers
import Winkd.Outages
import Winkd.RegisteredLogins
import Winkd.EmailLookups
import Winkd.WellFormedNames
import Winkd.AttachmentSizes
import Winkd.Signatures
import Winkd.AddableIds
import Winkd.OauthCookies
import Winkd.AuditTrail
import Winkd.Ownership
import Winkd.HookSockets
import Winkd.OfflinePages
import Winkd.Receipts
import Winkd.SignedIn
