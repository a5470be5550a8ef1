import TorMarketplace.Lib.Prog
import TorMarketplace.Lib.Run
import TorMarketplace.Lib.Versioned
import TorMarketplace.Lib.Lockstep
import TorMarketplace.Lib.Cbor
import TorMarketplace.Lib.Serde
import TorMarketplace.Crypto.Primitives
import TorMarketplace.Crypto.Oblivious
import TorMarketplace.Crypto.TransitionSig
import TorMarketplace.Crypto.BlindSig
import TorMarketplace.Error
import TorMarketplace.Services.Auth
import TorMarketplace.Services.Orders
import TorMarketplace.Services.Chat
import TorMarketplace.Services.Disputes
import TorMarketplace.Services.Admin
import TorMarketplace.Background.Amounts
import TorMarketplace.Background.PaymentPoller
import TorMarketplace.Background.TimeLock
import TorMarketplace.Background.NotificationScanner
import TorMarketplace.Background.DummyWorker
import TorMarketplace.System
import TorMarketplace.Proof.AdminTokens
import TorMarketplace.Proof.ClientOrders
import TorMarketplace.Proof.Credits
import TorMarketplace.Proof.RequestBinding
import TorMarketplace.Proof.Passes
import TorMarketplace.Proof.Notifications
import TorMarketplace.Proof.Disputes
import TorMarketplace.Proof.Responses
import TorMarketplace.Proof.Settlements
import TorMarketplace.Proof.BlindSignatures
import TorMarketplace.Proof.TokenMessages
import TorMarketplace.Proof.EcdhBlobs
import TorMarketplace.Proof.TransitionPayloads
import TorMarketplace.Proof.KeySeparation
import TorMarketplace.Proof.RateLimits
import TorMarketplace.Proof.EscrowSafety
import TorMarketplace.Proof.ClientVersions
import TorMarketplace.Proof.Logins
import TorMarketplace.Proof.Listings
import TorMarketplace.Proof.Amounts
import TorMarketplace.Proof.OrderExpiry
import TorMarketplace.Proof.SettlementTx
import TorMarketplace.Proof.Coinswap
import TorMarketplace.Proof.RpcBodies
import TorMarketplace.Proof.BitcoinReplies
import TorMarketplace.Proof.DummyOrders
import TorMarketplace.Proof.BucketAlignment
import TorMarketplace.Proof.ChatReads
import TorMarketplace.Proof.FundingNotice
import TorMarketplace.Proof.ReadBack
import TorMarketplace.Proof.FailedRequests
import TorMarketplace.Proof.FundedShown
import TorMarketplace.Proof.RateBounds
import TorMarketplace.Proof.ReplaySets
import TorMarketplace.Proof.LostUpdates
import TorMarketplace.Proof.CrashSafety
import TorMarketplace.Proof.Blindness
import TorMarketplace.Proof.Conflicts
import TorMarketplace.Lib.Leases
import TorMarketplace.Lib.Paging
import TorMarketplace.Frontend.Login
import TorMarketplace.Proof.EscrowAccess
import TorMarketplace.Proof.Sessions
import TorMarketplace.Proof.Browsing
import TorMarketplace.Lib.Rounding
import TorMarketplace.Lib.Broadcast
import TorMarketplace.Services.Payments.Subscribe
import TorMarketplace.Proof.ExactAmounts
import TorMarketplace.Proof.Subscriptions
import TorMarketplace.Frontend.Transition
import TorMarketplace.Proof.SignedUpdates
import TorMarketplace.Lib.Serial
import TorMarketplace.Proof.Serializability
import TorMarketplace.Crypto.WorkerPubkey
import TorMarketplace.Frontend.Vault
import TorMarketplace.Proof.Identities
import TorMarketplace.Proof.WorkerKeys
