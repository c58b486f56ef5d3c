import SpectreRelay.Lib.JsonClean
import SpectreRelay.Lib.JsonSize
import SpectreRelay.Lib.Map
import SpectreRelay.Lib.Bag
import SpectreRelay.Lib.Runs
import SpectreRelay.Lib.Window
import SpectreRelay.Lib.Table
import SpectreRelay.Lib.Expiring
import SpectreRelay.Lib.Serial
import SpectreRelay.Lib.Slots
import SpectreRelay.Lib.Uri
import SpectreRelay.Model.Envelope
import SpectreRelay.Config
import SpectreRelay.Server.Platform
import SpectreRelay.Server.Store
import SpectreRelay.Server.StoreImage
import SpectreRelay.Server.Router
import SpectreRelay.Server.Prekeys
import SpectreRelay.Server.SealedCa
import SpectreRelay.Server.Auth
import SpectreRelay.Server.Server
import SpectreRelay.Server.Reference
import SpectreRelay.Server.QueueRefinement
import SpectreRelay.Server.Delivery
import SpectreRelay.Server.Tracking
import SpectreRelay.Server.Conservation
import SpectreRelay.Server.Stranded
import SpectreRelay.Server.PrekeyCrash
import SpectreRelay.Server.PrekeySingleUse
import SpectreRelay.Server.Client
import SpectreRelay.Server.Sessions
import SpectreRelay.Server.Ownership
import SpectreRelay.Server.EnvelopeForm
import SpectreRelay.Server.Provenance
import SpectreRelay.Server.PrekeyBudget
import SpectreRelay.Server.CertBinding
import SpectreRelay.Server.Federation
import SpectreRelay.Server.Backlog
import SpectreRelay.Server.TimeToLive
import SpectreRelay.Server.QueueCrash
import SpectreRelay.Server.Restarts
import SpectreRelay.Server.PathIndependence
import SpectreRelay.Server.SenderPrivacy
import SpectreRelay.Server.StorageBound
import SpectreRelay.Server.SenderOrder
import SpectreRelay.Server.Namespaces
import SpectreRelay.Server.Registry
import SpectreRelay.Server.CaRotation
import SpectreRelay.Server.CaPinning
import SpectreRelay.Server.CaSeparation
import SpectreRelay.Server.PrekeyForm
import SpectreRelay.Server.SlidingWindow
import SpectreRelay.Server.HandshakeDecoding
import SpectreRelay.Server.FederationUrl
import SpectreRelay.Server.Ceiling
import SpectreRelay.Server.DrainFaults
import SpectreRelay.Server.PrekeyFaults
import SpectreRelay.Server.PrekeyFetch
import SpectreRelay.Server.StoreCalls
import SpectreRelay.Server.FlushSuffix
import SpectreRelay.Server.EmptyId
import SpectreRelay.Server.ExpiryRange
import SpectreRelay.Server.StartFiles
import SpectreRelay.Server.Boot
import SpectreRelay.Server.LimiterSlices
import SpectreRelay.Server.Presence
import SpectreRelay.Server.Handshake
import SpectreRelay.Server.EndToEnd
import SpectreRelay.Server.Completion
import SpectreRelay.Server.HandlerSteps
import SpectreRelay.Server.Shutdown
import SpectreRelay.Server.AtMostOnce
import SpectreRelay.Server.SingleSession
import SpectreRelay.Server.CertTrust
