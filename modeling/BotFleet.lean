import BotFleet.Config.Environment
import BotFleet.Service.Startup
import BotFleet.Socket
import BotFleet.Proofs.Store.Calls
import BotFleet.Proofs.Store.Integrity
import BotFleet.Proofs.Store.Access
import BotFleet.Proofs.Store.Rights
import BotFleet.Proofs.Store.Veil
import BotFleet.Proofs.Daemon.Control
import BotFleet.Proofs.Service.Effect
import BotFleet.Proofs.Service.Failing
import BotFleet.Proofs.Service.Run
import BotFleet.Proofs.Crypto.Base64
import BotFleet.Proofs.Json.Scalar
import BotFleet.Proofs.Text.Utf8
import BotFleet.Proofs.Json.Compound
import BotFleet.Proofs.Json.Any
import BotFleet.Proofs.Token.RoundTrip
import BotFleet.Proofs.Token.Valid
import BotFleet.Proofs.Http.Percent
import BotFleet.Proofs.Service.Reading
import BotFleet.Proofs.Service.Gate
import BotFleet.Proofs.Registry
import BotFleet.Proofs.Service.Staleness
import BotFleet.Proofs.Service.Orphan
import BotFleet.Proofs.Service.Lineage
import BotFleet.Proofs.Service.Bearer
import BotFleet.Proofs.Service.Untouched
import BotFleet.Proofs.Daemon.Ledger
import BotFleet.Proofs.Daemon.Contention
import BotFleet.Proofs.Service.Steering
import BotFleet.Proofs.Registry.Standing
import BotFleet.Proofs.Registry.History
import BotFleet.Proofs.Registry.Fanout
import BotFleet.Proofs.Frame
import BotFleet.Proofs.Token.Lifetime
import BotFleet.Proofs.Password
import BotFleet.Proofs.Socket
import BotFleet.Proofs.Service.Verdict
import BotFleet.Proofs.Service.CurrentPassword
import BotFleet.Proofs.Service.Restart
import BotFleet.Proofs.Service.Outboxes
import BotFleet.Proofs.Service.Listing
import BotFleet.Proofs.Service.Notifications
import BotFleet.Proofs.Service.Secrecy
import BotFleet.Proofs.Service.Welcome
import BotFleet.Proofs.Service.Validity
import BotFleet.Proofs.Service.Crossing
import BotFleet.Proofs.Store.Sources
import BotFleet.Proofs.Store.Faults
import BotFleet.Proofs.Socket.Inbound
import BotFleet.Proofs.Store.Changes
import BotFleet.Proofs.Store.Catalogue
import BotFleet.Proofs.Daemon.Autostart
import BotFleet.Proofs.Service.Views
import BotFleet.Proofs.Config.Layers
import BotFleet.Proofs.Service.Contest
import BotFleet.Proofs.Service.Addresses
import BotFleet.Proofs.Service.Origin
import BotFleet.Proofs.Token.Transport
import BotFleet.Proofs.Messages
import BotFleet.Proofs.Failure
import BotFleet.Proofs.Service.Naming
