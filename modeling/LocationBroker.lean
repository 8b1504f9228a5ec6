import LocationBroker.Host.Basic
import LocationBroker.Json.Document
import LocationBroker.Logging.Setup
import LocationBroker.Proofs.Broker.Availability
import LocationBroker.Proofs.Broker.Decoding
import LocationBroker.Proofs.Broker.Extension
import LocationBroker.Proofs.Broker.FailedStart
import LocationBroker.Proofs.Broker.Inert
import LocationBroker.Proofs.Broker.Notification
import LocationBroker.Proofs.Broker.Selection
import LocationBroker.Proofs.Broker.Squatting
import LocationBroker.Proofs.Broker.Startup
import LocationBroker.Proofs.Broker.Teardown
import LocationBroker.Proofs.Bus.Codec
import LocationBroker.Proofs.Bus.Custody
import LocationBroker.Proofs.Bus.PathGrammar
import LocationBroker.Proofs.Bus.Removal
import LocationBroker.Proofs.Bus.RuleText
import LocationBroker.Proofs.Bus.Suffix
import LocationBroker.Proofs.Logging.Installation
import LocationBroker.Proofs.Network.Addressing
import LocationBroker.Proofs.Network.CutOff
import LocationBroker.Proofs.Network.Departure
import LocationBroker.Proofs.Network.Exports
import LocationBroker.Proofs.Network.Subscription
import LocationBroker.Proofs.Office.Linearizable
import LocationBroker.Proofs.Provider.Memory
import LocationBroker.Proofs.Provider.Presentation
import LocationBroker.Proofs.Provider.Reports
import LocationBroker.Proofs.Watch.Presence
import LocationBroker.Proofs.Watch.Teardown
