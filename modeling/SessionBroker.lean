import SessionBroker.Composition
import SessionBroker.Config.Parse
import SessionBroker.Logging
import SessionBroker.Outbound.Pipeline
import SessionBroker.Proofs.Flush
import SessionBroker.Proofs.Intake
import SessionBroker.Proofs.Parking
import SessionBroker.Transport.Basic
import SessionBroker.Proofs.WorkerOrder
import SessionBroker.Proofs.EventFlow
import SessionBroker.Proofs.EventOrder
import SessionBroker.Proofs.Hiding
import SessionBroker.Proofs.Quiet
import SessionBroker.Proofs.Isolation
import SessionBroker.Proofs.Debounce
import SessionBroker.Proofs.Journal
import SessionBroker.Proofs.Recompile
import SessionBroker.Proofs.Cleanup
import SessionBroker.Proofs.Decision
import SessionBroker.Proofs.Watches
import SessionBroker.Proofs.Endings
import SessionBroker.Proofs.Registration
import SessionBroker.Proofs.Stall
import SessionBroker.Proofs.Release
import SessionBroker.Proofs.RoundTrip
import SessionBroker.Proofs.Announcement
import SessionBroker.Proofs.Inert
import SessionBroker.Proofs.Numerals
import SessionBroker.Proofs.Outcome
import SessionBroker.Proofs.Server
import SessionBroker.Proofs.TextForm
import SessionBroker.Proofs.Lines
import SessionBroker.Proofs.Framing
import SessionBroker.Proofs.FrontEnd
import SessionBroker.Proofs.ReadBack
import SessionBroker.Proofs.Batches
import SessionBroker.Proofs.Windows
import SessionBroker.Proofs.GateStream
import SessionBroker.Proofs.Blocking
import SessionBroker.Proofs.RelayStream
import SessionBroker.Proofs.Report
import SessionBroker.Proofs.Reported
import SessionBroker.Proofs.SourceSearch
import SessionBroker.Proofs.Layering
import SessionBroker.Proofs.Classification
