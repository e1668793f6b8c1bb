import Rendezvous.Framing.Sink
import Rendezvous.Main
import Rendezvous.Proofs.Hearing
import Rendezvous.Proofs.Standing
import Rendezvous.Relay.Handles
import Rendezvous.WebSocket.Endpoint
import Rendezvous.WebSocket.Upgrade
import Rendezvous.Proofs.Operations
import Rendezvous.Proofs.Registry
import Rendezvous.Proofs.Deeds
import Rendezvous.Proofs.Roster
import Rendezvous.Proofs.Conduct
import Rendezvous.Proofs.Assembly
import Rendezvous.Proofs.Agreement
import Rendezvous.Proofs.Views
import Rendezvous.Proofs.Streams
import Rendezvous.Proofs.WireFormat
import Rendezvous.Proofs.Rejections
import Rendezvous.Proofs.Isolation
import Rendezvous.Proofs.Cleanup
import Rendezvous.Proofs.Schedule
import Rendezvous.Proofs.Deframing
import Rendezvous.Proofs.Emission
import Rendezvous.Proofs.Transparency
import Rendezvous.Proofs.Chronicle
import Rendezvous.Proofs.Lifecycles
import Rendezvous.Proofs.Recollection
import Rendezvous.Proofs.Replay
import Rendezvous.Proofs.Handout
import Rendezvous.Proofs.Gaps
import Rendezvous.Proofs.Bulletins
import Rendezvous.Proofs.Journaling
import Rendezvous.Proofs.Wording
import Rendezvous.Proofs.Handshake
import Rendezvous.Proofs.Diagnosis
import Rendezvous.Proofs.Refusals
import Rendezvous.Proofs.Fanout
import Rendezvous.Proofs.Welcome
import Rendezvous.Proofs.Counts
import Rendezvous.Proofs.Sojourn
import Rendezvous.Proofs.Eviction
import Rendezvous.Proofs.Allowance
import Rendezvous.Proofs.Quotation
import Rendezvous.Proofs.Passage
import Rendezvous.Proofs.Silence
import Rendezvous.Proofs.Transports
import Rendezvous.Proofs.Writing
import Rendezvous.Proofs.Holdings
import Rendezvous.Proofs.Phases
import Rendezvous.Proofs.Seniority
import Rendezvous.Proofs.Permits
import Rendezvous.Proofs.Listening
