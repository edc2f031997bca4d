import StreamAuth.Main
import StreamAuth.Proofs.Answers
import StreamAuth.Proofs.Reading
import StreamAuth.Proofs.Steps
import StreamAuth.Proofs.Output
import StreamAuth.Proofs.Ledger
import StreamAuth.Proofs.Delivery
import StreamAuth.Proofs.Pieces
import StreamAuth.Proofs.Stanzas
import StreamAuth.Proofs.Conversation
import StreamAuth.Proofs.Course
import StreamAuth.Proofs.Teardown
import StreamAuth.Proofs.History
import StreamAuth.Proofs.Counters
import StreamAuth.Proofs.Exchange
import StreamAuth.Proofs.Negotiation
import StreamAuth.Proofs.Characters
import StreamAuth.Proofs.Documents
import StreamAuth.Proofs.Offers
import StreamAuth.Proofs.Turns
import StreamAuth.Proofs.Verdicts
import StreamAuth.Proofs.Shutdown
import StreamAuth.Proofs.Segments
import StreamAuth.Proofs.Replays
import StreamAuth.Proofs.Layers
import StreamAuth.Proofs.Secrecy
import StreamAuth.Proofs.Announcements
import StreamAuth.Proofs.Printing
import StreamAuth.Proofs.Extraction
import StreamAuth.Proofs.Offsets
import StreamAuth.Proofs.Quiescence
import StreamAuth.Proofs.Challenges
import StreamAuth.Proofs.Canonical
import StreamAuth.Proofs.UserNames
import StreamAuth.Proofs.Parameters
import StreamAuth.Proofs.Layouts
import StreamAuth.Proofs.Headers
import StreamAuth.Proofs.Merging
import StreamAuth.Proofs.Traversals
import StreamAuth.Proofs.Nonces
import StreamAuth.Proofs.Cuts
import StreamAuth.Proofs.OpenElements
