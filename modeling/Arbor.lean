import Arbor.Garden
import Arbor.Proofs.Run
import Arbor.Proofs.Derivation
import Arbor.Proofs.Marking
import Arbor.Proofs.Budding
import Arbor.Proofs.Growth
import Arbor.Proofs.Ownership
import Arbor.Proofs.Lineage
import Arbor.Proofs.PoseStack
import Arbor.Proofs.Connection
import Arbor.Proofs.Consumption
import Arbor.Proofs.Sketch
import Arbor.Proofs.Independence
import Arbor.Proofs.Polyline
import Arbor.Proofs.Accounts
import Arbor.Proofs.Ancestry
import Arbor.Proofs.Embedding
import Arbor.Proofs.Edit
import Arbor.Proofs.Identity
import Arbor.Proofs.Forest
import Arbor.Proofs.Maturity
import Arbor.Proofs.Renaming
import Arbor.Proofs.Removal
import Arbor.Proofs.Transcript
import Arbor.Proofs.Tips
import Arbor.Proofs.Ages
import Arbor.Proofs.Measure
import Arbor.Proofs.Ledger
import Arbor.Proofs.Enclosure
import Arbor.Proofs.Spelling
import Arbor.Proofs.Joining
import Arbor.Proofs.Precedence
import Arbor.Proofs.Ground
import Arbor.Proofs.Listing
import Arbor.Proofs.Roots
import Arbor.Proofs.Insertion
