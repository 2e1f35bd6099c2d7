import Logicless.Main
import Logicless.Pragma.Probe
import Logicless.Proofs.Answering
import Logicless.Proofs.Bypassing
import Logicless.Proofs.Caching
import Logicless.Proofs.Compiling
import Logicless.Proofs.Concluding
import Logicless.Proofs.Configuring
import Logicless.Proofs.Congruence
import Logicless.Proofs.Containment
import Logicless.Proofs.Declining
import Logicless.Proofs.Depth
import Logicless.Proofs.Discretion
import Logicless.Proofs.Documents
import Logicless.Proofs.Ending
import Logicless.Proofs.Entities
import Logicless.Proofs.Escaping
import Logicless.Proofs.Excerpt
import Logicless.Proofs.Gaps
import Logicless.Proofs.Including
import Logicless.Proofs.Indexing
import Logicless.Proofs.Inheritance
import Logicless.Proofs.Isolation
import Logicless.Proofs.Iterating
import Logicless.Proofs.Keeping
import Logicless.Proofs.Lineage
import Logicless.Proofs.Lines
import Logicless.Proofs.Naming
import Logicless.Proofs.Nesting
import Logicless.Proofs.Occurrence
import Logicless.Proofs.Offering
import Logicless.Proofs.Overriding
import Logicless.Proofs.Paths
import Logicless.Proofs.Places
import Logicless.Proofs.Precedence
import Logicless.Proofs.Preparing
import Logicless.Proofs.Privacy
import Logicless.Proofs.Reading
import Logicless.Proofs.Rejecting
import Logicless.Proofs.Repetition
import Logicless.Proofs.Requests
import Logicless.Proofs.RoundTrip
import Logicless.Proofs.Run
import Logicless.Proofs.Scoping
import Logicless.Proofs.Sealing
import Logicless.Proofs.Splicing
import Logicless.Proofs.Telling
import Logicless.Proofs.Transparency
import Logicless.Proofs.Unescaping
import Logicless.Proofs.Upholding
import Logicless.Proofs.Verdict
import Logicless.Proofs.Views
import Logicless.Proofs.Wiring
import Logicless.Proofs.Withholding
import Logicless.Proofs.Words
import Logicless.Proofs.Writing
import Logicless.Session
