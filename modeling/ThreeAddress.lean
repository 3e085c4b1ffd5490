import ThreeAddress.CompilationUnit
import ThreeAddress.Proofs.Callees
import ThreeAddress.Proofs.DataFlow.Changes
import ThreeAddress.Proofs.Flow.Structure
import ThreeAddress.Proofs.Flow.Traversal
import ThreeAddress.Proofs.Lowering.Comparisons
import ThreeAddress.Proofs.Lowering.ControlFlow
import ThreeAddress.Proofs.Lowering.Coverage
import ThreeAddress.Proofs.Lowering.Failure
import ThreeAddress.Proofs.Lowering.Operations
import ThreeAddress.Proofs.Lowering.Ranges
import ThreeAddress.Proofs.Lowering.Reordering
import ThreeAddress.Proofs.Lowering.Returns
import ThreeAddress.Proofs.Registration
import ThreeAddress.Proofs.UncalledCode
import ThreeAddress.Proofs.Lowering.Valuation
import ThreeAddress.Proofs.Lowering.Calls
import ThreeAddress.Proofs.Lowering.Interleaving
import ThreeAddress.Proofs.FixedPoint
import ThreeAddress.Proofs.Lowering.Narrowing
import ThreeAddress.Proofs.Flow.Checked
import ThreeAddress.Proofs.Flow.Worklist
import ThreeAddress.Proofs.DataFlow.Checked
import ThreeAddress.Proofs.Failures
import ThreeAddress.Proofs.Listing
import ThreeAddress.Proofs.Flow.Collection
import ThreeAddress.Proofs.Lowering.Flattening
