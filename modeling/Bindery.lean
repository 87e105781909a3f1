import Bindery.Code.Json
import Bindery.Code.Listing
import Bindery.Compilation
import Bindery.Expr.Json
import Bindery.Problem.Json
import Bindery.Symbol.Table
import Bindery.Proofs.Machine.Basic
import Bindery.Proofs.Machine.Meaning
import Bindery.Proofs.Binding.Pairing
import Bindery.Proofs.Constructor.Allocation
import Bindery.Proofs.Constructor.BindingArray
import Bindery.Proofs.Constructor.WatcherGraph
import Bindery.Proofs.Machine.Lowering
import Bindery.Proofs.Destination.Chain
import Bindery.Proofs.Machine.Heap
import Bindery.Proofs.Destination.Storing
import Bindery.Proofs.Binding.Visits
import Bindery.Proofs.Watch.Reads
import Bindery.Proofs.Binding.Linking
import Bindery.Proofs.Binding.Mutual
import Bindery.Proofs.Expr.Lookups
import Bindery.Proofs.Watch.Merging
import Bindery.Proofs.Watch.Steps
import Bindery.Proofs.Constructor.Log
import Bindery.Proofs.Watch.Origins
import Bindery.Proofs.Constructor.Undeclared
import Bindery.Proofs.Document.GeneratedIds
import Bindery.Proofs.Constructor.Verified
import Bindery.Proofs.Constructor.Linked
import Bindery.Proofs.Binding.Atomic
import Bindery.Proofs.Binding.Sessions
import Bindery.Proofs.Watch.Types
import Bindery.Proofs.Watch.Preorder
import Bindery.Proofs.Binding.Implicit
import Bindery.Proofs.Binding.Matching
import Bindery.Proofs.Destination.RoundTrip
import Bindery.Proofs.Destination.ElementNumbers
import Bindery.Proofs.Destination.Position
import Bindery.Proofs.Destination.WaysUp
import Bindery.Proofs.Document.Preorder
import Bindery.Proofs.Expr.Unambiguous
import Bindery.Proofs.Symbol.Inheritance
import Bindery.Proofs.Symbol.Order
import Bindery.Proofs.Code.Listing
import Bindery.Proofs.Constructor.Forms
import Bindery.Proofs.Constructor.SimpleSources
