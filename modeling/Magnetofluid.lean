import Magnetofluid.Krylov.Session
import Magnetofluid.Main
import Magnetofluid.Model.Inventory
import Magnetofluid.Value.Equal
import Magnetofluid.Initial.Sample
import Magnetofluid.Value.Banner
import Magnetofluid.Proofs.Model.Energy
import Magnetofluid.Proofs.Model.SetUp
import Magnetofluid.Proofs.Simulation.Reached
import Magnetofluid.Proofs.Linear.Positive
import Magnetofluid.Proofs.Krylov.Preconditioner
import Magnetofluid.Proofs.Model.Systems
import Magnetofluid.Proofs.Model.Jacobian
import Magnetofluid.Proofs.Mesh.Edges
import Magnetofluid.Proofs.Mesh.Outline
import Magnetofluid.Proofs.Krylov.Tolerance
import Magnetofluid.Proofs.Krylov.Context
import Magnetofluid.Proofs.Krylov.Pairing
import Magnetofluid.Proofs.Simulation.Failure
import Magnetofluid.Proofs.Newton.Failure
import Magnetofluid.Proofs.Model.ImplicitStep
import Magnetofluid.Proofs.Model.Failure
import Magnetofluid.Proofs.Settings.Entries
import Magnetofluid.Proofs.Settings.Sections
import Magnetofluid.Proofs.Settings.Rereading
import Magnetofluid.Proofs.Settings.Defaults
import Magnetofluid.Proofs.Newton.Pair
import Magnetofluid.Proofs.Model.Pair
import Magnetofluid.Proofs.Model.History
import Magnetofluid.Proofs.Simulation.Course
import Magnetofluid.Proofs.Simulation.Run
import Magnetofluid.Proofs.Simulation.Success
import Magnetofluid.Proofs.Float.Order
import Magnetofluid.Proofs.Float.Special
import Magnetofluid.Proofs.Settings.Ranges
import Magnetofluid.Proofs.Mesh.Shape
import Magnetofluid.Proofs.Simulation.GridMesh
import Magnetofluid.Proofs.Mesh.Sides
import Magnetofluid.Proofs.Mesh.Normals
import Magnetofluid.Proofs.Form.Jump
import Magnetofluid.Proofs.Model.Current
import Magnetofluid.Proofs.Linear.AnyMatrix
import Magnetofluid.Proofs.Model.Remainder
import Magnetofluid.Proofs.Newton.Calls
import Magnetofluid.Proofs.Newton.Contract
import Magnetofluid.Proofs.Newton.Damping
import Magnetofluid.Proofs.Model.Damping
import Magnetofluid.Proofs.Linear.Ordered
import Magnetofluid.Proofs.Linear.Factorization
import Magnetofluid.Proofs.Model.BlockPreconditioner
import Magnetofluid.Proofs.Form.Conditioning
import Magnetofluid.Proofs.Model.Recovery
import Magnetofluid.Proofs.Model.Potential
import Magnetofluid.Proofs.Newton.Overflow
import Magnetofluid.Proofs.Model.Gauge
import Magnetofluid.Proofs.Model.Prescribed
import Magnetofluid.Proofs.Mesh.EssentialNodes
import Magnetofluid.Proofs.Form.Patch
import Magnetofluid.Proofs.Initial.Current
import Magnetofluid.Proofs.Workspace.Output
import Magnetofluid.Proofs.Workspace.Log
