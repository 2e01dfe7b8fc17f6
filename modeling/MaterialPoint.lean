import MaterialPoint.Decimal.Fixed
import MaterialPoint.Linear.Gram
import MaterialPoint.Main
import MaterialPoint.Mesh.Cuboid
import MaterialPoint.Session
import MaterialPoint.Simulation.Operation
import MaterialPoint.Transfer.Contention
import MaterialPoint.Proofs.Exact
import MaterialPoint.Proofs.Linear
import MaterialPoint.Proofs.Kernel
import MaterialPoint.Proofs.Lattice
import MaterialPoint.Proofs.Transfer
import MaterialPoint.Proofs.Momentum
import MaterialPoint.Proofs.Stress
import MaterialPoint.Proofs.AngularMomentum
import MaterialPoint.Proofs.Coherence
import MaterialPoint.Proofs.Confinement
import MaterialPoint.Proofs.Crossing
import MaterialPoint.Proofs.Watertight
import MaterialPoint.Proofs.Edits
import MaterialPoint.Proofs.FreeFall
import MaterialPoint.Proofs.Apportionment
import MaterialPoint.Proofs.Seeding
import MaterialPoint.Proofs.Extended
import MaterialPoint.Proofs.Health
import MaterialPoint.Proofs.Determinant
import MaterialPoint.Proofs.Isotropy
import MaterialPoint.Proofs.Barycentric
import MaterialPoint.Proofs.Cuboid
import MaterialPoint.Proofs.Persistence
import MaterialPoint.Proofs.Tiling
import MaterialPoint.Proofs.Polyhedron
import MaterialPoint.Proofs.Convexity
import MaterialPoint.Proofs.Contention
import MaterialPoint.Proofs.Schedules
import MaterialPoint.Proofs.Inversion
import MaterialPoint.Proofs.Escape
import MaterialPoint.Proofs.Commands
import MaterialPoint.Proofs.Restart
import MaterialPoint.Proofs.Updates
import MaterialPoint.Proofs.Swap
import MaterialPoint.Proofs.Symmetry
import MaterialPoint.Proofs.Validity
import MaterialPoint.Proofs.Plasticity
import MaterialPoint.Proofs.Volume
import MaterialPoint.Proofs.PrincipalStress
import MaterialPoint.Proofs.Deposition
import MaterialPoint.Proofs.AffineField
import MaterialPoint.Proofs.Footprint
import MaterialPoint.Proofs.HeightRange
import MaterialPoint.Proofs.Parity
import MaterialPoint.Proofs.Indexing
import MaterialPoint.Proofs.Proportion
import MaterialPoint.Proofs.Polygons
import MaterialPoint.Proofs.Surface
import MaterialPoint.Proofs.Placement
import MaterialPoint.Proofs.Divisors
import MaterialPoint.Proofs.Guarded
import MaterialPoint.Proofs.Neighbors
import MaterialPoint.Proofs.Addressing
import MaterialPoint.Proofs.Streams
