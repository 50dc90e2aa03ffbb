import Nonbonded.Law.ShiftedLennardJones
import Nonbonded.NeighborList
import Nonbonded.ParameterFile.Loading
import Nonbonded.Potential.Operation
import Nonbonded.Proofs.PairSum.Range
import Nonbonded.UniformField
import Nonbonded.Proofs.NeighborList.Entries
import Nonbonded.Proofs.Potential.Steps
import Nonbonded.Proofs.Potential.Safety
import Nonbonded.Proofs.Potential.Memory
import Nonbonded.Proofs.Exact.Image
import Nonbonded.Proofs.Exact.Symmetry
import Nonbonded.Proofs.Exact.Accumulation
import Nonbonded.Proofs.Exact.Guard
import Nonbonded.Proofs.Exact.StorageModes
import Nonbonded.Proofs.Exact.LatticeSum
import Nonbonded.Proofs.ParameterFile.Resolution
import Nonbonded.Proofs.TypePair.Slots
import Nonbonded.Proofs.TypePair.Contents
import Nonbonded.Proofs.Potential.Installation
import Nonbonded.Proofs.Potential.Refusal
import Nonbonded.Proofs.Exact.Schedules
import Nonbonded.Proofs.Exact.Totals
import Nonbonded.Proofs.NeighborList.Origin
import Nonbonded.Proofs.Potential.History
import Nonbonded.Proofs.Potential.Extent
import Nonbonded.Proofs.Exact.LawForm
import Nonbonded.Proofs.Exact.Gradient
import Nonbonded.Proofs.PairSum.Congruence
import Nonbonded.Proofs.Exact.Skin
import Nonbonded.Proofs.Exact.Relabelling
import Nonbonded.Proofs.NeighborList.Adjacency
import Nonbonded.Proofs.NeighborList.Rebuilds
import Nonbonded.Proofs.PairSum.Sharing
import Nonbonded.Proofs.Potential.Retention
import Nonbonded.Proofs.Potential.Candidates
import Nonbonded.Proofs.Exact.Length
import Nonbonded.Proofs.Exact.NearestImage
import Nonbonded.Proofs.Exact.Verdict
import Nonbonded.Proofs.Comparison
import Nonbonded.Proofs.PairSum.Modes
import Nonbonded.Proofs.Potential.Modes
import Nonbonded.Proofs.PairSum.Shifting
import Nonbonded.Proofs.Exact.Lowering
import Nonbonded.Proofs.Exact.OnlyImage
import Nonbonded.Proofs.Exact.Switching
import Nonbonded.Proofs.Exact.ShiftedEnergy
import Nonbonded.Proofs.Exact.Displacement
import Nonbonded.Proofs.Exact.Repulsion
import Nonbonded.Proofs.Potential.Timesteps
import Nonbonded.Proofs.ParameterFile.Acceptance
import Nonbonded.Proofs.Potential.Settings
import Nonbonded.Proofs.Exact.Cutoffs
import Nonbonded.Proofs.ParticleSystem.Arrays
import Nonbonded.Proofs.ParticleSystem.Domains
import Nonbonded.Proofs.ExternalField.Reduction
import Nonbonded.Proofs.UniformField.Edits
import Nonbonded.Proofs.Exact.FieldTotal
import Nonbonded.Proofs.Exact.DomainTotals
import Nonbonded.Proofs.Exact.UnitNormal
import Nonbonded.Proofs.Exact.FieldShifts
import Nonbonded.Proofs.ShiftMode.Reading
import Nonbonded.Proofs.Potential.Smoothing
