import Nonbonded.Proofs.Exact.Image
import Nonbonded.Proofs.Exact.LawForm
import Nonbonded.Proofs.PairSum.Range

/-!
# Action and reaction

A law is symmetric when it does not matter which particle of a pair is called
the first, and every law of this library is.  For a symmetric law the
contributions of two particles to each other are opposite in force and equal in
energy and virial, as long as every cutoff fits the box: wrapping a
displacement commutes with reversing it only strictly within half a box length,
and beyond the cutoff there is no contribution to compare.
-/

namespace Nonbonded

/-- The same pair with the other particle first. -/
def PairView.swap {α : Type} (pair : PairView α) : PairView α :=
  { pair with
    diameters := pair.diameters.map Prod.swap
    charges := pair.charges.map Prod.swap }

namespace PairLaw

/-- The interaction does not depend on which particle is the first. -/
def Symmetric {α : Type} (law : PairLaw α) : Prop :=
  ∀ params pair shifted, law.evaluate params pair.swap shifted = law.evaluate params pair shifted

end PairLaw

theorem ShiftedLennardJones.displacement_swap (diameters : Option (ℝ × ℝ)) :
    displacement (diameters.map Prod.swap) = displacement diameters := by
  cases diameters with
  | none => rfl
  | some both => simp only [Option.map_some, Prod.swap, displacement, add_comm both.2]

theorem Coulomb.chargeProduct_swap (charges : Option (ℝ × ℝ)) :
    chargeProduct (charges.map Prod.swap) = chargeProduct charges := by
  cases charges with
  | none => rfl
  | some both => simp only [Option.map_some, Prod.swap, chargeProduct, mul_comm both.2]

/-- Every law of this library is symmetric. -/
theorem PairLaw.Bundled.symmetric {law : PairLaw ℝ} (bundled : law.Bundled) : law.Symmetric := by
  cases bundled with
  | lennardJones | gauss | yukawa => exact fun _ _ _ => rfl
  | shiftedLennardJones =>
      intro params pair shifted
      have mean := ShiftedLennardJones.displacement_swap pair.diameters
      simp only [PairLaw.shiftedLennardJones, PairView.swap, mean]
  | coulomb =>
      intro params pair shifted
      have product := Coulomb.chargeProduct_swap pair.charges
      simp only [PairLaw.coulomb, Yukawa.evaluate, PairView.swap, product]

/-- A symmetric law gives a pair the same interaction in both orders. -/
theorem PairEntry.interaction?_swap {law : PairLaw ℝ} (symmetric : law.Symmetric)
    (entry : PairEntry law) (mode : ShiftMode) (rsq : ℝ) (diameters charges : Option (ℝ × ℝ)) :
    entry.interaction? mode rsq (diameters.map Prod.swap) (charges.map Prod.swap) =
      entry.interaction? mode rsq diameters charges := by
  have same := symmetric entry.params ⟨rsq, entry.rcutsq, diameters, charges⟩
    (mode.shifts entry.rcutsq entry.ronsq)
  rw [interaction?, interaction?, ← same]
  rfl

/-- The share of the partner in an interaction is the reaction. -/
theorem Interaction.share_neg (pair : Interaction ℝ) (offset : Vec3 ℝ) (rsq : ℝ) :
    pair.share (-offset) rsq = (pair.share offset rsq).reaction := by
  apply Contribution.ext
  · apply Vec3.eq_of_get
    intro axis
    simp only [share, Contribution.reaction, Vec3.get_scale, Vec3.get_neg, neg_mul]
  · rfl
  · rfl

namespace PairSum

variable {law : PairLaw ℝ} {sum : PairSum law} {i j : Nat}

/-- Every cutoff is at most half of every box length. -/
def CutoffsFit (sum : PairSum law) : Prop :=
  ∀ entry ∈ sum.table.values, ∀ axis, entry.rcutsq ≤ sum.system.box.halfLength axis ^ 2

/-- A displacement below a cutoff that fits the box is strictly within half a
box length. -/
theorem inside_of_lt_cutoff (fit : sum.CutoffsFit) {entry : PairEntry law}
    (found : sum.entry i j = .ok entry) {offset : Vec3 ℝ} (close : offset.normSq < entry.rcutsq) :
    sum.system.box.Inside offset :=
  Box.inside_of_normSq_lt fun axis =>
    lt_of_lt_of_le close (fit entry (mem_values_of_entry found) axis)

theorem entry_comm {entry : PairEntry law} (found : sum.entry i j = .ok entry) :
    sum.entry j i = .ok entry := by
  obtain ⟨first, atFirst, found⟩ := bind_eq_ok_iff.1 found
  obtain ⟨second, atSecond, read⟩ := bind_eq_ok_iff.1 found
  rw [PairSum.entry, atSecond, atFirst]
  rw [TypePair.Table.get_comm] at read
  exact read

theorem both_swap {needed : Bool} {property : Nat → Except Fault ℝ}
    {values : Option (ℝ × ℝ)} (read : both needed property i j = .ok values) :
    both needed property j i = .ok (values.map Prod.swap) := by
  cases needed with
  | false =>
      cases read
      rfl
  | true =>
      obtain ⟨first, atFirst, read⟩ := bind_eq_ok_iff.1 read
      obtain ⟨second, atSecond, read⟩ := bind_eq_ok_iff.1 read
      cases read
      simp only [both, if_true, atFirst, atSecond]
      rfl

/-- The displacements between two particles are opposite, or both are beyond
the cutoff. -/
theorem separation_swap (fit : sum.CutoffsFit) {entry : PairEntry law}
    (found : sum.entry i j = .ok entry) {offset : Vec3 ℝ}
    (separated : sum.separation i j = .ok offset) :
    ∃ reverse, sum.separation j i = .ok reverse ∧
      (reverse = -offset ∨ entry.rcutsq ≤ offset.normSq ∧ entry.rcutsq ≤ reverse.normSq) := by
  obtain ⟨here, atHere, separated⟩ := bind_eq_ok_iff.1 separated
  obtain ⟨there, atThere, separated⟩ := bind_eq_ok_iff.1 separated
  cases separated
  refine ⟨sum.system.box.minimumImage (there - here), ?_, ?_⟩
  · rw [separation, atThere, atHere]
    rfl
  · by_cases close : (sum.system.box.minimumImage (here - there)).normSq < entry.rcutsq
    · left
      rw [← Vec3.neg_sub_eq, Box.minimumImage_neg (inside_of_lt_cutoff fit found close)]
    · by_cases closeBack : (sum.system.box.minimumImage (there - here)).normSq < entry.rcutsq
      · left
        have inside := inside_of_lt_cutoff fit found closeBack
        rw [← Vec3.neg_sub_eq there here, Box.minimumImage_neg inside, Vec3.neg_neg_eq]
      · exact .inr ⟨not_lt.1 close, not_lt.1 closeBack⟩

/-- Two particles contribute opposite forces and the same energy and virial to
each other. -/
theorem term_swap (symmetric : law.Symmetric) (fit : sum.CutoffsFit) (typed : sum.WellTyped)
    (hi : i < sum.system.size) (hj : j < sum.system.size) {share? : Option (Contribution ℝ)}
    (contributed : sum.term i j = .ok share?) :
    sum.term j i = .ok (share?.map Contribution.reaction) := by
  obtain ⟨offset, entry, diameters, charges, reads⟩ := exists_reads typed hi hj
  obtain ⟨reverse, separatedBack, opposite⟩ := separation_swap fit reads.entry reads.separation
  have readsBack : sum.Reads j i reverse entry (diameters.map Prod.swap)
      (charges.map Prod.swap) :=
    ⟨separatedBack, entry_comm reads.entry, both_swap reads.diameters, both_swap reads.charges⟩
  rw [term_eq reads] at contributed
  rw [term_eq readsBack]
  cases contributed
  rcases opposite with rfl | ⟨beyond, beyondBack⟩
  · rw [Vec3.normSq_neg, PairEntry.interaction?_swap symmetric]
    by_cases beyond : entry.rcutsq ≤ offset.normSq
    · rw [if_pos beyond, if_pos beyond]
      rfl
    · rw [if_neg beyond, if_neg beyond, Option.map_map]
      congr 2
      funext pair
      exact pair.share_neg offset _
  · rw [if_pos beyond, if_pos beyondBack]
    rfl

end PairSum

end Nonbonded
