import Nonbonded.Vec3

/-!
# Periodic boxes

An orthorhombic box that repeats in every direction, given by its low and high
corners.  A box has a positive extent on every axis; `Box.ofCorners` refuses
corners that do not, naming the first axis at fault.

`Box.minimumImage` wraps a displacement by at most one box length on each axis.
Nothing is claimed here about displacements longer than that reaches.
-/

namespace Nonbonded

/-- Why two corners do not bound a box. -/
inductive BoxError (α : Type) where
  | nonPositiveExtent (axis : Axis) (lo hi : α)
  deriving DecidableEq

/-- A periodic box with positive extent on every axis. -/
structure Box (α : Type) [Scalar α] where
  lo : Vec3 α
  hi : Vec3 α
  lo_lt_hi : ∀ axis, lo.get axis < hi.get axis

namespace Box

variable {α : Type} [Scalar α]

/-- The box between two corners. -/
def ofCorners (lo hi : Vec3 α) : Except (BoxError α) (Box α) :=
  if first : lo.get 0 < hi.get 0 then
    if second : lo.get 1 < hi.get 1 then
      if third : lo.get 2 < hi.get 2 then
        .ok ⟨lo, hi, fun axis => match axis with | 0 => first | 1 => second | 2 => third⟩
      else .error (.nonPositiveExtent 2 (lo.get 2) (hi.get 2))
    else .error (.nonPositiveExtent 1 (lo.get 1) (hi.get 1))
  else .error (.nonPositiveExtent 0 (lo.get 0) (hi.get 0))

/-- The box of given edge lengths centred on the origin. -/
def ofLengths (lengths : Vec3 α) : Except (BoxError α) (Box α) :=
  ofCorners (-lengths.scale Scalar.half) (lengths.scale Scalar.half)

/-- The cube of a given edge length centred on the origin. -/
def cubic (length : α) : Except (BoxError α) (Box α) :=
  ofLengths ⟨length, length, length⟩

/-- The edge lengths. -/
def lengths (box : Box α) : Vec3 α :=
  box.hi - box.lo

/-- The lowest axis whose edge is a shortest one. -/
def shortestAxis (box : Box α) : Axis :=
  [1, 2].foldl
    (fun best axis => if box.lengths.get axis < box.lengths.get best then axis else best) 0

/-- The shortest axis and half its edge length, which bounds the cutoffs the
box can hold. -/
def minHalfLength (box : Box α) : Axis × α :=
  (box.shortestAxis, Scalar.half * box.lengths.get box.shortestAxis)

/-- Shift a coordinate difference by one period towards the interval from minus
half a period, included, to half a period. -/
def wrap (period offset : α) : α :=
  if Scalar.half * period ≤ offset then offset - period
  else if offset < -(Scalar.half * period) then offset + period
  else offset

/-- Wrap a displacement on every axis. -/
def minimumImage (box : Box α) (offset : Vec3 α) : Vec3 α :=
  .ofAxes fun axis => wrap (box.lengths.get axis) (offset.get axis)

@[simp]
theorem get_minimumImage (box : Box α) (offset : Vec3 α) (axis : Axis) :
    (box.minimumImage offset).get axis = wrap (box.lengths.get axis) (offset.get axis) := by
  simp [minimumImage]

end Box

end Nonbonded
