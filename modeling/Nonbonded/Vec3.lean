import Nonbonded.Scalar

/-!
# Vectors in three dimensions

Three components with componentwise arithmetic.  Products sum their terms from
the first axis to the last.
-/

namespace Nonbonded

/-- A coordinate axis. -/
abbrev Axis := Fin 3

instance Axis.neZero : @NeZero Nat Zero.ofOfNat0 3 :=
  ⟨by decide⟩

/-- A point or displacement in space. -/
@[ext]
structure Vec3 (α : Type) where
  x : α
  y : α
  z : α

namespace Vec3

variable {α : Type}

/-- The component along an axis. -/
def get (v : Vec3 α) : Axis → α
  | 0 => v.x
  | 1 => v.y
  | 2 => v.z

@[simp]
theorem get_zero (v : Vec3 α) : v.get 0 = v.x :=
  rfl

@[simp]
theorem get_one (v : Vec3 α) : v.get 1 = v.y :=
  rfl

@[simp]
theorem get_two (v : Vec3 α) : v.get 2 = v.z :=
  rfl

/-- Apply a function on every axis. -/
def ofAxes (f : Axis → α) : Vec3 α :=
  ⟨f 0, f 1, f 2⟩

@[simp]
theorem get_ofAxes (f : Axis → α) (a : Axis) : (ofAxes f).get a = f a := by
  match a with
  | 0 => rfl
  | 1 => rfl
  | 2 => rfl

variable [Scalar α]

instance : Add (Vec3 α) :=
  ⟨fun v w => ⟨v.x + w.x, v.y + w.y, v.z + w.z⟩⟩

instance : Sub (Vec3 α) :=
  ⟨fun v w => ⟨v.x - w.x, v.y - w.y, v.z - w.z⟩⟩

instance : Neg (Vec3 α) :=
  ⟨fun v => ⟨-v.x, -v.y, -v.z⟩⟩

/-- The origin. -/
def zero : Vec3 α :=
  ⟨0, 0, 0⟩

/-- Multiply every component by a factor. -/
def scale (v : Vec3 α) (factor : α) : Vec3 α :=
  ⟨v.x * factor, v.y * factor, v.z * factor⟩

/-- Divide every component by a divisor. -/
def divide (v : Vec3 α) (divisor : α) : Vec3 α :=
  ⟨v.x / divisor, v.y / divisor, v.z / divisor⟩

/-- The inner product. -/
def dot (v w : Vec3 α) : α :=
  v.x * w.x + v.y * w.y + v.z * w.z

/-- The squared length. -/
def normSq (v : Vec3 α) : α :=
  v.dot v

/-- The sum of a list of vectors from left to right, starting at the origin. -/
def sum (vectors : List (Vec3 α)) : Vec3 α :=
  vectors.foldl (· + ·) zero

@[simp]
theorem x_add (v w : Vec3 α) : (v + w).x = v.x + w.x :=
  rfl

@[simp]
theorem y_add (v w : Vec3 α) : (v + w).y = v.y + w.y :=
  rfl

@[simp]
theorem z_add (v w : Vec3 α) : (v + w).z = v.z + w.z :=
  rfl

@[simp]
theorem x_sub (v w : Vec3 α) : (v - w).x = v.x - w.x :=
  rfl

@[simp]
theorem y_sub (v w : Vec3 α) : (v - w).y = v.y - w.y :=
  rfl

@[simp]
theorem z_sub (v w : Vec3 α) : (v - w).z = v.z - w.z :=
  rfl

@[simp]
theorem x_neg (v : Vec3 α) : (-v).x = -v.x :=
  rfl

@[simp]
theorem y_neg (v : Vec3 α) : (-v).y = -v.y :=
  rfl

@[simp]
theorem z_neg (v : Vec3 α) : (-v).z = -v.z :=
  rfl

end Vec3

end Nonbonded
