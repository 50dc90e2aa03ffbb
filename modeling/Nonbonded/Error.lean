import Nonbonded.Decimal.Shortest
import Nonbonded.ParameterFile
import Nonbonded.ParticleSystem
import Nonbonded.TypePair.Table

/-!
# Errors and their messages

`Error` gathers the errors of the operations that join parts of the library,
with those of a part wrapped and kept whole.  Every error has a message;
numbers in messages are written in full, with the fewest digits that read back.
-/

namespace Nonbonded

/-- Why an operation on a potential, a field or a system is refused. -/
inductive Error (α : Type) where
  | invalidType (source : TypePair.TableError)
  | unknownQuantity (quantity : String) (provided : List String)
  | boxTooSmall (axis : Axis) (halfLength cutoff : α)
  | particleCountMismatch (particles listed : Nat)
  | typeCountMismatch (inSystem known : Nat)
  | invalidRadius (radius : Radius) (value : α) (type1 type2 : Nat)
  | unknownType (type typeCount : Nat)
  | invalidNormal (normal : Vec3 α)
  | parameters (source : ResolveError α)
  | system (source : SystemError)
  | box (source : BoxError α)

open Decimal (text)

/-- The name of an array in messages. -/
def ParticleArray.name : ParticleArray → String
  | .positions => "positions"
  | .types => "types"
  | .diameters => "diameters"
  | .charges => "charges"

/-- The message of an error. -/
def BoxError.message : BoxError Float → String
  | .nonPositiveExtent axis lo hi =>
      s!"Box extent along axis {axis} is not positive (lo = {text lo}, hi = {text hi})"

/-- The message of an error. -/
def SystemError.message : SystemError → String
  | .lengthMismatch array expected found =>
      s!"Expected {expected} values for '{array.name}', found {found}"
  | .typeOutOfRange index type typeCount =>
      s!"Particle {index} has type {type}, but only {typeCount} types are defined"
  | .noTypes => "A particle system requires at least one particle type"

/-- The message of an error. -/
def TypePair.TableError.message : TypePair.TableError → String
  | .invalidType type1 type2 typeCount =>
      s!"Type pair ({type1}, {type2}) is out of range for {typeCount} particle types"

/-- The message of an error. -/
def ShiftMode.ParseError.message (error : ShiftMode.ParseError) : String :=
  s!"Unknown shift mode '{error.text}' (expected 'none', 'shift' or 'xplor')"

/-- The message of an error. -/
def ResolveError.message : ResolveError Float → String
  | .unknownType name => s!"Unknown particle type '{name}' in pair parameters"
  | .invalidRadius radius value name1 name2 =>
      s!"Invalid {radius.name} {text value} for pair ({name1}, {name2}): " ++
        "must be finite and non-negative"

/-- A list of names in quotes and brackets. -/
def quotedList (names : List String) : String :=
  "[" ++ ", ".intercalate (names.map fun name => "\"" ++ name ++ "\"") ++ "]"

/-- The message of an error. -/
def Error.message : Error Float → String
  | .invalidType source => s!"Invalid type pair: {source.message}"
  | .unknownQuantity quantity provided =>
      s!"'{quantity}' is not a valid log quantity (provided: {quotedList provided})"
  | .boxTooSmall axis halfLength cutoff =>
      s!"Box half-length {text halfLength} along axis {axis} is smaller than the largest cutoff "
        ++ text cutoff
  | .particleCountMismatch particles listed =>
      s!"Particle system has {particles} particles but the neighbor list covers {listed}"
  | .typeCountMismatch inSystem known =>
      s!"Particle system has {inSystem} types but the potential was built for {known}"
  | .invalidRadius radius value type1 type2 =>
      s!"Invalid {radius.name} {text value} for type pair ({type1}, {type2}): " ++
        "must be finite and non-negative"
  | .unknownType type typeCount => s!"Type id {type} is out of range for {typeCount} types"
  | .invalidNormal normal =>
      s!"Plane normal ({text normal.x}, {text normal.y}, {text normal.z}) cannot be normalized"
  | .parameters source => s!"Failed to load pair parameters: {source.message}"
  | .system source => s!"Invalid particle data: {source.message}"
  | .box source => s!"Invalid simulation box: {source.message}"

end Nonbonded
