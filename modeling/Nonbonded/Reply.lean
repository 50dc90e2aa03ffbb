/-!
# Faults and replies

Two ways in which a call can fail are kept apart.  A `Fault` is a misuse that
no error value describes: an index past the end, two buffers of different
sizes, a count that leaves 64 bits.  A computation that can fault lives in
`Except Fault`, and nothing is left behind by one that does.

A `Reply` is what an operation on a state gives when it does not fault: an
answer, which may be an error value, together with the state the operation
leaves.  Refusing a request and leaving the state alone are thus two separate
facts about one operation.
-/

namespace Nonbonded

universe u v w x

/-- A misuse that no error value describes. -/
inductive Fault where
  /-- Entry `index` of an array of `size` entries was asked for. -/
  | outOfRange (index size : Nat)
  /-- Two buffers that have to agree in size do not. -/
  | sizeMismatch (left right : Nat)
  /-- An intermediate count is negative or does not fit in 64 bits. -/
  | overflow
  deriving DecidableEq

/-- The entry at an index, which faults past the end. -/
def entryAt {β : Type u} (entries : Array β) (index : Nat) : Except Fault β :=
  match entries[index]? with
  | some entry => .ok entry
  | none => .error (.outOfRange index entries.size)

theorem entryAt_eq_ok_iff {β : Type u} {entries : Array β} {index : Nat} {entry : β} :
    entryAt entries index = .ok entry ↔ entries[index]? = some entry := by
  unfold entryAt
  cases entries[index]? <;> simp

theorem entryAt_of_lt {β : Type u} {entries : Array β} {index : Nat}
    (inRange : index < entries.size) :
    entryAt entries index = .ok entries[index] := by
  simp [entryAt, inRange]

/-- An answer, which may be an error, and the state left behind. -/
structure Reply (ε : Type u) (β : Type v) (σ : Type w) where
  answer : Except ε β
  state : σ

namespace Reply

variable {ε : Type u} {β : Type v} {γ : Type x} {σ : Type w}

/-- Answer with a value. -/
def done (value : β) (state : σ) : Reply ε β σ :=
  ⟨.ok value, state⟩

/-- Answer with an error. -/
def refuse (error : ε) (state : σ) : Reply ε β σ :=
  ⟨.error error, state⟩

@[simp]
theorem answer_done (value : β) (state : σ) :
    (done value state : Reply ε β σ).answer = .ok value :=
  rfl

@[simp]
theorem state_done (value : β) (state : σ) :
    (done value state : Reply ε β σ).state = state :=
  rfl

@[simp]
theorem answer_refuse (error : ε) (state : σ) :
    (refuse error state : Reply ε β σ).answer = .error error :=
  rfl

@[simp]
theorem state_refuse (error : ε) (state : σ) :
    (refuse error state : Reply ε β σ).state = state :=
  rfl

/-- Continue from the state left behind; an error ends the sequence with that
state. -/
def andThen (first : Reply ε β σ) (next : β → σ → Reply ε γ σ) : Reply ε γ σ :=
  match first.answer with
  | .ok value => next value first.state
  | .error error => refuse error first.state

@[simp]
theorem andThen_done (value : β) (state : σ) (next : β → σ → Reply ε γ σ) :
    (done value state).andThen next = next value state :=
  rfl

@[simp]
theorem andThen_refuse (error : ε) (state : σ) (next : β → σ → Reply ε γ σ) :
    (refuse error state : Reply ε β σ).andThen next = refuse error state :=
  rfl

/-- Change the value of an answer, and leave errors and the state as they
are. -/
def map (f : β → γ) (reply : Reply ε β σ) : Reply ε γ σ :=
  ⟨reply.answer.map f, reply.state⟩

@[simp]
theorem map_done (f : β → γ) (value : β) (state : σ) :
    (done value state : Reply ε β σ).map f = done (f value) state :=
  rfl

@[simp]
theorem map_refuse (f : β → γ) (error : ε) (state : σ) :
    (refuse error state : Reply ε β σ).map f = refuse error state :=
  rfl

@[simp]
theorem state_map (f : β → γ) (reply : Reply ε β σ) : (reply.map f).state = reply.state :=
  rfl

end Reply

end Nonbonded
