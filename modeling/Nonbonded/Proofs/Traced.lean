import Nonbonded.Proofs.Faults

/-!
# Computations that keep a record

A traced computation may fault, and records events on its way.  What it
recorded is kept when it faults.  Forgetting the record leaves a plain
computation: sequences and folds of traced computations come to what the same
sequences and folds of the plain ones come to.

A property of records that holds of the empty record and of two records one
after the other holds of everything that a sequence or a fold records, provided
it holds of what the parts record.  And a fold that does not fault has recorded
what each of its steps records.
-/

namespace Nonbonded

/-- A computation with the events it recorded, the latest last. -/
structure Traced (Event : Type) (β : Type) where
  record : List Event
  outcome : Except Fault β

namespace Traced

variable {Event β γ : Type}

instance : Monad (Traced Event) where
  pure value := ⟨[], .ok value⟩
  bind first next :=
    match first.outcome with
    | .ok value => ⟨first.record ++ (next value).record, (next value).outcome⟩
    | .error fault => ⟨first.record, .error fault⟩

/-- A plain computation records nothing. -/
instance : MonadLift (Except Fault) (Traced Event) where
  monadLift computation := ⟨[], computation⟩

@[simp]
theorem outcome_pure (value : β) : (pure value : Traced Event β).outcome = .ok value :=
  rfl

@[simp]
theorem record_pure (value : β) : (pure value : Traced Event β).record = [] :=
  rfl

@[simp]
theorem outcome_lift (computation : Except Fault β) :
    (liftM computation : Traced Event β).outcome = computation :=
  rfl

@[simp]
theorem record_lift (computation : Except Fault β) :
    (liftM computation : Traced Event β).record = [] :=
  rfl

@[simp]
theorem outcome_bind (first : Traced Event β) (next : β → Traced Event γ) :
    (first >>= next).outcome = first.outcome >>= fun value => (next value).outcome := by
  rcases first with ⟨record, fault | value⟩ <;> rfl

/-- A sequence whose first part comes to a value has recorded both parts. -/
theorem record_bind {first : Traced Event β} {value : β} (done : first.outcome = .ok value)
    (next : β → Traced Event γ) :
    (first >>= next).record = first.record ++ (next value).record := by
  rcases first with ⟨record, outcome⟩
  cases done
  rfl

theorem outcome_foldlM {step : β → γ → Traced Event β} {plain : β → γ → Except Fault β}
    (same : ∀ state item, (step state item).outcome = plain state item) (items : List γ)
    (start : β) :
    (items.foldlM step start).outcome = items.foldlM plain start := by
  induction items generalizing start with
  | nil => rfl
  | cons first rest inductionHypothesis =>
      rw [List.foldlM_cons, List.foldlM_cons, outcome_bind, same]
      simp only [inductionHypothesis]

/-! ## What is recorded -/

/-- A property of records that needs to be looked at only where something is
recorded. -/
structure Additive (P : List Event → Prop) : Prop where
  nil : P []
  append : ∀ {earlier later}, P earlier → P later → P (earlier ++ later)

namespace Additive

variable {P : List Event → Prop} (additive : Additive P)

include additive

/-- A sequence: the second part counts from the values that the first can come
to. -/
theorem bind {first : Traced Event β} {next : β → Traced Event γ} (earlier : P first.record)
    (later : ∀ value, first.outcome = .ok value → P (next value).record) :
    P (first >>= next).record := by
  rcases first with ⟨record, fault | value⟩
  · exact earlier
  · exact additive.append earlier (later value rfl)

/-- A plain computation and what is done with its value. -/
theorem lift_bind {first : Except Fault β} {next : β → Traced Event γ}
    (later : ∀ value, first = .ok value → P (next value).record) :
    P ((liftM first : Traced Event β) >>= next).record :=
  additive.bind additive.nil later

theorem foldlM {step : β → γ → Traced Event β} (steps : ∀ state item, P (step state item).record)
    (items : List γ) (start : β) : P (items.foldlM step start).record := by
  induction items generalizing start with
  | nil => exact additive.nil
  | cons first rest inductionHypothesis =>
      rw [List.foldlM_cons]
      exact additive.bind (steps start first) fun next _ => inductionHypothesis next

end Additive

/-- A fold that does not fault has taken each of its items from some state, and
recorded that step. -/
theorem infix_foldlM {step : β → γ → Traced Event β} {items : List γ} {item : γ}
    (member : item ∈ items) {start final : β}
    (folded : (items.foldlM step start).outcome = .ok final) :
    ∃ state next, (step state item).outcome = .ok next ∧
      (step state item).record <:+: (items.foldlM step start).record := by
  induction items generalizing start with
  | nil => cases member
  | cons first rest inductionHypothesis =>
      rw [List.foldlM_cons, outcome_bind] at folded
      rcases bind_eq_ok_iff.1 folded with ⟨next, stepped, folded⟩
      rw [List.foldlM_cons, record_bind stepped]
      rcases List.mem_cons.1 member with rfl | later
      · exact ⟨start, next, stepped, (List.prefix_append _ _).isInfix⟩
      · rcases inductionHypothesis later folded with ⟨state, final, stepped, recorded⟩
        exact ⟨state, final, stepped, recorded.trans (List.suffix_append _ _).isInfix⟩

end Traced

end Nonbonded
