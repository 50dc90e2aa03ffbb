import Mathlib.Data.List.Forall2
import Nonbonded.Reply

/-!
# Computations without a fault

When a computation in `Except` succeeds.  A sequence of two succeeds exactly
when both parts do, and otherwise ends with the error of the first part that
fails.  A left fold succeeds from every state that an invariant describes,
provided each of its steps succeeds there and keeps the invariant.  When
success is known already, it is enough that each step keeps it, and success
carries over to related states.

Two computations end alike when they fault together and otherwise come to
related results.  Two folds end alike, or agree, when their steps do, and a
fold passes over items that change nothing.

A list is mapped without an error exactly when each of its items is, and
otherwise to the error of the first item that has one.
-/

namespace Nonbonded

universe u v

variable {ε : Type u} {β γ : Type v}

/-- A sequence succeeds exactly when its first part does, and its second part
from there. -/
theorem bind_eq_ok_iff {first : Except ε β} {next : β → Except ε γ} {result : γ} :
    first >>= next = .ok result ↔ ∃ value, first = .ok value ∧ next value = .ok result := by
  cases first <;> simp [bind, Except.bind]

/-- A sequence ends with an error exactly when its first part does, or its
second part from there. -/
theorem bind_eq_error_iff {first : Except ε β} {next : β → Except ε γ} {error : ε} :
    first >>= next = .error error ↔
      first = .error error ∨ ∃ value, first = .ok value ∧ next value = .error error := by
  cases first <;> simp [bind, Except.bind]

/-- Mapping a result changes nothing about success. -/
theorem map_eq_ok_iff {first : Except ε β} {f : β → γ} {result : γ} :
    first.map f = .ok result ↔ ∃ value, first = .ok value ∧ f value = result := by
  cases first <;> simp [Except.map]

/-- A reply that is refused after its value was changed was refused before. -/
theorem eq_refuse_of_map {φ : Type u} {σ : Type v} {first : Except φ (Reply ε β σ)} {f : β → γ}
    {error : ε} {state : σ} (mapped : first.map (·.map f) = .ok (.refuse error state)) :
    first = .ok (.refuse error state) := by
  rcases map_eq_ok_iff.1 mapped with ⟨⟨answer, left⟩, rfl, refused⟩
  cases answer with
  | error reason =>
      cases refused
      rfl
  | ok _ => cases congrArg Reply.answer refused

theorem bind_ok (value : β) (next : β → Except ε γ) : (Except.ok value >>= next) = next value :=
  rfl

/-- A fold whose steps succeed and keep an invariant succeeds, in a state with
the invariant. -/
theorem exists_foldlM_eq_ok (Inv : β → Prop) {step : β → γ → Except ε β} {items : List γ}
    (keeps : ∀ state, Inv state → ∀ item ∈ items, ∃ next, step state item = .ok next ∧ Inv next)
    {start : β} (initially : Inv start) :
    ∃ final, items.foldlM step start = .ok final ∧ Inv final := by
  induction items generalizing start with
  | nil => exact ⟨start, rfl, initially⟩
  | cons first rest inductionHypothesis =>
      obtain ⟨next, stepped, kept⟩ := keeps start initially first List.mem_cons_self
      rw [List.foldlM_cons, stepped, bind_ok]
      apply inductionHypothesis _ kept
      intro state holds item member
      exact keeps state holds item (List.mem_cons_of_mem first member)

/-- What every step of a fold keeps, a fold that succeeds keeps. -/
theorem foldlM_keeps (Inv : β → Prop) {step : β → γ → Except ε β}
    (keeps : ∀ state item next, Inv state → step state item = .ok next → Inv next)
    {items : List γ} {start final : β} (initially : Inv start)
    (folded : items.foldlM step start = .ok final) : Inv final := by
  induction items generalizing start with
  | nil =>
      cases folded
      exact initially
  | cons first rest inductionHypothesis =>
      rw [List.foldlM_cons] at folded
      rcases bind_eq_ok_iff.1 folded with ⟨next, stepped, folded⟩
      exact inductionHypothesis (keeps start first next initially stepped) folded

/-- A fold that succeeds has taken each of its items, from some state. -/
theorem exists_step_of_foldlM {step : β → γ → Except ε β} {items : List γ} {item : γ}
    (member : item ∈ items) {start final : β} (folded : items.foldlM step start = .ok final) :
    ∃ state next, step state item = .ok next := by
  induction items generalizing start with
  | nil => cases member
  | cons first rest inductionHypothesis =>
      rw [List.foldlM_cons] at folded
      rcases bind_eq_ok_iff.1 folded with ⟨next, stepped, folded⟩
      rcases List.mem_cons.1 member with rfl | later
      · exact ⟨start, next, stepped⟩
      · exact inductionHypothesis later folded

/-- A fold that succeeds succeeds from a related state too, when each of its
steps does and keeps the relation. -/
theorem exists_foldlM_of_related (Rel : β → β → Prop) {step : β → γ → Except ε β}
    (keeps : ∀ left right item next, Rel left right → step left item = .ok next →
      ∃ other, step right item = .ok other ∧ Rel next other)
    {items : List γ} {start other final : β} (related : Rel start other)
    (folded : items.foldlM step start = .ok final) :
    ∃ result, items.foldlM step other = .ok result ∧ Rel final result := by
  induction items generalizing start other with
  | nil =>
      cases folded
      exact ⟨other, rfl, related⟩
  | cons first rest inductionHypothesis =>
      rw [List.foldlM_cons] at folded
      rcases bind_eq_ok_iff.1 folded with ⟨next, stepped, folded⟩
      rcases keeps start other first next related stepped with ⟨nextOther, steppedOther, kept⟩
      rw [List.foldlM_cons, steppedOther, bind_ok]
      exact inductionHypothesis kept folded

/-- Two computations end alike: with the same fault, or with related
results. -/
inductive EndsAlike (Rel : β → γ → Prop) : Except ε β → Except ε γ → Prop
  | fault (fault : ε) : EndsAlike Rel (.error fault) (.error fault)
  | done {left : β} {right : γ} (related : Rel left right) : EndsAlike Rel (.ok left) (.ok right)

namespace EndsAlike

/-- Sequences end alike when their first parts do, and their second parts from
related values. -/
theorem bind {β' γ' : Type v} {Rel : β → γ → Prop} {Rel' : β' → γ' → Prop} {first : Except ε β}
    {other : Except ε γ} {next : β → Except ε β'} {nextOther : γ → Except ε γ'}
    (alike : EndsAlike Rel first other)
    (rest : ∀ left right, Rel left right → EndsAlike Rel' (next left) (nextOther right)) :
    EndsAlike Rel' (first >>= next) (other >>= nextOther) := by
  cases alike with
  | fault fault => exact .fault fault
  | done related => exact rest _ _ related

/-- Sequences with the same first part end alike when their second parts do
from every value. -/
theorem bind_same {β' γ' : Type v} {Rel' : β' → γ' → Prop} {first : Except ε β}
    {next : β → Except ε β'} {nextOther : β → Except ε γ'}
    (rest : ∀ value, EndsAlike Rel' (next value) (nextOther value)) :
    EndsAlike Rel' (first >>= next) (first >>= nextOther) := by
  cases first with
  | error fault => exact .fault fault
  | ok value => exact rest value

theorem of_eq {Rel : β → β → Prop} (refl : ∀ value, Rel value value) {first other : Except ε β}
    (same : first = other) : EndsAlike Rel first other := by
  subst same
  cases first with
  | error fault => exact .fault fault
  | ok value => exact .done (refl value)

theorem exists_of_ok {Rel : β → γ → Prop} {left : β} {other : Except ε γ}
    (alike : EndsAlike Rel (.ok left) other) : ∃ right, other = .ok right ∧ Rel left right := by
  cases alike with
  | done related => exact ⟨_, rfl, related⟩

/-- Folds over the same items end alike when their steps do, from related
states. -/
theorem foldlM {β' γ' : Type v} {Rel : β → β' → Prop} {step : β → γ' → Except ε β}
    {stepOther : β' → γ' → Except ε β'} {items : List γ'}
    (steps : ∀ item ∈ items, ∀ left right, Rel left right →
      EndsAlike Rel (step left item) (stepOther right item))
    {start : β} {startOther : β'} (related : Rel start startOther) :
    EndsAlike Rel (items.foldlM step start) (items.foldlM stepOther startOther) := by
  induction items generalizing start startOther with
  | nil => exact .done related
  | cons first rest inductionHypothesis =>
      rw [List.foldlM_cons, List.foldlM_cons]
      apply (steps first List.mem_cons_self _ _ related).bind
      intro left right related
      exact inductionHypothesis (fun item member => steps item (List.mem_cons_of_mem first member))
        related

end EndsAlike

/-- Folds whose steps do the same at every item do the same. -/
theorem foldlM_congr {left right : β → γ → Except ε β} {items : List γ}
    (same : ∀ item ∈ items, ∀ state, left state item = right state item) (start : β) :
    items.foldlM left start = items.foldlM right start := by
  induction items generalizing start with
  | nil => rfl
  | cons first rest inductionHypothesis =>
      rw [List.foldlM_cons, List.foldlM_cons, same first List.mem_cons_self]
      congr 1
      funext next
      exact inductionHypothesis (fun item member => same item (List.mem_cons_of_mem first member))
        next

/-- Items that change nothing may be left out. -/
theorem foldlM_filter {step : β → γ → Except ε β} {keep : γ → Bool}
    (idle : ∀ item, keep item = false → ∀ state, step state item = .ok state) (items : List γ)
    (start : β) : (items.filter keep).foldlM step start = items.foldlM step start := by
  induction items generalizing start with
  | nil => rfl
  | cons first rest inductionHypothesis =>
      cases kept : keep first with
      | true =>
          rw [List.filter_cons_of_pos kept, List.foldlM_cons, List.foldlM_cons]
          congr 1
          funext next
          exact inductionHypothesis next
      | false =>
          rw [List.filter_cons_of_neg (by simp [kept]), List.foldlM_cons, idle first kept, bind_ok]
          exact inductionHypothesis start

/-! ## Lists -/

/-- A list is mapped without an error exactly when each item is, one by one. -/
theorem mapM_eq_ok_iff {ε β γ : Type} {f : β → Except ε γ} {items : List β} {results : List γ} :
    items.mapM f = .ok results ↔
      List.Forall₂ (fun item result => f item = .ok result) items results := by
  induction items generalizing results with
  | nil =>
      rw [List.mapM_nil, List.forall₂_nil_left_iff]
      constructor
      · intro done
        cases done
        rfl
      · rintro rfl
        rfl
  | cons first rest inductionHypothesis =>
      rw [List.mapM_cons, List.forall₂_cons_left_iff]
      simp only [bind_eq_ok_iff, inductionHypothesis]
      constructor
      · rintro ⟨result, mapped, others, mappedRest, finished⟩
        cases finished
        exact ⟨result, others, mapped, mappedRest, rfl⟩
      · rintro ⟨result, others, mapped, mappedRest, rfl⟩
        exact ⟨result, mapped, others, mappedRest, rfl⟩

/-- A list is mapped to the error of the first item that has one. -/
theorem mapM_eq_error_iff {ε β γ : Type} {f : β → Except ε γ} {items : List β} {error : ε} :
    items.mapM f = .error error ↔ ∃ before item after, items = before ++ item :: after ∧
      (∀ earlier ∈ before, ∃ result, f earlier = .ok result) ∧ f item = .error error := by
  induction items with
  | nil =>
      rw [List.mapM_nil]
      constructor
      · nofun
      · rintro ⟨before, item, after, split, -⟩
        simp at split
  | cons first rest inductionHypothesis =>
      have passed : ∀ result, (do
          let results ← rest.mapM f
          pure (result :: results)) = Except.error error ↔ rest.mapM f = .error error := by
        intro result
        simp [bind_eq_error_iff, pure, Except.pure]
      rw [List.mapM_cons, bind_eq_error_iff]
      simp only [passed, inductionHypothesis]
      constructor
      · rintro (refused | ⟨result, mapped, before, item, after, rfl, earlier, refused⟩)
        · exact ⟨[], first, rest, rfl, by simp, refused⟩
        · exact ⟨first :: before, item, after, rfl,
            List.forall_mem_cons.2 ⟨⟨result, mapped⟩, earlier⟩, refused⟩
      · rintro ⟨_ | ⟨_, before⟩, item, after, split, earlier, refused⟩ <;> cases split
        · exact .inl refused
        · rcases List.forall_mem_cons.1 earlier with ⟨⟨result, mapped⟩, others⟩
          exact .inr ⟨result, mapped, before, item, after, rfl, others, refused⟩

theorem exists_mapM_iff {ε β γ : Type} {f : β → Except ε γ} {items : List β} :
    (∃ results, items.mapM f = .ok results) ↔ ∀ item ∈ items, ∃ result, f item = .ok result := by
  constructor
  · rintro ⟨results, mapped⟩ item member
    rcases List.mem_iff_getElem.1 member with ⟨k, inRange, rfl⟩
    have each := mapM_eq_ok_iff.1 mapped
    exact ⟨_, each.get inRange (each.length_eq ▸ inRange)⟩
  · intro each
    cases mapped : items.mapM f with
    | ok results => exact ⟨results, rfl⟩
    | error error =>
        rcases mapM_eq_error_iff.1 mapped with ⟨before, item, after, split, -, failed⟩
        rcases each item (by simp [split]) with ⟨result, succeeded⟩
        cases succeeded.symm.trans failed

/-- Mapping the places of a list is mapping its items, when each item is mapped
as its place is. -/
theorem mapM_range_length {ε β γ : Type} {atPlace : Nat → Except ε γ} {f : β → Except ε γ}
    {items : List β} (same : ∀ place item, items[place]? = some item → atPlace place = f item) :
    (List.range items.length).mapM atPlace = items.mapM f := by
  induction items generalizing atPlace with
  | nil => rfl
  | cons first rest inductionHypothesis =>
      have others : (List.range rest.length).mapM (atPlace ∘ Nat.succ) = rest.mapM f :=
        inductionHypothesis fun place item found => same (place + 1) item found
      rw [List.length_cons, List.range_succ_eq_map, List.mapM_cons, List.mapM_map, List.mapM_cons,
        same 0 first rfl]
      exact congrArg (f first >>= ·) (funext fun result => by rw [others])

end Nonbonded
