import Mathlib.Data.List.Basic
import Mathlib.Tactic.TypeStar

/-!
What an observer learns from a machine that others use too. The machine answers
each input or cannot take it. When states that look alike to the observer answer
its inputs alike, and the inputs of the others do not change how a state looks,
the inputs of the others can be deleted from a run.
-/
namespace EspWolfssl.Noninterference

variable {σ α ο : Type*}

/-- The answers of a run, each beside its input, and the state it ends in. -/
def answers (react : σ → α → Option (ο × σ)) : σ → List α → Option (List (α × ο) × σ)
  | s, [] => some ([], s)
  | s, a :: rest =>
      match react s a with
      | none => none
      | some (o, s') => (answers react s' rest).map fun run => ((a, o) :: run.1, run.2)

/-- `R` relates states that the observer of the inputs in `low` cannot tell apart,
as long as all inputs are allowed. -/
structure Unwinding (react : σ → α → Option (ο × σ)) (low : α → Bool) (allowed : α → Prop)
    (R : σ → σ → Prop) : Prop where
  seen : ∀ {s t s' : σ} {a : α} {o : ο}, R s t → allowed a → low a = true →
    react s a = some (o, s') → ∃ t', react t a = some (o, t') ∧ R s' t'
  unseen : ∀ {s t s' : σ} {a : α} {o : ο}, R s t → allowed a → low a = false →
    react s a = some (o, s') → R s' t

section Answers
variable {react : σ → α → Option (ο × σ)} {s s' : σ} {inputs : List α}

theorem answers_cons_eq_some {a : α} {given : List (α × ο)} :
    answers react s (a :: inputs) = some (given, s') ↔
      ∃ o t rest, react s a = some (o, t) ∧ answers react t inputs = some (rest, s') ∧
        given = (a, o) :: rest := by
  simp only [answers]
  cases hreact : react s a with
  | none => simp
  | some reply =>
    obtain ⟨o, t⟩ := reply
    simp only [Option.map_eq_some_iff, Prod.mk.injEq, Prod.exists]
    constructor
    · rintro ⟨rest, u, hrest, rfl, rfl⟩
      exact ⟨o, t, rest, rfl, hrest, rfl⟩
    · rintro ⟨o', t', rest, heq, hrest, rfl⟩
      cases heq
      exact ⟨rest, s', hrest, rfl, rfl⟩

end Answers

namespace Unwinding

variable {react : σ → α → Option (ο × σ)} {low : α → Bool} {allowed : α → Prop}
  {R : σ → σ → Prop} {s t s' : σ} {inputs : List α} {given : List (α × ο)}

/-- The run without the inputs that the observer does not see gives the same
answers to the others. -/
theorem purge (h : Unwinding react low allowed R) (hR : R s t)
    (hallowed : ∀ a ∈ inputs, allowed a) (hrun : answers react s inputs = some (given, s')) :
    ∃ t', answers react t (inputs.filter low) =
        some (given.filter fun entry => low entry.1, t') ∧ R s' t' := by
  induction inputs generalizing s t given with
  | nil =>
    cases hrun
    exact ⟨t, rfl, hR⟩
  | cons a rest ih =>
    obtain ⟨o, u, more, hreact, hrest, rfl⟩ := answers_cons_eq_some.mp hrun
    have ha := hallowed a List.mem_cons_self
    have hmore : ∀ a' ∈ rest, allowed a' := fun a' h' => hallowed a' (List.mem_cons_of_mem a h')
    cases hlow : low a with
    | true =>
      obtain ⟨t₁, hreact', hR₁⟩ := h.seen hR ha hlow hreact
      obtain ⟨t', hrest', hR'⟩ := ih hR₁ hmore hrest
      refine ⟨t', ?_, hR'⟩
      simp only [List.filter_cons, hlow, if_true]
      exact answers_cons_eq_some.mpr ⟨o, t₁, _, hreact', hrest', rfl⟩
    | false =>
      obtain ⟨t', hrest', hR'⟩ := ih (h.unseen hR ha hlow hreact) hmore hrest
      simp only [List.filter_cons, hlow, Bool.false_eq_true, if_false]
      exact ⟨t', hrest', hR'⟩

end Unwinding
end EspWolfssl.Noninterference
