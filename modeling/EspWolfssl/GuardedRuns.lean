import Mathlib.Tactic.TypeStar

/-!
Runs of a partial step function under a condition on each step. A condition
relates the state before a step to the step's input; the condition `Free` puts
no restriction on the run. An invariant is proved once, by induction on runs.
-/
namespace EspWolfssl.GuardedRuns

variable {σ α : Type*}

/-- Runs in which every step meets the condition `P`. -/
inductive Run (step : σ → α → Option σ) (P : σ → α → Prop) : σ → List α → σ → Prop
  | nil (s : σ) : Run step P s [] s
  | snoc {s s' s'' : σ} {inputs : List α} {a : α} :
      Run step P s inputs s' → P s' a → step s' a = some s'' →
      Run step P s (inputs ++ [a]) s''

/-- No restriction on the steps. -/
def Free (_ : σ) (_ : α) : Prop := True

namespace Run

variable {step : σ → α → Option σ} {P Q : σ → α → Prop} {s s' s'' : σ} {inputs more : List α}

theorem invariant {I : σ → Prop} (h : Run step P s inputs s') (hinit : I s)
    (hstep : ∀ t a t', I t → P t a → step t a = some t' → I t') : I s' := by
  induction h with
  | nil => exact hinit
  | snoc hrun hP hs ih => exact hstep _ _ _ ih hP hs

theorem mono (h : Run step P s inputs s') (hPQ : ∀ t a, P t a → Q t a) :
    Run step Q s inputs s' := by
  induction h with
  | nil => exact nil s
  | snoc hrun hP hs ih => exact snoc ih (hPQ _ _ hP) hs

theorem free (h : Run step P s inputs s') : Run step Free s inputs s' :=
  h.mono fun _ _ _ => trivial

theorem trans (h : Run step P s inputs s') (h' : Run step P s' more s'') :
    Run step P s (inputs ++ more) s'' := by
  induction h' with
  | nil => simpa using h
  | snoc hrun hP hs ih =>
    rw [← List.append_assoc]
    exact snoc ih hP hs

theorem single {a : α} (hP : P s a) (hs : step s a = some s') : Run step P s [a] s' :=
  snoc (nil s) hP hs

theorem cons {a : α} (hP : P s a) (hs : step s a = some s') (h : Run step P s' inputs s'') :
    Run step P s (a :: inputs) s'' :=
  (single hP hs).trans h

/-- An unrestricted run computes its last state. -/
theorem free_iff : Run step Free s inputs s' ↔ inputs.foldlM step s = some s' := by
  constructor
  · intro h
    induction h with
    | nil => rfl
    | snoc hrun _ hs ih => simpa [List.foldlM_append, ih] using hs
  · intro h
    induction inputs generalizing s with
    | nil =>
      cases h
      exact nil _
    | cons a rest ih =>
      rw [List.foldlM_cons] at h
      obtain ⟨t, hs, hrest⟩ := Option.bind_eq_some_iff.mp h
      exact cons trivial hs (ih hrest)

/-- The last step of a run, taken apart. -/
theorem snoc_inv {a : α} (h : Run step P s (inputs ++ [a]) s'') :
    ∃ s', Run step P s inputs s' ∧ P s' a ∧ step s' a = some s'' := by
  generalize hwhole : inputs ++ [a] = whole at h
  cases h with
  | nil => simp at hwhole
  | @snoc t _ pre b hrun hP hs =>
    obtain ⟨hpre, hab⟩ := List.append_inj' hwhole rfl
    obtain rfl : a = b := List.head_eq_of_cons_eq hab
    subst hpre
    exact ⟨t, hrun, hP, hs⟩

/-- A run is determined by its inputs. -/
theorem determ (h : Run step P s inputs s') (h' : Run step Q s inputs s'') : s' = s'' := by
  induction h generalizing s'' with
  | nil =>
    generalize hwhole : ([] : List α) = whole at h'
    cases h' with
    | nil => rfl
    | snoc => simp at hwhole
  | snoc hrun hP hs ih =>
    obtain ⟨t, hrun', _, hs'⟩ := h'.snoc_inv
    obtain rfl := ih hrun'
    exact Option.some.inj (hs.symm.trans hs')

/-- A property that a step keeps exactly when the step meets the condition
holds at the end of a run exactly when the whole run meets it. The invariant
`J` is what the equivalence of one step may rest on. -/
theorem iff_of_step {I J : σ → Prop} (h : Run step Free s inputs s') (hJ : J s) (hI : I s)
    (hkeep : ∀ t a t', J t → step t a = some t' → J t')
    (hstep : ∀ t a t', J t → step t a = some t' → (I t' ↔ I t ∧ P t a)) :
    I s' ↔ Run step P s inputs s' := by
  induction h with
  | nil => exact ⟨fun _ => nil s, fun _ => hI⟩
  | snoc hrun _ hs ih =>
    have hJt := hrun.invariant hJ fun t a t' ht _ => hkeep t a t' ht
    rw [hstep _ _ _ hJt hs, ih]
    constructor
    · rintro ⟨hgood, hP⟩
      exact snoc hgood hP hs
    · intro hgood
      obtain ⟨u, hpre, hP, _⟩ := hgood.snoc_inv
      obtain rfl := hpre.determ hrun
      exact ⟨hpre, hP⟩

end Run
end EspWolfssl.GuardedRuns
