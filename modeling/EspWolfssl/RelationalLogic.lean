import EspWolfssl.ProgramLogic

/-!
Two runs side by side. Two programs match when, from related states, they leave
the same way, with related values or the same outcome, in related states. A
relation of the states plays the part that an invariant plays for one run.
-/
namespace EspWolfssl.RelationalLogic

open ProgramLogic

variable {σ τ ε α α' β β' : Type}

/-- Both runs returned, with related values, or both stopped with one outcome. -/
inductive Alike (R : σ → τ → Prop) (V : α → α' → Prop) :
    Except ε α × σ → Except ε α' × τ → Prop
  | ok {a : α} {a' : α'} {s : σ} {t : τ} (hV : V a a') (hR : R s t) :
      Alike R V (.ok a, s) (.ok a', t)
  | error {e : ε} {s : σ} {t : τ} (hR : R s t) : Alike R V (.error e, s) (.error e, t)

/-- From related states the programs run alike. -/
def Matched (R : σ → τ → Prop) (V : α → α' → Prop) (m : Prog σ ε α) (n : Prog τ ε α') : Prop :=
  ∀ s t, R s t → Alike R V (m s) (n t)

namespace Alike

variable {R R' : σ → τ → Prop} {V : α → α' → Prop}

theorem mono {x : Except ε α × σ} {y : Except ε α' × τ} (h : Alike R V x y)
    (hR : ∀ s t, R s t → R' s t) : Alike R' V x y := by
  cases h with
  | ok hV hRst => exact .ok hV (hR _ _ hRst)
  | error hRst => exact .error (hR _ _ hRst)

/-- The states that two runs leave behind. -/
theorem states {x : Except ε α × σ} {y : Except ε α' × τ} (h : Alike R V x y) : R x.2 y.2 := by
  cases h with
  | ok _ hR => exact hR
  | error hR => exact hR

/-- Runs with equal values have equal results. -/
theorem results {x : Except ε α × σ} {y : Except ε α × τ} (h : Alike R Eq x y) : x.1 = y.1 := by
  cases h with
  | ok hV _ => rw [hV]
  | error _ => rfl

end Alike

namespace Matched

variable {R : σ → τ → Prop} {V : α → α' → Prop} {W : β → β' → Prop}

theorem pure {a : α} {a' : α'} (hV : V a a') :
    Matched R V (pure a : Prog σ ε α) (pure a' : Prog τ ε α') :=
  fun _ _ hR => .ok hV hR

theorem stop (e : ε) : Matched R V (Prog.stop e : Prog σ ε α) (Prog.stop e : Prog τ ε α') :=
  fun _ _ hR => .error hR

theorem read {f : σ → α} {g : τ → α'} (hV : ∀ s t, R s t → V (f s) (g t)) :
    Matched R V (Prog.read f : Prog σ ε α) (Prog.read g : Prog τ ε α') :=
  fun s t hR => .ok (hV s t hR) hR

theorem modify {f : σ → σ} {g : τ → τ} (hR : ∀ s t, R s t → R (f s) (g t)) :
    Matched R Eq (Prog.modify f : Prog σ ε Unit) (Prog.modify g : Prog τ ε Unit) :=
  fun s t h => .ok rfl (hR s t h)

theorem stopIf (c : Bool) (e : ε) :
    Matched R Eq (Prog.stopIf c e : Prog σ ε Unit) (Prog.stopIf c e : Prog τ ε Unit) := by
  cases c with
  | false => exact pure rfl
  | true => exact stop e

theorem liftExcept (r : Except ε α) :
    Matched R Eq (Prog.liftExcept r : Prog σ ε α) (Prog.liftExcept r : Prog τ ε α) := by
  cases r with
  | ok a => exact fun _ _ hR => .ok rfl hR
  | error e => exact fun _ _ hR => .error hR

/-- The second parts need to match on related values only. -/
theorem bind {m : Prog σ ε α} {n : Prog τ ε α'} {f : α → Prog σ ε β} {g : α' → Prog τ ε β'}
    (hm : Matched R V m n) (hf : ∀ a a', V a a' → Matched R W (f a) (g a')) :
    Matched R W (m >>= f) (n >>= g) := by
  intro s t hR
  have h := hm s t hR
  rcases hms : m s with ⟨r, s'⟩
  rcases hnt : n t with ⟨r', t'⟩
  rw [hms, hnt] at h
  cases h with
  | ok hV hR' =>
    rw [Prog.bind_of_ok hms, Prog.bind_of_ok hnt]
    exact hf _ _ hV s' t' hR'
  | error hR' =>
    rw [Prog.bind_of_error hms, Prog.bind_of_error hnt]
    exact .error hR'

/-- A first part that returns equal values. -/
theorem bind_eq {m : Prog σ ε α} {n : Prog τ ε α} {f : α → Prog σ ε β} {g : α → Prog τ ε β'}
    (hm : Matched R Eq m n) (hf : ∀ a, Matched R W (f a) (g a)) :
    Matched R W (m >>= f) (n >>= g) :=
  hm.bind fun a _ ha => ha ▸ hf a

theorem ite {c : Prop} [Decidable c] {m m' : Prog σ ε α} {n n' : Prog τ ε α'}
    (hm : Matched R V m n) (hm' : Matched R V m' n') :
    Matched R V (if c then m else m') (if c then n else n') := by
  split
  · exact hm
  · exact hm'

/-- A run that returns is matched by one that returns. -/
theorem of_ok {m : Prog σ ε α} {n : Prog τ ε α'} {s s' : σ} {t : τ} {a : α}
    (h : Matched R V m n) (hR : R s t) (hm : m s = (.ok a, s')) :
    ∃ a' t', n t = (.ok a', t') ∧ V a a' ∧ R s' t' := by
  have halike := h s t hR
  rcases hnt : n t with ⟨r', t'⟩
  rw [hm, hnt] at halike
  cases halike with
  | ok hV hR' => exact ⟨_, t', rfl, hV, hR'⟩

end Matched
end EspWolfssl.RelationalLogic
