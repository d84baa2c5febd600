import Mathlib.Tactic.TypeStar

/-!
Stateful programs that may stop early, and rules of pre- and postconditions
for them. A program returns a value or stops with an outcome; the state it has
reached survives in both cases, as it does in a C function with early returns.
An assertion pair describes the two ways out separately.
-/
namespace EspWolfssl.ProgramLogic

/-- A program over states `σ` that returns an `α` or stops with an `ε`. -/
def Prog (σ ε α : Type) := σ → Except ε α × σ

namespace Prog

variable {σ ε α β : Type}

protected def pure (a : α) : Prog σ ε α := fun s => (.ok a, s)

protected def bind (m : Prog σ ε α) (f : α → Prog σ ε β) : Prog σ ε β := fun s =>
  match m s with
  | (.ok a, s') => f a s'
  | (.error e, s') => (.error e, s')

instance : Monad (Prog σ ε) where
  pure := Prog.pure
  bind := Prog.bind

/-- Stop with an outcome: the early return of the source. -/
def stop (e : ε) : Prog σ ε α := fun s => (.error e, s)

def read (f : σ → α) : Prog σ ε α := fun s => (.ok (f s), s)

def modify (f : σ → σ) : Prog σ ε Unit := fun s => (.ok (), f s)

/-- `if (c) return e;` -/
def stopIf (c : Bool) (e : ε) : Prog σ ε Unit := if c then stop e else pure ()

/-- A total check whose failure stops the program. -/
def liftExcept (r : Except ε α) : Prog σ ε α := fun s => (r, s)

@[simp] theorem pure_apply (a : α) (s : σ) : (pure a : Prog σ ε α) s = (.ok a, s) := rfl

@[simp] theorem stop_apply (e : ε) (s : σ) : (stop e : Prog σ ε α) s = (.error e, s) := rfl

@[simp] theorem read_apply (f : σ → α) (s : σ) :
    (read f : Prog σ ε α) s = (.ok (f s), s) := rfl

@[simp] theorem modify_apply (f : σ → σ) (s : σ) :
    (modify f : Prog σ ε Unit) s = (.ok (), f s) := rfl

@[simp] theorem liftExcept_apply (r : Except ε α) (s : σ) :
    (liftExcept r : Prog σ ε α) s = (r, s) := rfl

theorem stopIf_true (e : ε) : (stopIf true e : Prog σ ε Unit) = stop e := rfl

theorem stopIf_false (e : ε) : (stopIf false e : Prog σ ε Unit) = pure () := rfl

theorem bind_of_ok {m : Prog σ ε α} {f : α → Prog σ ε β} {s s' : σ} {a : α}
    (h : m s = (.ok a, s')) : (m >>= f) s = f a s' := by
  change Prog.bind m f s = _
  simp only [Prog.bind, h]

theorem bind_of_error {m : Prog σ ε α} {f : α → Prog σ ε β} {s s' : σ} {e : ε}
    (h : m s = (.error e, s')) : (m >>= f) s = (.error e, s') := by
  change Prog.bind m f s = _
  simp only [Prog.bind, h]

/-- A sequence returns exactly when both of its parts do. -/
theorem bind_ok_iff {m : Prog σ ε α} {f : α → Prog σ ε β} {s s'' : σ} {b : β} :
    (m >>= f) s = (.ok b, s'') ↔
      ∃ a s', m s = (.ok a, s') ∧ f a s' = (.ok b, s'') := by
  rcases hm : m s with ⟨r, s'⟩
  cases r with
  | ok a =>
    rw [bind_of_ok hm]
    constructor
    · intro h
      exact ⟨a, s', rfl, h⟩
    · rintro ⟨a', t, heq, h⟩
      cases heq
      exact h
  | error e =>
    rw [bind_of_error hm]
    constructor
    · intro h
      cases h
    · rintro ⟨a', t, heq, _⟩
      cases heq

theorem stopIf_ok_iff {c : Bool} {e : ε} {s s' : σ} {u : Unit} :
    (stopIf c e : Prog σ ε Unit) s = (.ok u, s') ↔ c = false ∧ s' = s := by
  cases c
  · simp [stopIf_false, eq_comm]
  · simp [stopIf_true]

theorem bind_apply (m : Prog σ ε α) (f : α → Prog σ ε β) (s : σ) :
    (m >>= f) s = match m s with
      | (.ok a, s') => f a s'
      | (.error e, s') => (.error e, s') := rfl

theorem bind_assoc {γ : Type} (m : Prog σ ε α) (f : α → Prog σ ε β) (g : β → Prog σ ε γ) :
    ((m >>= f) >>= g) = m >>= fun a => f a >>= g := by
  funext s
  rcases hm : m s with ⟨r, s'⟩
  cases r with
  | ok a => simp only [bind_apply, hm]
  | error e => simp only [bind_apply, hm]

/-- To return is a fact that can be evaluated. -/
theorem exists_of_isOk {m : Prog σ ε α} {s : σ} (hok : (m s).1.isOk = true) :
    ∃ a s', m s = (.ok a, s') := by
  rcases hrun : m s with ⟨r, s'⟩
  cases r with
  | ok a => exact ⟨a, s', rfl⟩
  | error e =>
    rw [hrun] at hok
    cases hok

/-- Two sequences agree when their first parts agree and their second parts
agree on every state the first part can return in. -/
theorem bind_congr_on {m n : Prog σ ε α} {f g : α → Prog σ ε β} {s : σ}
    (hmn : m s = n s) (hfg : ∀ a s', n s = (.ok a, s') → f a s' = g a s') :
    (m >>= f) s = (n >>= g) s := by
  rw [bind_apply, bind_apply, hmn]
  rcases hn : n s with ⟨r, s'⟩
  cases r with
  | ok a => exact hfg a s' hn
  | error e => rfl

/-- The assertion on an outcome: `Q` when it returned, `E` when it stopped. -/
def Post (Q : α → σ → Prop) (E : ε → σ → Prop) : Except ε α × σ → Prop
  | (.ok a, s) => Q a s
  | (.error e, s) => E e s

/-- From a state in `P` the program returns in `Q` or stops in `E`. -/
def Triple (P : σ → Prop) (m : Prog σ ε α) (Q : α → σ → Prop) (E : ε → σ → Prop) : Prop :=
  ∀ s, P s → Post Q E (m s)

namespace Triple

variable {P P' : σ → Prop} {Q Q' : α → σ → Prop} {E E' : ε → σ → Prop}

theorem pure {a : α} (h : ∀ s, P s → Q a s) : Triple P (pure a : Prog σ ε α) Q E := h

theorem stop {e : ε} (h : ∀ s, P s → E e s) : Triple P (stop e : Prog σ ε α) Q E := h

theorem read {f : σ → α} (h : ∀ s, P s → Q (f s) s) : Triple P (read f : Prog σ ε α) Q E := h

theorem modify {f : σ → σ} {Q : Unit → σ → Prop} (h : ∀ s, P s → Q () (f s)) :
    Triple P (modify f : Prog σ ε Unit) Q E := h

theorem bind {m : Prog σ ε α} {f : α → Prog σ ε β} {R : β → σ → Prop}
    (hm : Triple P m Q E) (hf : ∀ a, Triple (Q a) (f a) R E) :
    Triple P (m >>= f) R E := by
  intro s hs
  have h := hm s hs
  rcases hms : m s with ⟨r, s'⟩
  rw [hms] at h
  cases r with
  | ok a =>
    rw [bind_of_ok hms]
    exact hf a s' h
  | error e =>
    rw [bind_of_error hms]
    exact h

/-- A program that begins with a read may be proved for each value that is read. -/
theorem read_bind {f : σ → α} {g : α → Prog σ ε β} {R : β → σ → Prop}
    (h : ∀ a, Triple (fun s => P s ∧ f s = a) (g a) R E) :
    Triple P (Prog.read f >>= g) R E :=
  fun s hs => h (f s) s ⟨hs, rfl⟩

theorem conseq {m : Prog σ ε α} (h : Triple P m Q E) (hP : ∀ s, P' s → P s)
    (hQ : ∀ a s, Q a s → Q' a s) (hE : ∀ e s, E e s → E' e s) : Triple P' m Q' E' := by
  intro s hs
  have hm := h s (hP s hs)
  rcases hms : m s with ⟨r, s'⟩
  rw [hms] at hm
  cases r with
  | ok a => exact hQ a s' hm
  | error e => exact hE e s' hm

theorem ite {c : Prop} [Decidable c] {m n : Prog σ ε α} (hm : c → Triple P m Q E)
    (hn : ¬ c → Triple P n Q E) : Triple P (if c then m else n) Q E := by
  split
  · exact hm ‹c›
  · exact hn ‹¬ c›

theorem stopIf {c : Bool} {e : ε} {Q : Unit → σ → Prop}
    (hstop : c = true → ∀ s, P s → E e s) (hgo : c = false → ∀ s, P s → Q () s) :
    Triple P (stopIf c e : Prog σ ε Unit) Q E := by
  cases c with
  | false => exact hgo rfl
  | true => exact hstop rfl

theorem liftExcept {r : Except ε α} (hok : ∀ a, r = .ok a → ∀ s, P s → Q a s)
    (herr : ∀ e, r = .error e → ∀ s, P s → E e s) :
    Triple P (liftExcept r : Prog σ ε α) Q E := by
  cases r with
  | ok a => exact hok a rfl
  | error e => exact herr e rfl

/-- What a triple says about one run that returned. -/
theorem of_ok {m : Prog σ ε α} {s s' : σ} {a : α} (h : Triple P m Q E) (hs : P s)
    (hm : m s = (.ok a, s')) : Q a s' := by
  have := h s hs
  rwa [hm] at this

/-- What a triple says about one run that stopped. -/
theorem of_error {m : Prog σ ε α} {s s' : σ} {e : ε} (h : Triple P m Q E) (hs : P s)
    (hm : m s = (.error e, s')) : E e s' := by
  have := h s hs
  rwa [hm] at this

end Triple

/-- The program keeps an invariant on both ways out. -/
def Preserves (I : σ → Prop) (m : Prog σ ε α) : Prop :=
  Triple I m (fun _ => I) (fun _ => I)

namespace Preserves

variable {I : σ → Prop}

theorem pure (a : α) : Preserves I (pure a : Prog σ ε α) := fun _ h => h

theorem stop (e : ε) : Preserves I (stop e : Prog σ ε α) := fun _ h => h

theorem read (f : σ → α) : Preserves I (read f : Prog σ ε α) := fun _ h => h

theorem modify {f : σ → σ} (h : ∀ s, I s → I (f s)) :
    Preserves I (modify f : Prog σ ε Unit) := h

theorem liftExcept (r : Except ε α) : Preserves I (liftExcept r : Prog σ ε α) := by
  cases r <;> exact fun _ h => h

theorem stopIf (c : Bool) (e : ε) : Preserves I (stopIf c e : Prog σ ε Unit) := by
  cases c <;> exact fun _ h => h

theorem bind {m : Prog σ ε α} {f : α → Prog σ ε β} (hm : Preserves I m)
    (hf : ∀ a, Preserves I (f a)) : Preserves I (m >>= f) :=
  Triple.bind hm hf

theorem ite {c : Prop} [Decidable c] {m n : Prog σ ε α} (hm : Preserves I m)
    (hn : Preserves I n) : Preserves I (if c then m else n) := by
  split
  · exact hm
  · exact hn

/-- The state after a run, whichever way out it took. -/
theorem apply {m : Prog σ ε α} {s : σ} (h : Preserves I m) (hs : I s) : I (m s).2 := by
  have hm := h s hs
  rcases hms : m s with ⟨r, s'⟩
  rw [hms] at hm
  cases r <;> exact hm

end Preserves

/-- The program leaves an observation of the state as it was. -/
def Keeps {τ : Type*} (f : σ → τ) (m : Prog σ ε α) : Prop :=
  ∀ c, Preserves (fun s => f s = c) m

namespace Keeps

variable {τ : Type*} {g : σ → τ}

theorem pure (a : α) : Keeps g (pure a : Prog σ ε α) := fun _ => .pure a

theorem stop (e : ε) : Keeps g (stop e : Prog σ ε α) := fun _ => .stop e

theorem read (f : σ → α) : Keeps g (read f : Prog σ ε α) := fun _ => .read f

theorem modify {f : σ → σ} (h : ∀ s, g (f s) = g s) : Keeps g (modify f : Prog σ ε Unit) :=
  fun _ => .modify fun s hs => (h s).trans hs

theorem bind {m : Prog σ ε α} {f : α → Prog σ ε β} (hm : Keeps g m) (hf : ∀ a, Keeps g (f a)) :
    Keeps g (m >>= f) :=
  fun c => (hm c).bind fun a => hf a c

theorem ite {c : Prop} [Decidable c] {m n : Prog σ ε α} (hm : Keeps g m) (hn : Keeps g n) :
    Keeps g (if c then m else n) :=
  fun d => (hm d).ite (hn d)

theorem stopIf (c : Bool) (e : ε) : Keeps g (stopIf c e : Prog σ ε Unit) := fun _ => .stopIf c e

theorem liftExcept (r : Except ε α) : Keeps g (liftExcept r : Prog σ ε α) :=
  fun _ => .liftExcept r

theorem apply {m : Prog σ ε α} (h : Keeps g m) (s : σ) : g (m s).2 = g s :=
  (h (g s)).apply rfl

theorem of_apply {m : Prog σ ε α} (h : ∀ s, g (m s).2 = g s) : Keeps g m := by
  intro c s hs
  have hkeep := (h s).trans hs
  rcases hm : m s with ⟨r, s'⟩
  rw [hm] at hkeep
  cases r <;> exact hkeep

theorem map {τ' : Type*} (φ : τ → τ') {m : Prog σ ε α} (h : Keeps g m) :
    Keeps (fun s => φ (g s)) m :=
  of_apply fun s => congrArg φ (h.apply s)

/-- An assertion that depends on the observation only holds on. -/
theorem preserves_congr {m : Prog σ ε α} (h : Keeps g m) {I : σ → Prop}
    (hI : ∀ s s', g s' = g s → I s → I s') : Preserves I m :=
  fun s hs => (h (g s)).conseq (fun _ hs' => hs') (fun _ s' hs' => hI s s' hs' hs)
    (fun _ s' hs' => hI s s' hs' hs) s rfl

/-- What the second part of a sequence keeps is as the first part left it. -/
theorem after {m : Prog σ ε α} {f : α → Prog σ ε β} (hf : ∀ a, Keeps g (f a)) (s : σ) :
    g ((m >>= f) s).2 = g (m s).2 := by
  rcases hm : m s with ⟨r, s'⟩
  cases r with
  | ok a =>
    rw [bind_of_ok hm]
    exact (hf a).apply s'
  | error e => rw [bind_of_error hm]

theorem of_ok {m : Prog σ ε α} {s s' : σ} {a : α} (h : Keeps g m) (hm : m s = (.ok a, s')) :
    g s' = g s :=
  (h (g s)).of_ok rfl hm

/-- A sequence whose first part keeps the observation stops with it unchanged, or
goes on with it unchanged. -/
theorem bind_cases {m : Prog σ ε α} {f : α → Prog σ ε β} {s s'' : σ} {r : Except ε β}
    (hm : Keeps g m) (hrun : (m >>= f) s = (r, s'')) :
    (∃ e, r = .error e ∧ g s'' = g s) ∨
      ∃ a s', m s = (.ok a, s') ∧ g s' = g s ∧ f a s' = (r, s'') := by
  have hkeep := hm.apply s
  rcases hms : m s with ⟨r', s'⟩
  rw [hms] at hkeep
  cases r' with
  | ok a =>
    rw [bind_of_ok hms] at hrun
    exact Or.inr ⟨a, s', rfl, hkeep, hrun⟩
  | error e =>
    rw [bind_of_error hms] at hrun
    cases hrun
    exact Or.inl ⟨e, rfl, hkeep⟩

end Keeps

/-- The states from which the program returns instead of stopping. -/
def Returns (m : Prog σ ε α) (P : σ → Prop) : Prop :=
  ∀ s, (∃ a s', m s = (.ok a, s')) ↔ P s

namespace Returns

variable {P Q : σ → Prop}

theorem pure (a : α) : Returns (pure a : Prog σ ε α) fun _ => True :=
  fun s => ⟨fun _ => trivial, fun _ => ⟨a, s, rfl⟩⟩

theorem stop (e : ε) : Returns (stop e : Prog σ ε α) fun _ => False := by
  intro s
  simp

theorem stopIf (c : Bool) (e : ε) :
    Returns (stopIf c e : Prog σ ε Unit) fun _ => c = false := by
  intro s
  simp only [stopIf_ok_iff]
  exact ⟨fun ⟨_, _, hc, _⟩ => hc, fun hc => ⟨(), s, hc, rfl⟩⟩

theorem modify (f : σ → σ) : Returns (modify f : Prog σ ε Unit) fun _ => True :=
  fun s => ⟨fun _ => trivial, fun _ => ⟨(), f s, rfl⟩⟩

theorem congr {m : Prog σ ε α} (hm : Returns m P) (hPQ : ∀ s, P s ↔ Q s) : Returns m Q :=
  fun s => (hm s).trans (hPQ s)

/-- A sequence returns when its first part does and its second part would, if
the first part does not decide that. -/
theorem bind {m : Prog σ ε α} {f : α → Prog σ ε β} (hm : Returns m P)
    (hf : ∀ a, Returns (f a) Q) (hkeep : ∀ s a s', m s = (.ok a, s') → (Q s' ↔ Q s)) :
    Returns (m >>= f) fun s => P s ∧ Q s := by
  intro s
  constructor
  · rintro ⟨c, s'', hrun⟩
    obtain ⟨a, s', hms, hfs⟩ := bind_ok_iff.mp hrun
    exact ⟨(hm s).mp ⟨a, s', hms⟩, (hkeep s a s' hms).mp ((hf a s').mp ⟨c, s'', hfs⟩)⟩
  · rintro ⟨hP, hQ⟩
    obtain ⟨a, s', hms⟩ := (hm s).mpr hP
    obtain ⟨c, s'', hfs⟩ := (hf a s').mpr ((hkeep s a s' hms).mpr hQ)
    exact ⟨c, s'', bind_ok_iff.mpr ⟨a, s', hms, hfs⟩⟩

theorem bind_const {m : Prog σ ε α} {f : α → Prog σ ε β} {q : Prop} (hm : Returns m P)
    (hf : ∀ a, Returns (f a) fun _ => q) : Returns (m >>= f) fun s => P s ∧ q :=
  hm.bind hf fun _ _ _ _ => Iff.rfl

end Returns

end Prog
end EspWolfssl.ProgramLogic
