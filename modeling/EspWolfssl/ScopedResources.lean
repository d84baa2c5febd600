import EspWolfssl.ResourceLedger

/-!
Objects that one agent acquires and releases in a nested order, as a chain of
cleanup labels does. The objects that are held form a stack in which a parent
stands below its children, and only the object on top is released. A log of
such moves is safe, and an empty stack means that nothing is live.
-/
namespace EspWolfssl.ScopedResources

open TaggedLogs ResourceLedger

variable {α κ : Type*}

structure Held (κ : Type*) where
  id : ℕ
  kind : κ
  parent : Option ℕ

/-- Every object has a name of its own, and its parent, if any, stands below it. -/
def Nested : List (Held κ) → Prop
  | [] => True
  | top :: rest =>
      (∀ p, top.parent = some p → p ∈ rest.map Held.id) ∧ top.id ∉ rest.map Held.id ∧ Nested rest

theorem parent_held {stack : List (Held κ)} (hstack : Nested stack) {o : Held κ} (ho : o ∈ stack)
    {p : ℕ} (hp : o.parent = some p) : p ∈ stack.map Held.id := by
  induction stack with
  | nil => cases ho
  | cons top rest ih =>
    obtain ⟨hparent, _, hrest⟩ := hstack
    rw [List.map_cons]
    rcases List.mem_cons.mp ho with rfl | ho
    · exact List.mem_cons_of_mem _ (hparent p hp)
    · exact List.mem_cons_of_mem _ (ih hrest ho)

/-- Along the log the agent `x` acquired the objects of the stack and released all
others; the fresh names were not used yet. -/
structure Holds (x : α) (log : List (α × Action κ)) (fresh : ℕ → Prop) (stack : List (Held κ)) :
    Prop where
  safe : Ledger.empty.Safe log
  unborn : ∀ id, fresh id → Ledger.empty.replay log id = .unborn
  live_iff : ∀ id kind y parent, Ledger.empty.replay log id = .live kind y parent ↔
    y = x ∧ ⟨id, kind, parent⟩ ∈ stack
  nested : Nested stack

namespace Holds

variable {x : α} {log : List (α × Action κ)} {fresh fresh' : ℕ → Prop} {stack : List (Held κ)}

theorem nothing (x : α) (fresh : ℕ → Prop) : Holds x ([] : List (α × Action κ)) fresh [] where
  safe := trivial
  unborn := fun _ _ => rfl
  live_iff := by simp [Ledger.empty]
  nested := trivial

theorem weaken (h : Holds x log fresh stack) (hfresh : ∀ id, fresh' id → fresh id) :
    Holds x log fresh' stack :=
  ⟨h.safe, fun id hid => h.unborn id (hfresh id hid), h.live_iff, h.nested⟩

/-- The objects of the stack are those the agent owns. -/
theorem owned_iff (h : Holds x log fresh stack) {id : ℕ} :
    (Ledger.empty.replay log).Owned x id ↔ id ∈ stack.map Held.id := by
  constructor
  · rintro ⟨kind, parent, hlive⟩
    exact List.mem_map.mpr ⟨_, ((h.live_iff id kind x parent).mp hlive).2, rfl⟩
  · intro hid
    obtain ⟨⟨_, kind, parent⟩, ho, rfl⟩ := List.mem_map.mp hid
    exact ⟨kind, parent, (h.live_iff _ kind x parent).mpr ⟨rfl, ho⟩⟩

theorem not_fresh (h : Holds x log fresh stack) {id : ℕ} (hid : id ∈ stack.map Held.id) :
    ¬ fresh id := by
  intro hfresh
  obtain ⟨kind, parent, hlive⟩ := h.owned_iff.mpr hid
  cases (h.unborn id hfresh).symm.trans hlive

theorem snoc_safe (h : Holds x log fresh stack) {a : Action κ}
    (hallowed : (Ledger.empty.replay log).Allowed x a) : Ledger.empty.Safe (log ++ [(x, a)]) :=
  (Ledger.safe_append _ _ _).mpr ⟨h.safe, hallowed, trivial⟩

theorem replay_snoc (log : List (α × Action κ)) (x : α) (a : Action κ) :
    Ledger.empty.replay (log ++ [(x, a)]) = (Ledger.empty.replay log).apply x a := by
  rw [Ledger.replay_append]
  rfl

theorem use (h : Holds x log fresh stack) {ids : List ℕ}
    (hids : ∀ id ∈ ids, id ∈ stack.map Held.id) : Holds x (log ++ [(x, .use ids)]) fresh stack where
  safe := h.snoc_safe fun id hid => h.owned_iff.mpr (hids id hid)
  unborn := by simpa only [replay_snoc, Ledger.apply] using h.unborn
  live_iff := by simpa only [replay_snoc, Ledger.apply] using h.live_iff
  nested := h.nested

/-- A new object goes on top. -/
theorem acquire (h : Holds x log fresh stack) {id : ℕ} (hid : fresh id) (kind : κ)
    {parent : Option ℕ} (hparent : ∀ p, parent = some p → p ∈ stack.map Held.id) :
    Holds x (log ++ [(x, .alloc id kind parent)]) (fun other => fresh other ∧ other ≠ id)
      (⟨id, kind, parent⟩ :: stack) where
  safe := h.snoc_safe ⟨h.unborn id hid, fun p hp => h.owned_iff.mpr (hparent p hp)⟩
  unborn := by
    rintro other ⟨hother, hne⟩
    simpa [replay_snoc, Ledger.apply, hne] using h.unborn other hother
  live_iff := by
    intro other kind' y parent'
    rw [replay_snoc, Ledger.apply]
    by_cases hother : other = id
    · subst hother
      have hnew : ∀ k p, (⟨other, k, p⟩ : Held κ) ∉ stack := fun k p hmem =>
        h.not_fresh (List.mem_map.mpr ⟨_, hmem, rfl⟩) hid
      simp only [Ledger.set_self, List.mem_cons, hnew, or_false, Held.mk.injEq, true_and,
        Cell.live.injEq]
      grind
    · simp [hother, h.live_iff]
  nested := ⟨hparent, fun hmem => h.not_fresh hmem hid, h.nested⟩

/-- The object on top has no child, so it may be released. -/
theorem release {top : Held κ} (h : Holds x log fresh (top :: stack)) :
    Holds x (log ++ [(x, .free top.id)]) fresh stack where
  safe := by
    refine h.snoc_safe ⟨h.owned_iff.mpr (by simp), fun child kind y hchild => ?_⟩
    obtain ⟨_, hmem⟩ := (h.live_iff _ _ _ _).mp hchild
    obtain ⟨hparent, hfresh, hrest⟩ := h.nested
    rcases List.mem_cons.mp hmem with heq | hmem
    · exact hfresh (hparent top.id (congrArg Held.parent heq).symm)
    · exact hfresh (parent_held hrest hmem rfl)
  unborn := by
    intro id hid
    have hne : id ≠ top.id := by
      rintro rfl
      exact h.not_fresh (by simp) hid
    simpa [replay_snoc, Ledger.apply, hne] using h.unborn id hid
  live_iff := by
    intro id kind y parent
    rw [replay_snoc, Ledger.apply]
    by_cases hid : id = top.id
    · subst hid
      have hgone : (⟨top.id, kind, parent⟩ : Held κ) ∉ stack := fun hmem =>
        h.nested.2.1 (List.mem_map.mpr ⟨_, hmem, rfl⟩)
      simp [hgone]
    · have hne : (⟨id, kind, parent⟩ : Held κ) ≠ top := by
        rintro rfl
        exact hid rfl
      simp [hid, h.live_iff, hne]
  nested := h.nested.2.2

/-- Nothing is live when nothing is held. -/
theorem not_live (h : Holds x log fresh []) (id : ℕ) (kind : κ) (y : α) (parent : Option ℕ) :
    Ledger.empty.replay log id ≠ .live kind y parent := by
  intro hlive
  cases ((h.live_iff id kind y parent).mp hlive).2

end Holds

/-- Where the calls stand in a state, the next name, and what a call does to objects. -/
structure Reader (σ ε κ : Type*) where
  log : σ → List (Unit × ε)
  next : σ → ℕ
  action : ε → Option (Action κ)

namespace Reader

variable {σ ε : Type*} (R : Reader σ ε κ)

def objectLog (s : σ) : List (Unit × Action κ) := view R.action (R.log s)

def Holding (stack : List (Held κ)) (s : σ) : Prop :=
  Holds () (R.objectLog s) (R.next s ≤ ·) stack

variable {R} {stack : List (Held κ)} {s s' : σ} {e : ε}

theorem Holding.congr (h : R.Holding stack s) (hlog : R.log s' = R.log s)
    (hnext : R.next s' = R.next s) : R.Holding stack s' := by
  unfold Holding objectLog
  rw [hlog, hnext]
  exact h

/-- A call that does nothing to objects. -/
theorem Holding.other (h : R.Holding stack s) (he : R.action e = none)
    (hlog : R.log s' = R.log s ++ [((), e)]) (hnext : R.next s' = R.next s) :
    R.Holding stack s' := by
  unfold Holding objectLog
  rw [hlog, hnext, view_snoc_of_none _ _ _ he]
  exact h

theorem Holding.uses {ids : List ℕ} (h : R.Holding stack s) (he : R.action e = some (.use ids))
    (hids : ∀ id ∈ ids, id ∈ stack.map Held.id) (hlog : R.log s' = R.log s ++ [((), e)])
    (hnext : R.next s' = R.next s) : R.Holding stack s' := by
  unfold Holding objectLog
  rw [hlog, hnext, view_snoc_of_some _ _ _ he]
  exact h.use hids

theorem Holding.acquires {kind : κ} {parent : Option ℕ} (h : R.Holding stack s)
    (he : R.action e = some (.alloc (R.next s) kind parent))
    (hparent : ∀ p, parent = some p → p ∈ stack.map Held.id)
    (hlog : R.log s' = R.log s ++ [((), e)]) (hnext : R.next s' = R.next s + 1) :
    R.Holding (⟨R.next s, kind, parent⟩ :: stack) s' := by
  unfold Holding objectLog
  rw [hlog, hnext, view_snoc_of_some _ _ _ he]
  refine (h.acquire (Nat.le_refl _) kind hparent).weaken fun id hid => ?_
  exact ⟨by omega, by omega⟩

theorem Holding.frees {top : Held κ} (h : R.Holding (top :: stack) s)
    (he : R.action e = some (.free top.id)) (hlog : R.log s' = R.log s ++ [((), e)])
    (hnext : R.next s' = R.next s) : R.Holding stack s' := by
  unfold Holding objectLog
  rw [hlog, hnext, view_snoc_of_some _ _ _ he]
  exact h.release

end Reader
end EspWolfssl.ScopedResources
