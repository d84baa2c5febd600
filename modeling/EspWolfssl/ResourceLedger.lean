import EspWolfssl.TaggedLogs
import Mathlib.Logic.Function.Basic

/-!
A ledger of objects that agents allocate, use and free. An object may belong to
a parent and must then be freed before it. Replaying a log gives the ledger it
leads to; a log is safe when every use and every free is of a live object of
the agent that makes it, and every allocation is of an object never seen.
-/
namespace EspWolfssl.ResourceLedger

open TaggedLogs

variable {α κ : Type*}

inductive Cell (α κ : Type*)
  | unborn
  | live (kind : κ) (owner : α) (parent : Option ℕ)
  | freed
deriving DecidableEq

abbrev Ledger (α κ : Type*) := ℕ → Cell α κ

inductive Action (κ : Type*)
  | alloc (id : ℕ) (kind : κ) (parent : Option ℕ)
  | use (ids : List ℕ)
  | free (id : ℕ)
deriving DecidableEq

/-- The action names the object, as its own or as a parent. -/
def Action.Mentions (id : ℕ) : Action κ → Prop
  | .alloc new _ parent => new = id ∨ parent = some id
  | .use ids => id ∈ ids
  | .free old => old = id

namespace Ledger

def empty : Ledger α κ := fun _ => .unborn

/-- Change the cell of one object. -/
def set (L : Ledger α κ) (id : ℕ) (c : Cell α κ) : Ledger α κ := Function.update L id c

@[simp] theorem set_self (L : Ledger α κ) (id : ℕ) (c : Cell α κ) : L.set id c id = c := by
  simp [set]

@[simp] theorem set_of_ne (L : Ledger α κ) {id other : ℕ} (h : other ≠ id) (c : Cell α κ) :
    L.set id c other = L other := by
  simp [set, h]

@[simp] theorem set_set (L : Ledger α κ) (id : ℕ) (c d : Cell α κ) :
    (L.set id c).set id d = L.set id d := by
  simp [set]

/-- `x` may use the object: it is live and `x` allocated it. -/
def Owned (L : Ledger α κ) (x : α) (id : ℕ) : Prop :=
  ∃ kind parent, L id = .live kind x parent

def Childless (L : Ledger α κ) (id : ℕ) : Prop :=
  ∀ child kind y, L child ≠ .live kind y (some id)

def apply (L : Ledger α κ) (x : α) : Action κ → Ledger α κ
  | .alloc id kind parent => L.set id (.live kind x parent)
  | .use _ => L
  | .free id => L.set id .freed

/-- A use needs live objects, a free one that is live and has no live child,
and an allocation one that was never seen, so freed objects stay freed. -/
def Allowed (L : Ledger α κ) (x : α) : Action κ → Prop
  | .alloc id _ parent => L id = .unborn ∧ ∀ p, parent = some p → L.Owned x p
  | .use ids => ∀ id ∈ ids, L.Owned x id
  | .free id => L.Owned x id ∧ L.Childless id

def replay (L : Ledger α κ) (log : List (α × Action κ)) : Ledger α κ :=
  log.foldl (fun L entry => L.apply entry.1 entry.2) L

@[simp] theorem replay_nil (L : Ledger α κ) : L.replay [] = L := rfl

@[simp] theorem replay_cons (L : Ledger α κ) (x : α) (a : Action κ)
    (log : List (α × Action κ)) :
    L.replay ((x, a) :: log) = (L.apply x a).replay log := rfl

theorem replay_append (L : Ledger α κ) (left right : List (α × Action κ)) :
    L.replay (left ++ right) = (L.replay left).replay right := by
  simp [replay, List.foldl_append]

def Safe (L : Ledger α κ) : List (α × Action κ) → Prop
  | [] => True
  | (x, a) :: rest => L.Allowed x a ∧ (L.apply x a).Safe rest

theorem safe_append (L : Ledger α κ) (left right : List (α × Action κ)) :
    L.Safe (left ++ right) ↔ L.Safe left ∧ (L.replay left).Safe right := by
  induction left generalizing L with
  | nil => simp [Safe]
  | cons entry rest ih =>
    obtain ⟨x, a⟩ := entry
    simp only [List.cons_append, Safe, replay_cons, ih, and_assoc]

/-- Freed objects stay freed along a safe log. -/
theorem freed_of_safe (L : Ledger α κ) (log : List (α × Action κ)) (id : ℕ)
    (hsafe : L.Safe log) (hfreed : L id = .freed) : L.replay log id = .freed := by
  induction log generalizing L with
  | nil => exact hfreed
  | cons entry rest ih =>
    obtain ⟨x, a⟩ := entry
    apply ih _ hsafe.2
    cases a with
    | alloc new kind parent =>
      have hne : id ≠ new := by
        rintro rfl
        rw [hsafe.1.1] at hfreed
        cases hfreed
      simp [apply, hne, hfreed]
    | use ids => exact hfreed
    | free old =>
      by_cases hid : id = old
      · simp [apply, hid]
      · simp [apply, hid, hfreed]

/-- An object stays as it was allocated until it is freed. -/
theorem live_of_safe (L : Ledger α κ) (log : List (α × Action κ)) {id : ℕ} {kind : κ} {x : α}
    {parent : Option ℕ} (hsafe : L.Safe log) (hlive : L id = .live kind x parent)
    (hno : ∀ z, (z, .free id) ∉ log) : L.replay log id = .live kind x parent := by
  induction log generalizing L with
  | nil => exact hlive
  | cons entry rest ih =>
    obtain ⟨y, a⟩ := entry
    have hrest : ∀ z, (z, .free id) ∉ rest := fun z hz => hno z (List.mem_cons_of_mem _ hz)
    apply ih _ hsafe.2 _ hrest
    cases a with
    | alloc new kind' parent' =>
      have hne : id ≠ new := by
        rintro rfl
        cases hlive.symm.trans hsafe.1.1
      simpa [apply, hne] using hlive
    | use ids => exact hlive
    | free old =>
      have hne : id ≠ old := by
        rintro rfl
        exact hno y List.mem_cons_self
      simpa [apply, hne] using hlive

/-- Only its owner's actions name a live object, and none names a freed one. -/
theorem owner_of_mentions {L : Ledger α κ} {y : α} {a : Action κ} {id : ℕ}
    (hallowed : L.Allowed y a) (hmentions : a.Mentions id) (hborn : L id ≠ .unborn) :
    L.Owned y id := by
  cases a with
  | alloc new kind parent =>
    rcases hmentions with rfl | hparent
    · exact absurd hallowed.1 hborn
    · exact hallowed.2 id hparent
  | use ids => exact hallowed id hmentions
  | free old =>
    obtain rfl : old = id := hmentions
    exact hallowed.1

/-- What follows a free in a safe log does not name the object again. -/
theorem not_after_free {L : Ledger α κ} {pre mid post : List (α × Action κ)} {x y : α}
    {id : ℕ} {a : Action κ} (h : L.Safe (pre ++ (x, .free id) :: mid ++ (y, a) :: post)) :
    ¬ a.Mentions id := by
  intro hmentions
  have hsplit := (safe_append L (pre ++ (x, .free id) :: mid) ((y, a) :: post)).mp h
  have hbefore := (safe_append L pre ((x, .free id) :: mid)).mp hsplit.1
  have hfreed : L.replay (pre ++ (x, .free id) :: mid) id = .freed := by
    rw [replay_append, replay_cons]
    exact freed_of_safe _ _ _ hbefore.2.2 (by simp [apply])
  obtain ⟨kind, parent, hlive⟩ := owner_of_mentions hsplit.2.1 hmentions (by simp [hfreed])
  cases hfreed.symm.trans hlive

section SinceAllocation
variable {L : Ledger α κ} {pre mid post : List (α × Action κ)} {x y : α} {id : ℕ}
  {kind : κ} {parent : Option ℕ} {a : Action κ}

/-- An object that was not freed since its allocation is live as allocated, and
the action behind is allowed. -/
theorem live_since_alloc
    (h : L.Safe (pre ++ (x, .alloc id kind parent) :: mid ++ (y, a) :: post))
    (hno : ∀ z, (z, .free id) ∉ mid) :
    L.replay (pre ++ (x, .alloc id kind parent) :: mid) id = .live kind x parent ∧
      (L.replay (pre ++ (x, .alloc id kind parent) :: mid)).Allowed y a := by
  have hsplit := (safe_append L (pre ++ (x, .alloc id kind parent) :: mid) ((y, a) :: post)).mp h
  have hbefore := (safe_append L pre ((x, .alloc id kind parent) :: mid)).mp hsplit.1
  refine ⟨?_, hsplit.2.1⟩
  rw [replay_append, replay_cons]
  exact live_of_safe _ _ hbefore.2.2 (by simp [apply]) hno

/-- An object is named by the agent that allocated it only. -/
theorem named_by_owner
    (h : L.Safe (pre ++ (x, .alloc id kind parent) :: mid ++ (y, a) :: post))
    (hmentions : a.Mentions id) : y = x := by
  by_cases hfree : ∃ z, (z, .free id) ∈ mid
  · obtain ⟨z, hz⟩ := hfree
    obtain ⟨front, back, rfl⟩ := List.append_of_mem hz
    have hsafe : L.Safe ((pre ++ (x, .alloc id kind parent) :: front) ++ (z, .free id) :: back ++
        (y, a) :: post) := by simpa using h
    exact absurd hmentions (not_after_free hsafe)
  · obtain ⟨hlive, hallowed⟩ := live_since_alloc h fun z hz => hfree ⟨z, hz⟩
    obtain ⟨kind', parent', howned⟩ := owner_of_mentions hallowed hmentions (by simp [hlive])
    rw [hlive] at howned
    injection howned with _ howner
    exact howner.symm

/-- An object is freed before its parent is. -/
theorem freed_before_parent {owner : ℕ}
    (h : L.Safe (pre ++ (x, .alloc id kind (some owner)) :: mid ++ (y, .free owner) :: post)) :
    ∃ z, (z, .free id) ∈ mid := by
  by_contra hfree
  obtain ⟨hlive, hallowed⟩ := live_since_alloc h fun z hz => hfree ⟨z, hz⟩
  exact hallowed.2 id kind x hlive

end SinceAllocation

theorem owned_set_of_ne {L : Ledger α κ} {x : α} {id new : ℕ} {c : Cell α κ}
    (hne : id ≠ new) : (L.set new c).Owned x id ↔ L.Owned x id := by
  simp [Owned, hne]

theorem owned_set_live (L : Ledger α κ) (x : α) (id : ℕ) (kind : κ) (parent : Option ℕ) :
    (L.set id (.live kind x parent)).Owned x id :=
  ⟨kind, parent, by simp⟩

/-- Uses change nothing, so they are safe together when each one is. -/
theorem safe_uses {L : Ledger α κ} {x : α} {uses : List (List ℕ)} :
    L.Safe (tag x (uses.map .use)) ↔ ∀ ids ∈ uses, ∀ id ∈ ids, L.Owned x id := by
  induction uses with
  | nil => simp [Safe]
  | cons ids rest ih => simp [Safe, Allowed, apply, ih]

theorem replay_uses (L : Ledger α κ) (x : α) (uses : List (List ℕ)) :
    L.replay (tag x (uses.map .use)) = L := by
  induction uses with
  | nil => rfl
  | cons ids rest ih => simpa [apply] using ih

/-- A temporary: allocated, used beside owned objects only, and freed. The
ledger it leaves differs in the temporary's own cell only. -/
theorem temporary {L : Ledger α κ} {x : α} {t : ℕ} (kind : κ) {uses : List (List ℕ)}
    (hfresh : L t = .unborn) (hchildless : L.Childless t)
    (huses : ∀ ids ∈ uses, ∀ id ∈ ids, id = t ∨ L.Owned x id) :
    L.Safe (tag x (.alloc t kind none :: uses.map .use ++ [.free t])) ∧
      L.replay (tag x (.alloc t kind none :: uses.map .use ++ [.free t])) =
        L.set t .freed := by
  have hlive : (L.set t (.live kind x none)).Owned x t := owned_set_live L x t kind none
  have huses' : (L.set t (.live kind x none)).Safe (tag x (uses.map .use)) := by
    rw [safe_uses]
    intro ids hids id hid
    by_cases hne : id = t
    · subst hne
      exact hlive
    · exact (owned_set_of_ne hne).mpr ((huses ids hids id hid).resolve_left hne)
  have hchild : (L.set t (.live kind x none)).Childless t := by
    intro child kind' y
    by_cases hc : child = t
    · simp [hc]
    · simpa [hc] using hchildless child kind' y
  rw [tag_append, tag_cons]
  constructor
  · rw [safe_append]
    refine ⟨⟨⟨hfresh, by simp⟩, huses'⟩, ?_⟩
    rw [replay_cons]
    simp only [apply, replay_uses, tag_cons, tag_nil, Safe, Allowed, and_true]
    exact ⟨hlive, hchild⟩
  · rw [replay_append, replay_cons]
    simp only [apply, replay_uses, tag_cons, tag_nil, replay_cons, replay_nil, set_set]

end Ledger
end EspWolfssl.ResourceLedger
