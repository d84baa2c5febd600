import EspWolfssl.TaggedLogs

/-!
A mutex whose takes and gives are logged with the agent that made them, and
the protocol that guards it with one shared flag. A cleanup gives the mutex
when the flag is set; an acceptance gives it without looking. The flag does
not say whose mutex it is, so ownership holds only of runs in which no agent
cleans up or accepts while another agent is the holder.
-/
namespace EspWolfssl.MutexOwnership

open TaggedLogs

variable {α : Type*}

/-- `null` is a handle whose creation failed. -/
inductive Mutex
  | null
  | free
  | taken
deriving DecidableEq, Repr

namespace Mutex

/-- Giving a taken mutex frees it; giving a free one has no effect. -/
def give : Mutex → Mutex
  | .null => .null
  | .free => .free
  | .taken => .free

theorem give_ne_taken (m : Mutex) : m.give ≠ .taken := by
  cases m <;> simp [give]

theorem give_eq_null_iff (m : Mutex) : m.give = .null ↔ m = .null := by
  cases m <;> simp [give]

end Mutex

inductive LockAction
  | take
  | give
deriving DecidableEq, Repr

/-- The agent that took the mutex last, unless it was given since. -/
def holder (log : List (α × LockAction)) : Option α :=
  log.foldl (fun _ entry => match entry.2 with
    | .take => some entry.1
    | .give => none) none

@[simp] theorem holder_nil : holder ([] : List (α × LockAction)) = none := rfl

@[simp] theorem holder_take (log : List (α × LockAction)) (x : α) :
    holder (log ++ [(x, .take)]) = some x := by
  simp [holder]

@[simp] theorem holder_give (log : List (α × LockAction)) (x : α) :
    holder (log ++ [(x, .give)]) = none := by
  simp [holder]

/-- Whoever gives a taken mutex is its holder. -/
def OwnedGives (log : List (α × LockAction)) : Prop :=
  Throughout (fun pre entry => entry.2 = .give → ∀ y, holder pre = some y → entry.1 = y) log

theorem ownedGives_nil : OwnedGives ([] : List (α × LockAction)) := throughout_nil _

theorem ownedGives_snoc (log : List (α × LockAction)) (x : α) (a : LockAction) :
    OwnedGives (log ++ [(x, a)]) ↔
      OwnedGives log ∧ (a = .give → ∀ y, holder log = some y → x = y) :=
  throughout_snoc _ log (x, a)

structure LockState (α : Type*) where
  mutex : Mutex
  flag : Bool
  log : List (α × LockAction)

/-- What one operation does to the mutex and its flag. -/
inductive Move (α : Type*)
  | idle
  /-- Take the mutex, set the flag and keep both. -/
  | hold (x : α)
  /-- Take the mutex, set the flag and fail later, through the cleanup. -/
  | holdThenCleanup (x : α)
  /-- Clear the flag and give the mutex if the flag is set. -/
  | cleanup (x : α)
  /-- Clear the flag and give the mutex, whatever the flag says. -/
  | accept (x : α)
deriving DecidableEq, Repr

namespace LockState

def take (s : LockState α) (x : α) : LockState α :=
  ⟨.taken, true, s.log ++ [(x, .take)]⟩

def give (s : LockState α) (x : α) : LockState α :=
  ⟨s.mutex.give, false, s.log ++ [(x, .give)]⟩

def cleanup (s : LockState α) (x : α) : LockState α :=
  if s.flag then s.give x else s

def apply (s : LockState α) : Move α → LockState α
  | .idle => s
  | .hold x => s.take x
  | .holdThenCleanup x => (s.take x).cleanup x
  | .cleanup x => s.cleanup x
  | .accept x => s.give x

/-- A take needs a free mutex, and an acceptance a mutex that exists. -/
def Enabled (s : LockState α) : Move α → Prop
  | .hold _ | .holdThenCleanup _ => s.mutex = .free
  | .accept _ => s.mutex ≠ .null
  | .idle | .cleanup _ => True

/-- The flag, the mutex and the log tell the same story. -/
structure Balanced (s : LockState α) : Prop where
  flag_iff : s.flag = true ↔ s.mutex = .taken
  holder_iff : s.mutex = .taken ↔ ∃ x, holder s.log = some x

/-- No cleanup and no acceptance by anyone but the holder. -/
def Respects (s : LockState α) : Move α → Prop
  | .cleanup x | .accept x => ∀ y, holder s.log = some y → x = y
  | .idle | .hold _ | .holdThenCleanup _ => True

theorem balanced_take (s : LockState α) (x : α) : (s.take x).Balanced where
  flag_iff := by simp [take]
  holder_iff := by simp [take]

theorem balanced_give (s : LockState α) (x : α) : (s.give x).Balanced where
  flag_iff := by simp [give, Mutex.give_ne_taken]
  holder_iff := by simp [give, Mutex.give_ne_taken]

theorem balanced_cleanup {s : LockState α} (hs : s.Balanced) (x : α) :
    (s.cleanup x).Balanced := by
  unfold cleanup
  split
  · exact balanced_give s x
  · exact hs

theorem balanced_apply {s : LockState α} (hs : s.Balanced) (m : Move α) :
    (s.apply m).Balanced := by
  cases m with
  | idle => exact hs
  | hold x => exact balanced_take s x
  | holdThenCleanup x => exact balanced_cleanup (balanced_take s x) x
  | cleanup x => exact balanced_cleanup hs x
  | accept x => exact balanced_give s x

/-- After a cleanup nobody holds the mutex. -/
theorem holder_cleanup {s : LockState α} (hs : s.Balanced) (x : α) :
    holder (s.cleanup x).log = none := by
  unfold cleanup
  split
  · simp [give]
  · rename_i hflag
    cases hy : holder s.log with
    | none => rfl
    | some y => exact absurd (hs.flag_iff.mpr (hs.holder_iff.mpr ⟨y, hy⟩)) hflag

/-- A mutex that was created stays so. -/
theorem apply_ne_null {s : LockState α} (hs : s.mutex ≠ .null) (m : Move α) :
    (s.apply m).mutex ≠ .null := by
  have hgive : s.mutex.give ≠ .null := mt s.mutex.give_eq_null_iff.mp hs
  cases m with
  | idle => exact hs
  | hold x => simp [apply, take]
  | holdThenCleanup x => simp [apply, take, cleanup, give, Mutex.give]
  | cleanup x =>
    simp only [apply, cleanup]
    split
    · exact hgive
    · exact hs
  | accept x => exact hgive

theorem ownedGives_cleanup {s : LockState α} (hs : s.Balanced) (x : α) :
    OwnedGives (s.cleanup x).log ↔
      OwnedGives s.log ∧ ∀ y, holder s.log = some y → x = y := by
  unfold cleanup
  split
  · simp [give, ownedGives_snoc]
  · rename_i hflag
    have hnone : ∀ y, holder s.log ≠ some y := by
      intro y hy
      exact hflag (hs.flag_iff.mpr (hs.holder_iff.mpr ⟨y, hy⟩))
    simp [hnone]

/-- One move keeps ownership exactly when it respects the holder. -/
theorem ownedGives_apply {s : LockState α} (hs : s.Balanced) (m : Move α) :
    OwnedGives (s.apply m).log ↔ OwnedGives s.log ∧ s.Respects m := by
  cases m with
  | idle => simp [apply, Respects]
  | hold x => simp [apply, Respects, take, ownedGives_snoc]
  | holdThenCleanup x =>
    rw [apply, ownedGives_cleanup (balanced_take s x) x]
    simp [Respects, take, ownedGives_snoc]
  | cleanup x => exact ownedGives_cleanup hs x
  | accept x => simp [apply, Respects, give, ownedGives_snoc]

end LockState
end EspWolfssl.MutexOwnership
