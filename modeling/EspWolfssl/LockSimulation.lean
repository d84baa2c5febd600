import EspWolfssl.StepEffects

/-!
The backend refines the protocol of a mutex guarded by one flag: every step
makes one move of the protocol on the lock, the flag and their part of the log.
-/
namespace EspWolfssl.LockSimulation

open ByteRegions MutexOwnership TaggedLogs Platform ProgramLogic BackendState PskClient
  HandleCreation ConnectionIo GlobalStore BackendSteps OperationFrames CreationOutcomes
  CreationFootprints StepEffects GuardedRuns

variable {b : Build}

/-- The part of the state that the protocol knows. -/
def lockView (w : World b) : LockState Handle :=
  ⟨w.tlsConnLock, w.tlsConnLockHeld, view Event.lockAction w.log⟩

/-- The connection that took the lock and has not given it since. -/
def lockHolder (w : World b) : Option Handle := holder (view Event.lockAction w.log)

section Views
variable {h : Handle} {w w' : World b}

theorem lockAction_quiet {e : Event} (he : Quiet e) : e.lockAction = none := by
  cases e <;> first | rfl | exact he.elim

theorem lockView_extends (hw : Extends h w w') : lockView w' = lockView w := by
  have hlog := hw.toGrows.view_eq (f := Event.lockAction) fun _ => lockAction_quiet
  have hstatics := hw.statics
  simp only [statics, Statics.mk.injEq] at hstatics
  simp only [lockView, hlog, hstatics.1, hstatics.2.1]

theorem lockView_record {e : Event} (he : e.lockAction = none) (h : Handle) (w : World b) :
    lockView (w.record h e) = lockView w := by
  have hlog : view Event.lockAction (w.record h e).log = view Event.lockAction w.log :=
    view_snoc_of_none Event.lockAction h w.log he
  simp only [lockView, hlog, LockState.mk.injEq]
  exact ⟨rfl, rfl, trivial⟩

theorem lockView_holding (h : Handle) (w : World b) :
    lockView (holding h w) = (lockView w).take h := by
  simp [lockView, holding, LockState.take, view, Event.lockAction]

theorem lockView_installed (h : Handle) {hint : CString} {key : List UInt8}
    (hfit : CredentialsFit b hint key) (w : World b) :
    lockView (installed h hint key hfit w) = (lockView w).take h := by
  rw [← lockView_holding, installed, lockView_record rfl]
  exact lockView_record (e := .pskStored hint key) rfl h (holding h w)

theorem lockView_give (h : Handle) (w : World b) :
    lockView (giveConnLock h w) = (lockView w).give h := by
  simp [lockView, giveConnLock, LockState.give, view, Event.lockAction]

/-- Before its cleanup a creation takes the lock or leaves it alone. -/
theorem lockView_footprint {reached : Option PskHintKey} (hw : Footprint h reached w w') :
    lockView w' =
      if takesLock reached w.tlsConnLock then (lockView w).take h else lockView w := by
  cases hw with
  | quiet htakes work => rw [htakes, lockView_extends work]; rfl
  | refused hreached hcred hlock _ before after =>
    rw [lockView_extends after, lockView_holding, lockView_extends before]
    simp [takesLock, pskTakes, hreached, hcred, hlock]
  | stored hreached hcred hlock hfit before after =>
    rw [lockView_extends after, lockView_installed, lockView_extends before]
    simp [takesLock, pskTakes, hreached, hcred, hlock]

theorem lockView_cleanup (hpsk : b.pskVerification = true) (h : Handle) (w : World b) :
    lockView (espWolfsslCleanup h w) = (lockView w).cleanup h := by
  rw [lockView_extends (espWolfsslCleanup_extends h w), releaseConnLock, hpsk,
    LockState.cleanup, Bool.true_and]
  change lockView (if w.tlsConnLockHeld = true then _ else _) =
    if w.tlsConnLockHeld = true then _ else _
  split
  · exact lockView_give h w
  · rfl

end Views

/-- The move of an operation that opens a connection. -/
def openMove (h : Handle) (takes accepted : Bool) : Move Handle :=
  match takes, accepted with
  | true, true => .hold h
  | true, false => .holdThenCleanup h
  | false, true => .idle
  | false, false => .cleanup h

/-- The move of an operation, from its inputs and the state it starts in. -/
def lockMove (w : World b) : Kind → Move Handle
  | .opening o => openMove o.handle (o.takes w) (o.accepted w)
  | .deletion h => .cleanup h
  | .callback h _ idMaxLen _ keyMaxLen =>
      if callbackFits w idMaxLen keyMaxLen then .accept h else .idle
  | .transfer _ | .store => .idle

theorem takesLock_free {reached : Option PskHintKey} {lock : Mutex}
    (htakes : takesLock reached lock = true) : lock = .free := by
  cases reached with
  | none => cases htakes
  | some psk =>
    simp only [takesLock, pskTakes, Bool.and_eq_true, beq_iff_eq] at htakes
    exact htakes.2

theorem openMove_enabled (o : Opening) (w : World b) :
    (lockView w).Enabled (openMove o.handle (o.takes w) (o.accepted w)) := by
  cases htakes : o.takes w with
  | false => cases o.accepted w <;> trivial
  | true =>
    have hfree : w.tlsConnLock = .free := takesLock_free htakes
    cases o.accepted w <;> exact hfree

theorem opening_lockView (hpsk : b.pskVerification = true) {o : Opening} {ok : Bool}
    {w w₁ w₂ : World b} (print : Footprint o.handle (o.reached b) w w₁)
    (hend : Concluded o w w₁ w₂ ok) :
    lockView w₂ = (lockView w).apply (openMove o.handle (o.takes w) (o.accepted w)) := by
  have hview : lockView w₁ = if o.takes w then (lockView w).take o.handle else lockView w :=
    lockView_footprint print
  cases hend with
  | accepted haccept _ _ rest =>
    rw [lockView_extends rest, hview, haccept]
    cases o.takes w <;> rfl
  | rejected hreject rest _ =>
    rw [lockView_extends rest, lockView_cleanup hpsk, hview, hreject]
    cases o.takes w <;> rfl

/-- One step of the backend is one enabled move of the protocol. -/
theorem step_lockView (hpsk : b.pskVerification = true) {w w' : World b} {k : Kind}
    (heffect : Effect w w' k) :
    (lockView w).Enabled (lockMove w k) ∧
      lockView w' = (lockView w).apply (lockMove w k) := by
  cases heffect with
  | @opening o ok w₁ w₂ print hend hw' =>
    refine ⟨openMove_enabled o w, ?_⟩
    rw [hw', lockView_record rfl]
    exact opening_lockView hpsk print hend
  | @deletion h hw' =>
    refine ⟨trivial, ?_⟩
    rw [hw', lockView_record rfl]
    exact lockView_cleanup hpsk h w
  | @callback h identity key idMaxLen keyMaxLen ans w₁ _ hrun hw' =>
    simp only [lockMove]
    rw [hw', lockView_record rfl]
    rcases espWolfsslPskClientCb_cases hrun with ⟨hfits, _, rfl⟩ | ⟨hfits, hlock, rfl, _⟩
    · rw [hfits]
      exact ⟨trivial, rfl⟩
    · rw [hfits]
      exact ⟨hlock, lockView_give h w⟩
  | transfer work _ => exact ⟨trivial, lockView_extends work⟩
  | store hw' =>
    rw [hw']
    exact ⟨trivial, rfl⟩

theorem taken_of_holder {w : World b} (hw : (lockView w).Balanced) {y : Handle}
    (hy : lockHolder w = some y) : w.tlsConnLock = .taken :=
  hw.holder_iff.mpr ⟨y, hy⟩

theorem boot_balanced (lockCreated : Bool) :
    (lockView (World.boot b lockCreated)).Balanced where
  flag_iff := by cases lockCreated <;> simp [lockView, World.boot]
  holder_iff := by cases lockCreated <;> simp [lockView, World.boot]

theorem step_balanced (hpsk : b.pskVerification = true) {w w' : World b} {op : Op}
    (hw : (lockView w).Balanced) (hstep : step w op = some w') : (lockView w').Balanced := by
  rw [(step_lockView hpsk (step_effect hstep)).2]
  exact LockState.balanced_apply hw _

/-- In every run the flag, the mutex and the log tell the same story. -/
theorem runs_balanced (hpsk : b.pskVerification = true) {lockCreated : Bool} {ops : List Op}
    {w : World b} (hrun : Runs lockCreated ops w) : (lockView w).Balanced :=
  hrun.invariant (I := fun w => (lockView w).Balanced) (boot_balanced lockCreated)
    fun _ _ _ hw _ hstep => step_balanced hpsk hw hstep

/-- A lock that was created stays so. -/
theorem effect_lock_ne_null (hpsk : b.pskVerification = true) {w w' : World b} {k : Kind}
    (hw : w.tlsConnLock ≠ .null) (heffect : Effect w w' k) : w'.tlsConnLock ≠ .null := by
  have hmutex : w'.tlsConnLock = ((lockView w).apply (lockMove w k)).mutex :=
    congrArg LockState.mutex (step_lockView hpsk heffect).2
  rw [hmutex]
  exact LockState.apply_ne_null hw _

end EspWolfssl.LockSimulation
