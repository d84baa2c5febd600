import EspWolfssl.LockSimulation

/-!
Who gives the lock. The flag that the cleanup asks does not say whose lock it
is, and the callback asks nothing, so a connection gives the lock of another
one. The runs in which that never happens are those in which no operation that
may release the lock runs for anyone but its holder.
-/
namespace EspWolfssl.LockOwnership

open ByteRegions MutexOwnership TaggedLogs Platform BackendState PskClient BackendSteps
  StepEffects LockSimulation GuardedRuns

variable {b : Build}

/-- The operation runs for `x` and ends a connection of it or answers wolfSSL: a
deletion, a creation that fails, also the one of a server session, or a callback
whose answer fits. An accept that fails behind its creation releases nothing. -/
def MayRelease (w : World b) (x : Handle) : Kind → Prop
  | .opening o => o.handle = x ∧ o.accepted w = false
  | .deletion h => h = x
  | .callback h _ idMaxLen _ keyMaxLen => h = x ∧ callbackFits w idMaxLen keyMaxLen = true
  | .transfer _ | .store => False

/-- While a connection holds the lock, no operation that may release it runs for
another one. -/
def Undisturbed (w : World b) (op : Op) : Prop :=
  ∀ y, lockHolder w = some y → ∀ x, MayRelease w x (kind op) → x = y

/-- The protocol's condition on a move is the condition on the operation. -/
theorem respects_iff_undisturbed {w : World b} (hw : (lockView w).Balanced) (op : Op) :
    (lockView w).Respects (lockMove w (kind op)) ↔ Undisturbed w op := by
  unfold Undisturbed
  cases kind op with
  | opening o =>
    cases htakes : o.takes w with
    | true =>
      have hfree : w.tlsConnLock = .free := takesLock_free htakes
      have hnone : ∀ y, lockHolder w ≠ some y := by
        intro y hy
        have htaken := taken_of_holder hw hy
        rw [hfree] at htaken
        cases htaken
      cases haccept : o.accepted w <;>
        simp [lockMove, openMove, htakes, haccept, LockState.Respects, hnone]
    | false =>
      cases haccept : o.accepted w with
      | true => simp [lockMove, openMove, htakes, haccept, LockState.Respects, MayRelease]
      | false =>
        simp only [lockMove, openMove, htakes, haccept, LockState.Respects, MayRelease, and_true]
        exact ⟨fun h y hy x hx => hx ▸ h y hy, fun h y hy => h y hy _ rfl⟩
  | deletion h =>
    simp only [lockMove, LockState.Respects, MayRelease]
    exact ⟨fun hr y hy x hx => hx ▸ hr y hy, fun hr y hy => hr y hy _ rfl⟩
  | callback h identity idMaxLen key keyMaxLen =>
    cases hfits : callbackFits w idMaxLen keyMaxLen with
    | true =>
      simp only [lockMove, hfits, if_true, LockState.Respects, MayRelease, and_true]
      exact ⟨fun hr y hy x hx => hx ▸ hr y hy, fun hr y hy => hr y hy _ rfl⟩
    | false => simp [lockMove, hfits, LockState.Respects, MayRelease]
  | transfer h => simp [lockMove, LockState.Respects, MayRelease]
  | store => simp [lockMove, LockState.Respects, MayRelease]

theorem step_ownedGives (hpsk : b.pskVerification = true) {w w' : World b} {op : Op}
    (hw : (lockView w).Balanced) (hstep : step w op = some w') :
    OwnedGives (view Event.lockAction w'.log) ↔
      OwnedGives (view Event.lockAction w.log) ∧ Undisturbed w op := by
  have hview := (step_lockView hpsk (step_effect hstep)).2
  have hlog : view Event.lockAction w'.log =
      ((lockView w).apply (lockMove w (kind op))).log := congrArg LockState.log hview
  rw [hlog, LockState.ownedGives_apply hw, respects_iff_undisturbed hw]
  rfl

/-- In a run every give of the taken lock was made by its holder exactly when
the holder was never disturbed. -/
theorem owned_gives_iff_undisturbed (hpsk : b.pskVerification = true) {lockCreated : Bool}
    {ops : List Op} {w : World b} (hrun : Runs lockCreated ops w) :
    OwnedGives (view Event.lockAction w.log) ↔
      Run step Undisturbed (World.boot b lockCreated) ops w := by
  have hboot : OwnedGives (view Event.lockAction (World.boot b lockCreated).log) :=
    ownedGives_nil
  exact hrun.iff_of_step (I := fun w => OwnedGives (view Event.lockAction w.log))
    (J := fun w => (lockView w).Balanced) (boot_balanced lockCreated) hboot
    (fun _ _ _ hw hstep => step_balanced hpsk hw hstep)
    fun _ _ _ hw hstep => step_ownedGives hpsk hw hstep

/-- A client that authenticates with a pre-shared key connects, alone. -/
def loneClient : List Op :=
  [.createSslHandle 0 .client 3 [] (.client (pskClient hintA 7)) allSucceed,
    .pskClientCb 0 (List.replicate 128 0) 128 (List.replicate 64 0) 64, .connDelete (some 0)]

theorem owned_gives_of_lone_client :
    ∃ w : World exampleBuild, Runs true loneClient w ∧
      (OwnedGives (view Event.lockAction w.log) ↔
        Run step Undisturbed (World.boot exampleBuild true) loneClient w) :=
  ⟨_, Run.free_iff.mpr rfl, owned_gives_iff_undisturbed rfl (Run.free_iff.mpr rfl)⟩

/-- A client without a pre-shared key connects and is deleted while a client with
one holds the lock. -/
def strangerDeleted : List Op :=
  [.createSslHandle 0 .client 3 [] (.client (pskClient hintA 7)) allSucceed,
    .createSslHandle 1 .client 4 [] (.client plainClient) allSucceed, .connDelete (some 1)]

theorem owned_gives_fails :
    ¬ ∀ (b : Build) (lockCreated : Bool) (ops : List Op) (w : World b),
      b.pskVerification = true → Runs lockCreated ops w →
        OwnedGives (view Event.lockAction w.log) := by
  intro h
  have hrun : ∃ w : World exampleBuild, Runs true strangerDeleted w ∧
      view Event.lockAction w.log = [(0, .take), (1, .give)] :=
    ⟨_, Run.free_iff.mpr rfl, rfl⟩
  obtain ⟨w, hrun, hlog⟩ := hrun
  have howned := h exampleBuild true strangerDeleted w rfl hrun
  rw [hlog] at howned
  have hsame : 1 = 0 := howned [(0, .take)] (1, .give) [] rfl rfl 0 rfl
  omega

end EspWolfssl.LockOwnership
