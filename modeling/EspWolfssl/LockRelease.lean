import EspWolfssl.LockSimulation

/-!
The lock is never leaked: whoever holds it is a client that authenticates with
a pre-shared key, was opened and has not been deleted. Releases by the wrong
connection do not break this, since they only ever free the lock.
-/
namespace EspWolfssl.LockRelease

open ByteRegions MutexOwnership TaggedLogs Platform ProgramLogic BackendState PskClient
  HandleCreation BackendSteps OperationFrames CreationOutcomes CreationFootprints StepEffects
  LockSimulation GuardedRuns

variable {b : Build}

/-- Whether an event opens a pre-shared key client or ends a connection. -/
def pskStatus (b : Build) : Event → Option Bool
  | .opened (.client cfg) true => if (pskSource b cfg).isSome then some true else none
  | .deleted => some false
  | _ => none

/-- A pre-shared key client was opened on the handle, with `ESP_OK`, and has not
been deleted. -/
def PskLive (w : World b) (x : Handle) : Prop := latest (pskStatus b) x w.log = some true

instance (w : World b) (x : Handle) : Decidable (PskLive w x) := by
  unfold PskLive
  infer_instance

/-- Whoever holds the lock is live. -/
def HolderLive (w : World b) : Prop := ∀ x, lockHolder w = some x → PskLive w x

section Live
variable {h x : Handle} {w w' : World b}

theorem pskStatus_inner {e : Event} (he : Inner e) : pskStatus b e = none := by
  cases e <;> first | rfl | exact he.elim

theorem live_grows (hw : Grows Inner h w w') : PskLive w' x ↔ PskLive w x := by
  unfold PskLive
  rw [hw.latest_eq fun _ => pskStatus_inner]

/-- Only a deletion ends a connection. -/
theorem live_record {e : Event} (he : pskStatus b e ≠ some false) (hx : PskLive w x) :
    PskLive (w.record h e) x := by
  unfold PskLive at *
  rw [latest_record]
  split
  · cases hstatus : pskStatus b e with
    | none => simpa using hx
    | some v =>
      rw [hstatus] at he
      cases v with
      | true => rfl
      | false => exact absurd rfl he
  · simpa using hx

theorem opened_status (cfg : Cfg) (ok : Bool) : pskStatus b (.opened cfg ok) ≠ some false := by
  cases cfg with
  | client cfg => cases ok <;> simp [pskStatus]
  | server cfg => simp [pskStatus]

/-- A creation whose branch took the lock opens a pre-shared key client. -/
theorem opened_live {o : Opening} (htakes : o.takes w = true) (w₂ : World b) (ok : Bool)
    (hok : o.role = .client → ok = true) :
    PskLive (w₂.record o.handle (.opened o.cfg ok)) o.handle := by
  cases hreached : o.reached b with
  | none =>
    rw [Opening.takes, hreached] at htakes
    cases htakes
  | some psk =>
    obtain ⟨hrole, c, hcfg, hsource⟩ := source_of_reached hreached
    rw [hcfg, hok hrole]
    unfold PskLive
    rw [latest_record, if_pos rfl]
    simp [pskStatus, hsource]

end Live

theorem boot_holderLive (lockCreated : Bool) : HolderLive (World.boot b lockCreated) := by
  intro x hx
  cases hx

/-- The holder behind an opening is the connection it opened, or the one before. -/
theorem opening_holderLive {o : Opening} {ok : Bool} {w w₁ w₂ : World b}
    (hbalanced : (lockView w).Balanced) (hw : HolderLive w)
    (print : Footprint o.handle (o.reached b) w w₁) (hend : Concluded o w w₁ w₂ ok)
    {x : Handle} (hx : holder
      ((lockView w).apply (openMove o.handle (o.takes w) (o.accepted w))).log = some x) :
    PskLive (w₂.record o.handle (.opened o.cfg ok)) x := by
  have hgrows := concluded_grows print hend
  cases htakes : o.takes w with
  | true =>
    cases haccept : o.accepted w with
    | true =>
      simp only [openMove, htakes, haccept, LockState.apply, LockState.take, holder_take,
        Option.some.injEq] at hx
      subst hx
      cases hend with
      | accepted _ hok _ _ => exact opened_live htakes w₂ ok hok
      | rejected hreject _ _ =>
        rw [haccept] at hreject
        cases hreject
    | false =>
      simp only [openMove, htakes, haccept, LockState.apply] at hx
      rw [LockState.holder_cleanup (LockState.balanced_take _ _)] at hx
      cases hx
  | false =>
    cases haccept : o.accepted w with
    | true =>
      simp only [openMove, htakes, haccept, LockState.apply] at hx
      exact live_record (opened_status _ _) ((live_grows hgrows).mpr (hw x hx))
    | false =>
      simp only [openMove, htakes, haccept, LockState.apply] at hx
      rw [LockState.holder_cleanup hbalanced] at hx
      cases hx

theorem step_holderLive (hpsk : b.pskVerification = true) {w w' : World b} {op : Op}
    (hbalanced : (lockView w).Balanced) (hw : HolderLive w) (hstep : step w op = some w') :
    HolderLive w' := by
  have heffect := step_effect hstep
  have hview := (step_lockView hpsk heffect).2
  intro x hx
  change holder (lockView w').log = some x at hx
  rw [hview] at hx
  generalize hk : kind op = k at heffect hx
  cases heffect with
  | opening print hend hw' => exact hw' ▸ opening_holderLive hbalanced hw print hend hx
  | deletion hw' =>
    simp only [lockMove, LockState.apply] at hx
    rw [LockState.holder_cleanup hbalanced] at hx
    cases hx
  | @callback h identity key idMaxLen keyMaxLen ans w₁ _ hrun hw' =>
    subst hw'
    rcases espWolfsslPskClientCb_cases hrun with ⟨hfits, _, rfl⟩ | ⟨hfits, _, _, _⟩
    · simp only [lockMove, hfits, Bool.false_eq_true, if_false, LockState.apply] at hx
      exact live_record (by simp [pskStatus]) (hw x hx)
    · simp only [lockMove, hfits, if_true, LockState.apply, LockState.give, holder_give] at hx
      cases hx
  | transfer work _ =>
    exact (live_grows (work.toGrows.mono fun _ => Quiet.inner)).mpr (hw x hx)
  | store hw' =>
    subst hw'
    exact hw x hx

/-- In every run whoever holds the lock is live. -/
theorem runs_holderLive (hpsk : b.pskVerification = true) {lockCreated : Bool}
    {ops : List Op} {w : World b} (hrun : Runs lockCreated ops w) : HolderLive w := by
  have hboth := hrun.invariant (I := fun w => (lockView w).Balanced ∧ HolderLive w)
    ⟨boot_balanced lockCreated, boot_holderLive lockCreated⟩
    fun _ _ _ hw _ hstep =>
      ⟨step_balanced hpsk hw.1 hstep, step_holderLive hpsk hw.1 hw.2 hstep⟩
  exact hboth.2

/-- Nothing ever touched the lock, and wolfSSL has no callback that could. -/
structure LockAbsent (w : World b) : Prop where
  view_eq : lockView w = ⟨.null, false, []⟩
  no_callback : ∀ x, latest callbackSetting x w.log ≠ some true

theorem cleanup_extends_of_not_held {h : Handle} {w : World b}
    (hflag : w.tlsConnLockHeld = false) : Extends h w (espWolfsslCleanup h w) := by
  have hwork := espWolfsslCleanup_extends h w
  rwa [releaseConnLock, hflag, Bool.and_false] at hwork

theorem LockAbsent.extend {h : Handle} {w w' : World b} (hw : LockAbsent w)
    (work : Extends h w w') : LockAbsent w' where
  view_eq := (lockView_extends work).trans hw.view_eq
  no_callback := fun x =>
    work.toGrows.latest_ne (fun _ => callbackSetting_quiet) (hw.no_callback x)

theorem LockAbsent.record {h : Handle} {e : Event} {w : World b} (hw : LockAbsent w)
    (hlock : e.lockAction = none) (hcallback : callbackSetting e = none) :
    LockAbsent (w.record h e) where
  view_eq := (lockView_record hlock h w).trans hw.view_eq
  no_callback := fun x => by
    rw [latest_record, hcallback]
    simpa using hw.no_callback x

theorem boot_lockAbsent : LockAbsent (World.boot b false) where
  view_eq := rfl
  no_callback := fun _ => by simp [World.boot]

theorem step_lockAbsent {w w' : World b} {op : Op} (hw : LockAbsent w)
    (hstep : step w op = some w') : LockAbsent w' := by
  have hlock : w.tlsConnLock = .null := congrArg LockState.mutex hw.view_eq
  have hflag : ∀ {w₁ : World b}, LockAbsent w₁ → w₁.tlsConnLockHeld = false :=
    fun hw₁ => congrArg LockState.flag hw₁.view_eq
  have heffect := step_effect hstep
  generalize kind op = k at heffect
  cases heffect with
  | @opening o ok w₁ w₂ print hend hw' =>
    subst hw'
    have hfirst : LockAbsent w₁ := by
      cases print with
      | quiet _ work => exact hw.extend work
      | refused _ _ hfree =>
        rw [hlock] at hfree
        cases hfree
      | stored _ _ hfree =>
        rw [hlock] at hfree
        cases hfree
    refine LockAbsent.record ?_ rfl rfl
    cases hend with
    | accepted _ _ _ rest => exact hfirst.extend rest
    | rejected _ rest _ =>
      exact (hfirst.extend (cleanup_extends_of_not_held (hflag hfirst))).extend rest
  | deletion hw' =>
    subst hw'
    exact (hw.extend (cleanup_extends_of_not_held (hflag hw))).record rfl rfl
  | callback hinstalled hrun hw' => exact absurd hinstalled.2 (hw.no_callback _)
  | transfer work _ => exact hw.extend work
  | store hw' =>
    subst hw'
    exact ⟨hw.view_eq, hw.no_callback⟩

theorem runs_lock_ne_null (hpsk : b.pskVerification = true) {ops : List Op} {w : World b}
    (hrun : Runs true ops w) : w.tlsConnLock ≠ .null :=
  hrun.invariant (I := fun w => w.tlsConnLock ≠ .null) (by simp [World.boot])
    fun _ _ _ hw _ hstep => effect_lock_ne_null hpsk hw (step_effect hstep)

/-- A creation times out only while the lock is taken. -/
theorem taken_of_timeout {h : Handle} {role : Role} {sockfd : Int32} {hostname : List UInt8}
    {cfg : Cfg} {ans : CreateAnswers} {w w' : World b}
    (hrun : espWolfsslCreateSslHandle h hostname cfg ans (w.setEndpoint h role sockfd) =
      (.ok .timeout, w')) : w.tlsConnLock = .taken := by
  obtain ⟨_, _, hend⟩ := createSslHandle_cases hrun
  rcases hend with ⟨hok, _⟩ | ⟨hrefused, _⟩
  · cases hok
  · exact hrefused.2 rfl

/-- In every run the flag says whether the lock is taken, and a taken lock has a
live client; so without one the lock is free and no creation times out. A lock
that was never created is never taken or given. -/
theorem tlsConnLock_never_leaked (hpsk : b.pskVerification = true) {lockCreated : Bool}
    {ops : List Op} {w : World b} (hrun : Runs lockCreated ops w) :
    (w.tlsConnLockHeld = true ↔ w.tlsConnLock = .taken) ∧
      (w.tlsConnLock = .taken → ∃ x, PskLive w x) ∧
      ((∀ x, ¬ PskLive w x) →
        (lockCreated = true → w.tlsConnLock = .free) ∧
          ∀ h role sockfd hostname cfg ans e w',
            espWolfsslCreateSslHandle h hostname cfg ans (w.setEndpoint h role sockfd) =
              (.ok e, w') → e ≠ .timeout) ∧
      (lockCreated = false →
        view Event.lockAction w.log = [] ∧ ∀ x, ¬ CallbackInstalled w x) := by
  have hbalanced := runs_balanced hpsk hrun
  have hlive : w.tlsConnLock = .taken → ∃ x, PskLive w x := by
    intro htaken
    obtain ⟨x, hx⟩ := hbalanced.holder_iff.mp htaken
    exact ⟨x, runs_holderLive hpsk hrun x hx⟩
  refine ⟨hbalanced.flag_iff, hlive, ?_, ?_⟩
  · intro hnone
    have hnotTaken : w.tlsConnLock ≠ .taken := fun htaken => by
      obtain ⟨x, hx⟩ := hlive htaken
      exact hnone x hx
    refine ⟨?_, ?_⟩
    · rintro rfl
      have hcreated := runs_lock_ne_null hpsk hrun
      cases hlock : w.tlsConnLock with
      | null => exact absurd hlock hcreated
      | free => rfl
      | taken => exact absurd hlock hnotTaken
    · rintro h role sockfd hostname cfg ans e w' hcreate rfl
      exact hnotTaken (taken_of_timeout hcreate)
  · rintro rfl
    have habsent := hrun.invariant (I := LockAbsent) boot_lockAbsent
      fun _ _ _ hw _ hstep => step_lockAbsent hw hstep
    exact ⟨congrArg LockState.log habsent.view_eq,
      fun x hinstalled => habsent.no_callback x hinstalled.2⟩

/-- A client that authenticates with a pre-shared key is opened. -/
def openedClient : List Op :=
  [.createSslHandle 0 .client 3 [] (.client (pskClient hintA 7)) allSucceed]

theorem tlsConnLock_of_opened_client :
    ∃ w : World exampleBuild, Runs true openedClient w ∧ w.tlsConnLockHeld = true ∧
      ∃ x, PskLive w x := by
  have hopen : ∃ w : World exampleBuild, Runs true openedClient w ∧ w.tlsConnLock = .taken :=
    ⟨_, Run.free_iff.mpr rfl, rfl⟩
  obtain ⟨w, hrun, htaken⟩ := hopen
  obtain ⟨hflag, hlive, _, _⟩ := tlsConnLock_never_leaked rfl hrun
  exact ⟨w, hrun, hflag.mpr htaken, hlive htaken⟩

end EspWolfssl.LockRelease
