import EspWolfssl.LockOwnership
import EspWolfssl.LockRelease
import EspWolfssl.ObjectLifecycle
import EspWolfssl.PskCrossTalk

/-!
One connection at a time. When an operation runs for a handle only while all
other handles are closed, the shared lock and the shared credentials are as good
as the connection's own.
-/
namespace EspWolfssl.SoleConnection

open MutexOwnership TaggedLogs Platform ProgramLogic BackendState PskClient HandleCreation
  BackendSteps OperationFrames CreationOutcomes CreationFootprints StepEffects LockSimulation
  LockOwnership LockRelease ObjectLedger LifecycleStages ObjectLifecycle PskStatics PskCrossTalk
  GuardedRuns

variable {b : Build}

def Closed (w : World b) (x : Handle) : Prop := objects w x = (none, none)

/-- All handles but the one of the operation are closed, and a creation finds
that one closed, too. -/
def Alone (w : World b) (op : Op) : Prop :=
  OnNull w op ∧ ∀ h, handleOf (kind op) = some h → ∀ x, x ≠ h → Closed w x

/-- A live client with a pre-shared key has objects. -/
def LiveOpen (w : World b) : Prop := ∀ x, PskLive w x → ¬ Closed w x

/-- The credentials stored last are those of any connection with the callback. -/
def OwnLast (w : World b) : Prop :=
  ∀ x, CallbackInstalled w x → lastStored w.log = ownCredentials w.log x

structure Sole (w : World b) : Prop where
  one : ∀ x y, ¬ Closed w x → ¬ Closed w y → x = y
  tidy : Tidy w
  balanced : (lockView w).Balanced
  holderLive : HolderLive w
  liveOpen : LiveOpen w
  consistent : Consistent w
  ownLast : OwnLast w

section Live
variable {h x : Handle} {w w' : World b}

theorem onNull_of_opening {op : Op} {o : Opening} (hnull : OnNull w op)
    (ho : kind op = .opening o) : Closed w o.handle := by
  cases op with
  | createSslHandle h role sockfd hostname cfg ans =>
    cases ho
    exact hnull
  | serverSessionCreate h cfg sockfd ans accepts =>
    cases h with
    | none => cases ho
    | some h =>
      cases cfg with
      | none => cases ho
      | some cfg =>
        cases ho
        exact hnull
  | connDelete h => cases h <;> cases ho
  | serverSessionDelete h => cases h <;> cases ho
  | _ => cases ho

/-- Nobody is open when a connection is created. -/
theorem all_closed {op : Op} {o : Opening} (halone : Alone w op) (ho : kind op = .opening o)
    (x : Handle) : Closed w x := by
  by_cases hx : x = o.handle
  · rw [hx]
    exact onNull_of_opening halone.1 ho
  · exact halone.2 o.handle (by rw [ho, handleOf]) x hx

theorem not_installed_of_closed (hclosed : Closed w x) : ¬ CallbackInstalled w x :=
  PskCrossTalk.not_installed_of_cleared hclosed

/-- An opening makes a client live only by leaving it its objects. -/
theorem opening_liveOpen {op : Op} {o : Opening} (hw : Sole w) (hnull : OnNull w op)
    (ho : kind op = .opening o) (hstep : step w op = some w') (hlive : PskLive w' o.handle) :
    ¬ Closed w' o.handle := by
  have hdead : ¬ PskLive w o.handle := fun hx => hw.liveOpen _ hx (onNull_of_opening hnull ho)
  cases op with
  | createSslHandle h role sockfd hostname cfg ans =>
    cases ho
    obtain ⟨e, w₁, hrun, rfl⟩ := returning_eq_some.mp hstep
    have hstart := setEndpoint_at ⟨hw.tidy, hnull⟩ role sockfd
    have hend := Prog.Triple.of_ok (espWolfsslCreateSslHandle_sound hostname cfg ans) hstart hrun
    split at hend
    · obtain ⟨ctx, ssl, hopened⟩ := hend
      intro hclosed
      have hobjects : objects w₁ h = (none, none) := hclosed
      rw [hopened.objects] at hobjects
      cases hobjects
    · rename_i he
      obtain ⟨w₂, hprint, hcases⟩ := createSslHandle_cases hrun
      have hgrows : Grows Inner h w w₁ := by
        have hset : Extends h w (w.setEndpoint h role sockfd) := (Extends.refl h w).setEndpoint _ _
        have hfirst := (hset.toGrows.mono fun _ => Quiet.inner).trans hprint.grows
        rcases hcases with ⟨hok, _⟩ | ⟨_, _, rfl⟩
        · exact absurd hok he
        · exact hfirst.trans (espWolfsslCleanup_grows h w₂)
      refine absurd ?_ hdead
      have hfailed : (e == EspErr.ok) = false := beq_eq_false_iff_ne.mpr he
      unfold PskLive at hlive
      rw [latest_record, if_pos rfl, hfailed] at hlive
      refine (live_grows hgrows).mp ?_
      cases cfg <;> simpa [pskStatus, PskLive] using hlive
  | serverSessionCreate h cfg sockfd ans accepts =>
    cases h with
    | none => cases ho
    | some h =>
      cases cfg with
      | none => cases ho
      | some cfg =>
        cases ho
        have heffect := step_effect hstep
        cases heffect with
        | opening print hend hw' =>
          subst hw'
          refine absurd ?_ hdead
          refine (live_grows (concluded_grows print hend)).mp ?_
          unfold PskLive at hlive
          rw [latest_record, if_pos rfl] at hlive
          simpa [pskStatus, PskLive] using hlive
  | connDelete h => cases h <;> cases ho
  | serverSessionDelete h => cases h <;> cases ho
  | _ => cases ho

theorem closed_iff (hsame : objects w' x = objects w x) : Closed w' x ↔ Closed w x := by
  unfold Closed
  rw [hsame]

theorem closed_of_tls (hsame : w'.tls x = w.tls x) : Closed w' x ↔ Closed w x :=
  closed_iff (by simp only [objects, hsame])

/-- A callback keeps the fields of every handle and ends no connection. -/
theorem callback_keeps {identity key : List UInt8} {idMaxLen keyMaxLen : UInt32}
    (heffect : Effect w w' (.callback h identity idMaxLen key keyMaxLen)) :
    w'.tls = w.tls ∧ (PskLive w' x → PskLive w x) ∧ SameStore w w' ∧
      Grows Neutral h w w' := by
  cases heffect with
  | @callback _ _ _ _ _ ans w₁ _ hrun hw' =>
    subst hw'
    have hanswer : Neutral (.pskAnswered ans.len ans.identity ans.key) := by
      simp [Neutral, callbackSetting, openedWith]
    have hlive : ∀ u : World b, PskLive (u.record h (.pskAnswered ans.len ans.identity ans.key)) x →
        PskLive u x := by
      intro u hu
      unfold PskLive at *
      rw [latest_record] at hu
      split at hu
      · simpa [pskStatus] using hu
      · exact hu
    rcases espWolfsslPskClientCb_cases hrun with ⟨_, _, rfl⟩ | ⟨_, _, rfl, _⟩
    · exact ⟨rfl, hlive _, .record rfl h _, (Grows.refl Neutral h _).record hanswer⟩
    · have hgives : Grows Inner h w (giveConnLock h w) := giveConnLock_grows trivial h w
      refine ⟨rfl, fun hx => (live_grows hgives).mp (hlive _ hx),
        (SameStore.giveConnLock h w).trans (.record rfl h _), ?_⟩
      exact (giveConnLock_grows (by simp [Neutral, callbackSetting, openedWith]) h w).record hanswer

/-- Behind a step only the handle of the operation may be open. -/
theorem step_one {op : Op} (hw : Sole w) (halone : Alone w op) (hstep : step w op = some w')
    {x y : Handle} (hx : ¬ Closed w' x) (hy : ¬ Closed w' y) : x = y := by
  have heffect := step_effect hstep
  cases hhandle : handleOf (kind op) with
  | none =>
    have hsame : ∀ z, Closed w' z ↔ Closed w z := fun z =>
      closed_of_tls (step_others heffect (by simp [hhandle]))
    exact hw.one x y (mt (hsame x).mpr hx) (mt (hsame y).mpr hy)
  | some h =>
    have hopen : ∀ z, ¬ Closed w' z → z = h := by
      intro z hz
      by_contra hne
      have hsame : Closed w' z ↔ Closed w z :=
        closed_of_tls (step_others heffect (by simpa [hhandle] using Ne.symm hne))
      exact hz (hsame.mpr (halone.2 h hhandle z hne))
    rw [hopen x hx, hopen y hy]

theorem step_liveOpen {op : Op} (hw : Sole w) (hnull : OnNull w op)
    (hstep : step w op = some w') : LiveOpen w' := by
  intro x hlive
  have heffect := step_effect hstep
  have hopening := fun o ho => opening_liveOpen (o := o) hw hnull ho hstep
  have hother : handleOf (kind op) ≠ some x → (PskLive w' x → PskLive w x) → ¬ Closed w' x := by
    intro hx hback
    rw [closed_of_tls (step_others heffect hx)]
    exact hw.liveOpen x (hback hlive)
  generalize kind op = k at heffect hopening hother
  cases heffect with
  | @opening o ok w₁ w₂ print hend hw' =>
    by_cases hx : x = o.handle
    · subst hx
      exact hopening o rfl hlive
    · refine hother (by simpa [handleOf] using Ne.symm hx) fun hx' => ?_
      have hgrows := ((concluded_grows print hend).mono fun _ _ => trivial).record
        (P := fun _ => True) (e := .opened o.cfg ok) trivial
      unfold PskLive at *
      rwa [hw', hgrows.latest_other _ hx] at hx'
  | @deletion h hw' =>
    subst hw'
    have hclean := espWolfsslCleanup_grows h w
    by_cases hx : x = h
    · subst hx
      unfold PskLive at hlive
      rw [latest_record, if_pos rfl] at hlive
      cases hlive
    · refine hother (by simpa [handleOf] using Ne.symm hx) fun hx' => (live_grows hclean).mp ?_
      unfold PskLive at *
      rwa [latest_record, if_neg (Ne.symm hx)] at hx'
  | callback hinstalled hrun hw' =>
    obtain ⟨htls, hback, _⟩ := callback_keeps (x := x) (.callback hinstalled hrun hw')
    rw [closed_of_tls (congrFun htls x)]
    exact hw.liveOpen x (hback hlive)
  | @transfer h work hkeep =>
    have hback := (live_grows (x := x) (work.toGrows.mono fun _ => Quiet.inner)).mp
    by_cases hx : x = h
    · subst hx
      rw [closed_iff hkeep]
      exact hw.liveOpen x (hback hlive)
    · exact hother (by simpa [handleOf] using Ne.symm hx) hback
  | store hw' =>
    subst hw'
    exact hw.liveOpen x hlive

theorem step_ownLast {op : Op} (hw : Sole w) (halone : Alone w op)
    (hstep : step w op = some w') : OwnLast w' := by
  have heffect := step_effect hstep
  have hclosed := fun o ho => all_closed (o := o) halone ho
  -- Steps that store nothing and install nothing keep the agreement.
  have hkeep : SameStore w w' → (∀ x, CallbackInstalled w' x →
      CallbackInstalled w x ∧ ownCredentials w'.log x = ownCredentials w.log x) →
      OwnLast w' := by
    intro hsame hinstalled x hx
    obtain ⟨hbefore, hown⟩ := hinstalled x hx
    rw [hsame.1, hown]
    exact hw.ownLast x hbefore
  generalize kind op = k at heffect hclosed
  cases heffect with
  | @opening o ok w₁ w₂ print hend hw' =>
    subst hw'
    intro x hx
    have hgrows := ((concluded_grows print hend).mono fun _ _ => trivial).record
      (P := fun _ => True) (e := .opened o.cfg ok) trivial
    by_cases hxo : x = o.handle
    · subst hxo
      obtain ⟨cred, hlast, hown⟩ := opening_installed print hend hx
      rw [hown, ← hlast, (SameStore.record rfl o.handle w₂).1]
    · exact absurd (installed_other hgrows hxo hx) (not_installed_of_closed (hclosed o rfl x))
  | @deletion h hw' =>
    subst hw'
    have hgrows : Grows (fun _ => True) h w ((espWolfsslCleanup h w).record h .deleted) :=
      ((espWolfsslCleanup_grows h w).mono fun _ _ => trivial).record trivial
    refine hkeep ((SameStore.cleanup h w).trans (.record rfl h _)) fun x hx => ?_
    by_cases hxh : x = h
    · subst hxh
      exact absurd hx (not_installed_of_closed (espWolfsslCleanup_cleared x w))
    · exact ⟨installed_other hgrows hxh hx, own_other hgrows hxh⟩
  | @callback h _ _ _ _ _ _ hinstalled hrun hw' =>
    obtain ⟨htls, _, hsame, hgrows⟩ := callback_keeps (x := h) (.callback hinstalled hrun hw')
    have hobjects : objects w' h = objects w h := by simp only [objects, htls]
    exact hkeep hsame fun x hx => ⟨installed_neutral hgrows hobjects hx, own_neutral hgrows⟩
  | @transfer h work hobjects =>
    have hgrows : Grows Neutral h w w' := work.toGrows.mono fun e he =>
      ⟨callbackSetting_quiet he, by cases e <;> first | rfl | exact he.elim⟩
    exact hkeep (.of_extends work)
      fun x hx => ⟨installed_neutral hgrows hobjects hx, own_neutral hgrows⟩
  | store hw' =>
    subst hw'
    exact hw.ownLast

end Live

theorem boot_sole (lockCreated : Bool) : Sole (World.boot b lockCreated) where
  one := fun x _ hx _ => absurd rfl hx
  tidy := boot_tidy b lockCreated
  balanced := boot_balanced lockCreated
  holderLive := boot_holderLive lockCreated
  liveOpen := by
    intro x hlive
    simp [PskLive, World.boot] at hlive
  consistent := boot_consistent lockCreated
  ownLast := by
    intro x hinstalled
    exact absurd hinstalled (not_installed_of_closed rfl)

theorem step_sole (hpsk : b.pskVerification = true) {w w' : World b} {op : Op} (hw : Sole w)
    (halone : Alone w op) (hstep : step w op = some w') : Sole w' where
  one := fun _ _ hx hy => step_one hw halone hstep hx hy
  tidy := step_tidy hw.tidy halone.1 hstep
  balanced := step_balanced hpsk hw.balanced hstep
  holderLive := step_holderLive hpsk hw.balanced hw.holderLive hstep
  liveOpen := step_liveOpen hw halone.1 hstep
  consistent := step_consistent hw.consistent hstep
  ownLast := step_ownLast hw halone hstep

/-- The holder of the lock is the one whose operation runs. -/
theorem undisturbed_of_alone {w : World b} {op : Op} (hw : Sole w) (halone : Alone w op) :
    Undisturbed w op := by
  intro y hy x hrelease
  have hopen : ¬ Closed w y := hw.liveOpen y (hw.holderLive y hy)
  have hhandle : handleOf (kind op) = some x := by
    cases hk : kind op with
    | opening o =>
      rw [hk] at hrelease
      exact congrArg some hrelease.1
    | deletion h =>
      rw [hk] at hrelease
      exact congrArg some hrelease
    | callback h identity idMaxLen key keyMaxLen =>
      rw [hk] at hrelease
      exact congrArg some hrelease.1
    | transfer h =>
      rw [hk] at hrelease
      exact hrelease.elim
    | store =>
      rw [hk] at hrelease
      exact hrelease.elim
  by_contra hne
  exact hopen (halone.2 x hhandle y (Ne.symm hne))

/-- A callback that runs finds its own credentials stored last. -/
theorem undisplaced_of_step {w w' : World b} {op : Op} (hw : Sole w)
    (hstep : step w op = some w') : Undisplaced w op := by
  have heffect := step_effect hstep
  unfold Undisplaced
  generalize kind op = k at heffect
  cases heffect with
  | callback hinstalled _ _ => exact fun _ => hw.ownLast _ hinstalled
  | _ => trivial

/-- In every run in which an operation runs for a handle only while the others
are closed, only the holder gives the lock, every callback answers with its own
connection's credentials, and no creation times out on the lock. -/
theorem one_at_a_time_safe (hpsk : b.pskVerification = true) {lockCreated : Bool}
    {ops : List Op} {w : World b} (hrun : Run step Alone (World.boot b lockCreated) ops w) :
    OwnedGives (view Event.lockAction w.log) ∧ OwnAnswers w.log ∧
      (∀ x y, ¬ Closed w x → ¬ Closed w y → x = y) ∧
      ∀ h role sockfd hostname cfg ans e w',
        Alone w (.createSslHandle h role sockfd hostname cfg ans) →
          espWolfsslCreateSslHandle h hostname cfg ans (w.setEndpoint h role sockfd) =
            (.ok e, w') → e ≠ .timeout := by
  have hboth := hrun.invariant
    (I := fun w => Sole w ∧ OwnedGives (view Event.lockAction w.log) ∧ OwnAnswers w.log)
    ⟨boot_sole lockCreated, ownedGives_nil, throughout_nil _⟩ fun _ _ _ hw halone hstep =>
      ⟨step_sole hpsk hw.1 halone hstep,
        (step_ownedGives hpsk hw.1.balanced hstep).mpr ⟨hw.2.1, undisturbed_of_alone hw.1 halone⟩,
        (step_ownAnswers hw.1.consistent hstep).mpr ⟨hw.2.2, undisplaced_of_step hw.1 hstep⟩⟩
  obtain ⟨hw, hgives, hanswers⟩ := hboth
  refine ⟨hgives, hanswers, hw.one, ?_⟩
  rintro h role sockfd hostname cfg ans e w' halone hcreate rfl
  obtain ⟨y, hy⟩ := hw.balanced.holder_iff.mp (taken_of_timeout hcreate)
  exact hw.liveOpen y (hw.holderLive y hy) (all_closed halone rfl y)

def firstClient : Op :=
  .createSslHandle 0 .client 3 [] (.client (pskClient hintA 7)) allSucceed

def firstAnswer : Op := .pskClientCb 0 (List.replicate 128 0) 128 (List.replicate 64 0) 64

def secondClient : Op :=
  .createSslHandle 1 .client 4 [] (.client (pskClient hintB 9)) allSucceed

theorem closed_of_other {w w' : World b} {op : Op} {x : Handle} (hclosed : Closed w x)
    (hstep : step w op = some w') (hx : handleOf (kind op) ≠ some x) : Closed w' x :=
  (closed_of_tls (step_others (step_effect hstep) hx)).mpr hclosed

theorem safe_in_turn :
    ∃ w : World exampleBuild, Run step Alone (World.boot exampleBuild true)
        [firstClient, firstAnswer, .connDelete (some 0), secondClient] w ∧
      OwnedGives (view Event.lockAction w.log) ∧ OwnAnswers w.log := by
  have hsteps : ∃ w₁ w₂ w₃ w₄ : World exampleBuild,
      step (World.boot exampleBuild true) firstClient = some w₁ ∧
      step w₁ firstAnswer = some w₂ ∧ step w₂ (.connDelete (some 0)) = some w₃ ∧
      step w₃ secondClient = some w₄ ∧ Closed w₃ 0 ∧ Closed w₃ 1 :=
    ⟨_, _, _, _, rfl, rfl, rfl, rfl, rfl, rfl⟩
  obtain ⟨w₁, w₂, w₃, w₄, h₁, h₂, h₃, h₄, hfirst, hsecond⟩ := hsteps
  have hboot : ∀ x, Closed (World.boot exampleBuild true) x := fun _ => rfl
  have hclosed₁ : ∀ x, x ≠ 0 → Closed w₁ x := fun x hx =>
    closed_of_other (hboot x) h₁ fun heq => hx (Option.some.inj heq).symm
  have hclosed₂ : ∀ x, x ≠ 0 → Closed w₂ x := fun x hx =>
    closed_of_other (hclosed₁ x hx) h₂ fun heq => hx (Option.some.inj heq).symm
  have hclosed₃ : ∀ x, Closed w₃ x := by
    intro x
    by_cases hx : x = 0
    · rw [hx]
      exact hfirst
    · exact closed_of_other (hclosed₂ x hx) h₃ fun heq => hx (Option.some.inj heq).symm
  have hrun : Run step Alone (World.boot exampleBuild true)
      [firstClient, firstAnswer, .connDelete (some 0), secondClient] w₄ := by
    refine .cons ⟨rfl, fun _ _ _ _ => rfl⟩ h₁ (.cons ⟨trivial, ?_⟩ h₂
      (.cons ⟨trivial, ?_⟩ h₃ (.single ⟨hsecond, fun _ _ x _ => hclosed₃ x⟩ h₄)))
    · rintro h ⟨⟩ x hx
      exact hclosed₁ x hx
    · rintro h ⟨⟩ x hx
      exact hclosed₂ x hx
  obtain ⟨hgives, hanswers, _⟩ := one_at_a_time_safe rfl hrun
  exact ⟨w₄, hrun, hgives, hanswers⟩

end EspWolfssl.SoleConnection
