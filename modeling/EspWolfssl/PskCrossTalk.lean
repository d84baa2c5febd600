import EspWolfssl.PskStatics

/-!
Whose credentials a callback hands out. The callback reads the statics and not
the connection it runs for, so it answers with the credentials stored last. The
runs in which every connection gets its own are those in which the callbacks of
a connection run while its own credentials are the ones stored last.
-/
namespace EspWolfssl.PskCrossTalk

open ByteRegions MutexOwnership TaggedLogs Platform BackendState PskClient HandleCreation
  BackendSteps OperationFrames CreationOutcomes CreationFootprints StepEffects PskStatics
  GuardedRuns

variable {b : Build}

/-- The statics hold what was stored last, and a connection with the callback
was created with credentials. -/
structure Consistent (w : World b) : Prop where
  holds : ∀ hint key, lastStored w.log = some (hint, key) → Holds w hint key
  stored : ∀ x, CallbackInstalled w x → (lastStored w.log).isSome = true
  own : ∀ x, CallbackInstalled w x → (ownCredentials w.log x).isSome = true

section Keep
variable {P : Event → Prop} {h x : Handle} {w w' : World b}

theorem own_congr (hlatest : latest openedWith x w'.log = latest openedWith x w.log) :
    ownCredentials w'.log x = ownCredentials w.log x := by
  unfold ownCredentials
  rw [hlatest]

/-- Work for one handle does not install the callback for another one. -/
theorem installed_other (hw : Grows P h w w') (hx : x ≠ h)
    (hinstalled : CallbackInstalled w' x) : CallbackInstalled w x := by
  obtain ⟨hssl, hsetting⟩ := hinstalled
  rw [hw.latest_other _ hx] at hsetting
  rw [hw.others x hx] at hssl
  exact ⟨hssl, hsetting⟩

theorem own_other (hw : Grows P h w w') (hx : x ≠ h) :
    ownCredentials w'.log x = ownCredentials w.log x :=
  own_congr (hw.latest_other _ hx)

/-- Events that neither install the callback nor open a connection. -/
def Neutral (e : Event) : Prop := callbackSetting e ≠ some true ∧ openedWith e = none

theorem installed_neutral (hw : Grows Neutral h w w') (hkeep : objects w' h = objects w h)
    (hinstalled : CallbackInstalled w' x) : CallbackInstalled w x := by
  by_cases hx : x = h
  · subst hx
    obtain ⟨hssl, hsetting⟩ := hinstalled
    have hsame : (w'.tls x).privSsl = (w.tls x).privSsl := congrArg Prod.snd hkeep
    refine ⟨hsame ▸ hssl, ?_⟩
    by_contra hnot
    exact hw.latest_ne (fun _ he => he.1) hnot hsetting
  · exact installed_other hw hx hinstalled

theorem own_neutral (hw : Grows Neutral h w w') :
    ownCredentials w'.log x = ownCredentials w.log x :=
  own_congr (hw.latest_eq (fun _ he => he.2) x)

theorem not_installed_of_cleared (hcleared : objects w h = (none, none)) :
    ¬ CallbackInstalled w h := by
  rintro ⟨hssl, _⟩
  have hnone : (w.tls h).privSsl = none := congrArg Prod.snd hcleared
  rw [hnone] at hssl
  cases hssl

/-- Steps that store nothing and install nothing keep the invariant. -/
theorem consistent_of_same (hw : Consistent w) (hsame : SameStore w w')
    (hinstalled : ∀ x, CallbackInstalled w' x →
      CallbackInstalled w x ∧ ownCredentials w'.log x = ownCredentials w.log x) :
    Consistent w' where
  holds := fun hint key hlast => (hw.holds hint key (hsame.1 ▸ hlast)).congr hsame.2
  stored := fun x hx => hsame.1 ▸ hw.stored x (hinstalled x hx).1
  own := fun x hx => (hinstalled x hx).2 ▸ hw.own x (hinstalled x hx).1

end Keep

theorem boot_consistent (lockCreated : Bool) : Consistent (World.boot b lockCreated) where
  holds := by
    intro hint key hlast
    cases hlast
  stored := by
    rintro x ⟨hssl, _⟩
    cases hssl
  own := by
    rintro x ⟨hssl, _⟩
    cases hssl

/-- An accepted creation that leaves its callback installed had credentials and
stored them. -/
theorem opening_installed {o : Opening} {ok : Bool} {w w₁ w₂ : World b}
    (print : Footprint o.handle (o.reached b) w w₁) (hend : Concluded o w w₁ w₂ ok)
    (hinstalled : CallbackInstalled (w₂.record o.handle (.opened o.cfg ok)) o.handle) :
    ∃ cred, lastStored w₂.log = some cred ∧
      ownCredentials (w₂.record o.handle (.opened o.cfg ok)).log o.handle = some cred := by
  obtain ⟨hssl, hsetting⟩ := hinstalled
  rw [latest_record, if_pos rfl] at hsetting
  cases hend with
  | rejected _ _ hcleared =>
    exact absurd ⟨hssl, hsetting⟩ (not_installed_of_cleared (w := w₂) hcleared)
  | accepted haccept _ hcallback rest =>
    cases hreached : o.reached b with
    | none => exact absurd hsetting ((hcallback hreached).extend rest)
    | some psk =>
      obtain ⟨_, c, hcfg, hsource⟩ := source_of_reached hreached
      have hpsk : c.pskHintKey = some psk := by
        simp only [pskSource] at hsource
        split at hsource
        · cases hsource
        · split at hsource
          · exact hsource
          · cases hsource
      have haccepted := pskAccepted_of_reached hreached haccept
      unfold pskAccepted at haccepted
      cases hcred : credentials psk with
      | none => simp [hcred] at haccepted
      | some cred =>
        obtain ⟨hint, key⟩ := cred
        simp only [hcred, Bool.and_eq_true, beq_iff_eq, decide_eq_true_eq] at haccepted
        refine ⟨(hint, key), ?_, ?_⟩
        · cases print with
          | quiet htakes _ => simp [hreached, takesLock, pskTakes, hcred, haccepted] at htakes
          | refused hreached' hcred' _ hfit _ _ =>
            obtain rfl := Option.some.inj (hreached.symm.trans hreached')
            rw [hcred] at hcred'
            cases hcred'
            exact absurd haccepted.1.2 hfit
          | @stored _ _ _ w₀ hreached' hcred' _ hfit _ after =>
            obtain rfl := Option.some.inj (hreached.symm.trans hreached')
            rw [(SameStore.of_extends (after.trans rest)).1,
              (installed_holds o.handle hcred' hfit w₀).1, ← hcred', hcred]
        · unfold ownCredentials
          rw [latest_record, if_pos rfl, hcfg]
          simp [openedWith, hpsk, hcred]

theorem opening_consistent {o : Opening} {ok : Bool} {w w₁ w₂ : World b} (hw : Consistent w)
    (print : Footprint o.handle (o.reached b) w w₁) (hend : Concluded o w w₁ w₂ ok) :
    Consistent (w₂.record o.handle (.opened o.cfg ok)) := by
  have hgrows : Grows (fun _ => True) o.handle w (w₂.record o.handle (.opened o.cfg ok)) :=
    ((concluded_grows print hend).mono fun _ _ => trivial).record trivial
  have hrest : SameStore w₁ (w₂.record o.handle (.opened o.cfg ok)) :=
    (concluded_store hend).trans (.record rfl _ _)
  have hmono : (lastStored w.log).isSome = true →
      (lastStored (w₂.record o.handle (.opened o.cfg ok)).log).isSome = true := by
    intro hsome
    rcases footprint_store print with hsame | ⟨hint', key', hlast', _⟩
    · rwa [(hsame.trans hrest).1]
    · rw [hrest.1, hlast']
      rfl
  refine ⟨?_, fun x hx => ?_, fun x hx => ?_⟩
  · intro hint key hlast
    rcases footprint_store print with hsame | ⟨hint', key', hlast', hholds'⟩
    · have hwhole := hsame.trans hrest
      exact (hw.holds hint key (hwhole.1 ▸ hlast)).congr hwhole.2
    · rw [hrest.1, hlast'] at hlast
      cases hlast
      exact hholds'.congr hrest.2
  · by_cases hxo : x = o.handle
    · subst hxo
      rw [(SameStore.record rfl _ _ : SameStore w₂ (w₂.record _ (.opened o.cfg ok))).1]
      obtain ⟨_, hlast, _⟩ := opening_installed print hend hx
      rw [hlast]
      rfl
    · exact hmono (hw.stored x (installed_other hgrows hxo hx))
  · by_cases hxo : x = o.handle
    · subst hxo
      obtain ⟨_, _, hown⟩ := opening_installed print hend hx
      rw [hown]
      rfl
    · rw [own_other hgrows hxo]
      exact hw.own x (installed_other hgrows hxo hx)

theorem deletion_consistent {h : Handle} {w : World b} (hw : Consistent w) :
    Consistent ((espWolfsslCleanup h w).record h .deleted) := by
  have hgrows : Grows (fun _ => True) h w ((espWolfsslCleanup h w).record h .deleted) :=
    ((espWolfsslCleanup_grows h w).mono fun _ _ => trivial).record trivial
  refine consistent_of_same hw ((SameStore.cleanup h w).trans (.record rfl h _)) ?_
  intro x hx
  by_cases hxh : x = h
  · subst hxh
    exact absurd hx (not_installed_of_cleared (espWolfsslCleanup_cleared x w))
  · exact ⟨installed_other hgrows hxh hx, own_other hgrows hxh⟩

theorem step_consistent {w w' : World b} {op : Op} (hw : Consistent w)
    (hstep : step w op = some w') : Consistent w' := by
  have heffect := step_effect hstep
  generalize kind op = k at heffect
  cases heffect with
  | opening print hend hw' => exact hw' ▸ opening_consistent hw print hend
  | deletion hw' => exact hw' ▸ deletion_consistent hw
  | @callback h identity key idMaxLen keyMaxLen ans w₁ _ hrun hw' =>
    subst hw'
    have hanswer : Neutral (.pskAnswered ans.len ans.identity ans.key) := by
      simp [Neutral, callbackSetting, openedWith]
    rcases espWolfsslPskClientCb_cases hrun with ⟨_, _, hsame⟩ | ⟨_, _, hgive, _⟩
    · subst hsame
      have hgrows := (Grows.refl Neutral h w₁).record hanswer
      exact consistent_of_same hw (.record rfl h w₁)
        fun x hx => ⟨installed_neutral hgrows rfl hx, own_neutral hgrows⟩
    · subst hgive
      have hgrows : Grows Neutral h w ((giveConnLock h w).record h _) :=
        (giveConnLock_grows (by simp [Neutral, callbackSetting, openedWith]) h w).record hanswer
      exact consistent_of_same hw ((SameStore.giveConnLock h w).trans (.record rfl h _))
        fun x hx => ⟨installed_neutral hgrows rfl hx, own_neutral hgrows⟩
  | @transfer h work hkeep =>
    have hgrows : Grows Neutral h w w' := work.toGrows.mono fun e he =>
      ⟨callbackSetting_quiet he, by cases e <;> first | rfl | exact he.elim⟩
    exact consistent_of_same hw (.of_extends work)
      fun x hx => ⟨installed_neutral hgrows hkeep hx, own_neutral hgrows⟩
  | store hw' =>
    subst hw'
    exact ⟨fun hint key hlast => (hw.holds hint key hlast).congr rfl, hw.stored, hw.own⟩

/-- In every run the statics hold what was stored last. -/
theorem runs_consistent {lockCreated : Bool} {ops : List Op} {w : World b}
    (hrun : Runs lockCreated ops w) : Consistent w :=
  hrun.invariant (I := Consistent) (boot_consistent lockCreated)
    fun _ _ _ hw _ hstep => step_consistent hw hstep

/-- An answer of a callback for `x` that is not empty hands out the credentials
that `x` was created with. -/
def OwnAnswer (log : List (Handle × Event)) (entry : Handle × Event) : Prop :=
  match entry with
  | (x, .pskAnswered len identity keyOut) =>
      len ≠ 0 → ∃ hint key, ownCredentials log x = some (hint, key) ∧
        Answers hint key len identity keyOut
  | _ => True

def OwnAnswers (log : List (Handle × Event)) : Prop := Throughout OwnAnswer log

/-- A callback whose answer fits runs for `x` only while the credentials stored
last, by whichever connection, are those that `x` was created with. -/
def Undisplaced (w : World b) (op : Op) : Prop :=
  match kind op with
  | .callback x _ idMaxLen _ keyMaxLen =>
      callbackFits w idMaxLen keyMaxLen = true → lastStored w.log = ownCredentials w.log x
  | _ => True

theorem ownAnswer_inner {e : Event} (he : Inner e) (log : List (Handle × Event)) (x : Handle) :
    OwnAnswer log (x, e) := by
  cases e <;> first | exact trivial | exact he.elim

theorem ownAnswers_grows {h : Handle} {w w' : World b} (hw : Grows Inner h w w') :
    OwnAnswers w'.log ↔ OwnAnswers w.log := by
  obtain ⟨events, hlog, hinner⟩ := hw.calls
  rw [hlog]
  exact throughout_append_tag (fun e he pre => ownAnswer_inner (hinner e he) pre h) w.log

theorem ownAnswers_record {e : Event} (h : Handle) (w : World b) :
    OwnAnswers (w.record h e).log ↔ OwnAnswers w.log ∧ OwnAnswer w.log (h, e) :=
  throughout_snoc OwnAnswer w.log (h, e)

/-- The answer of one callback is the connection's own exactly when the credentials
stored last are. -/
theorem callback_ownAnswer {h : Handle} {identity keyBuf : List UInt8}
    {idMaxLen keyMaxLen : UInt32} {ans : PskAnswer} {w w₁ : World b} (hw : Consistent w)
    (hinstalled : CallbackInstalled w h)
    (hrun : espWolfsslPskClientCb h identity idMaxLen keyBuf keyMaxLen w = (.ok ans, w₁)) :
    OwnAnswer w₁.log (h, .pskAnswered ans.len ans.identity ans.key) ↔
      (callbackFits w idMaxLen keyMaxLen = true → lastStored w.log = ownCredentials w.log h) := by
  rcases espWolfsslPskClientCb_cases hrun with ⟨hno, hans, _⟩ | ⟨hfits, _, hgive, _⟩
  · rw [hno, hans]
    simp [OwnAnswer]
  · obtain ⟨⟨hint, key⟩, hlast⟩ := Option.isSome_iff_exists.mp (hw.stored h hinstalled)
    obtain ⟨⟨ownHint, ownKey⟩, hown⟩ := Option.isSome_iff_exists.mp (hw.own h hinstalled)
    have hholds := hw.holds hint key hlast
    have hanswers := hholds.callback_answers hrun hfits
    have hsame : ownCredentials w₁.log h = ownCredentials w.log h := by
      rw [hgive]
      exact own_neutral (giveConnLock_grows (by simp [Neutral, callbackSetting, openedWith]) h w)
    have hne : ans.len ≠ 0 := by
      intro hzero
      have hlen := hanswers.len_eq
      rw [hzero] at hlen
      exact hholds.key_ne (List.length_eq_zero_iff.mp hlen.symm)
    simp only [OwnAnswer, hsame, hown, hfits, hlast, forall_const]
    constructor
    · intro h
      obtain ⟨hint', key', heq, hanswers'⟩ := h hne
      rw [hanswers.unique hanswers', ← heq]
    · rintro heq -
      cases heq
      exact ⟨hint, key, rfl, hanswers⟩

theorem step_ownAnswers {w w' : World b} {op : Op} (hw : Consistent w)
    (hstep : step w op = some w') :
    OwnAnswers w'.log ↔ OwnAnswers w.log ∧ Undisplaced w op := by
  have heffect := step_effect hstep
  unfold Undisplaced
  generalize kind op = k at heffect
  cases heffect with
  | @opening o ok w₁ w₂ print hend hw' =>
    subst hw'
    rw [ownAnswers_record, ownAnswers_grows (concluded_grows print hend)]
    rfl
  | @deletion h hw' =>
    subst hw'
    rw [ownAnswers_record, ownAnswers_grows (espWolfsslCleanup_grows h w)]
    rfl
  | @callback h identity key idMaxLen keyMaxLen ans w₁ hinstalled hrun hw' =>
    subst hw'
    have hgrows : Grows Inner h w w₁ := by
      rcases espWolfsslPskClientCb_cases hrun with ⟨_, _, hsame⟩ | ⟨_, _, hgive, _⟩
      · exact hsame ▸ Grows.refl Inner h w
      · exact hgive ▸ giveConnLock_grows trivial h w
    rw [ownAnswers_record, ownAnswers_grows hgrows, callback_ownAnswer hw hinstalled hrun]
  | transfer work _ =>
    rw [ownAnswers_grows (work.toGrows.mono fun _ => Quiet.inner)]
    simp
  | store hw' =>
    subst hw'
    simp

/-- In a run every callback answers with its own connection's credentials exactly
when no callback runs while those of another connection were stored last. -/
theorem own_answers_iff_undisplaced {lockCreated : Bool} {ops : List Op} {w : World b}
    (hrun : Runs lockCreated ops w) :
    OwnAnswers w.log ↔ Run step Undisplaced (World.boot b lockCreated) ops w := by
  have hboot : OwnAnswers (World.boot b lockCreated).log := throughout_nil _
  exact hrun.iff_of_step (I := fun w => OwnAnswers w.log) (J := Consistent)
    (boot_consistent lockCreated) hboot (fun _ _ _ hw hstep => step_consistent hw hstep)
    fun _ _ _ hw hstep => step_ownAnswers hw hstep

/-- Two clients with pre-shared keys connect one after the other. -/
def oneAfterTheOther : List Op :=
  [.createSslHandle 0 .client 3 [] (.client (pskClient hintA 7)) allSucceed,
    .pskClientCb 0 [0, 0] 2 [0] 1,
    .createSslHandle 1 .client 4 [] (.client (pskClient hintB 9)) allSucceed,
    .pskClientCb 1 [0, 0] 2 [0] 1]

theorem own_answers_one_after_the_other :
    ∃ w : World exampleBuild, Runs true oneAfterTheOther w ∧
      (OwnAnswers w.log ↔
        Run step Undisplaced (World.boot exampleBuild true) oneAfterTheOther w) :=
  ⟨_, Run.free_iff.mpr rfl, own_answers_iff_undisplaced (Run.free_iff.mpr rfl)⟩

/-- wolfSSL asks again for the first client, after the second one was created. -/
def askedAgain : List Op :=
  [.createSslHandle 0 .client 3 [] (.client (pskClient hintA 7)) allSucceed,
    .pskClientCb 0 [0, 0] 2 [0] 1,
    .createSslHandle 1 .client 4 [] (.client (pskClient hintB 9)) allSucceed,
    .pskClientCb 0 [0, 0] 2 [0] 1]

theorem own_answers_fails :
    ¬ ∀ (b : Build) (lockCreated : Bool) (ops : List Op) (w : World b),
      Runs lockCreated ops w → OwnAnswers w.log := by
  intro h
  have hrun : ∃ w : World exampleBuild, Runs true askedAgain w ∧
      w.log = w.log.dropLast ++ [(0, .pskAnswered 1 [98, 0] [9])] ∧
      ownCredentials w.log.dropLast 0 = some (hintA, [7]) :=
    ⟨_, Run.free_iff.mpr rfl, rfl, rfl⟩
  obtain ⟨w, hrun, hlog, hown⟩ := hrun
  obtain ⟨hint, key, hcred, hanswers⟩ :=
    h exampleBuild true askedAgain w hrun _ _ [] hlog (by decide)
  rw [hown] at hcred
  cases hcred
  have hkey : ([7] : List UInt8) <+: [9] := hanswers.key_prefix
  simp at hkey

end EspWolfssl.PskCrossTalk
