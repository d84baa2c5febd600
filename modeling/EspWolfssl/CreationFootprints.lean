import EspWolfssl.CreationOutcomes

/-!
What a creation does to the statics. It is quiet unless the branch of the
pre-shared key gets the lock; then it holds the lock, and it has stored its
credentials when they fit. An operation that fails runs the cleanup as well.
-/
namespace EspWolfssl.CreationFootprints

open ByteRegions MutexOwnership TaggedLogs Platform ProgramLogic BackendState
  PskClient HandleCreation ConnectionIo BackendSteps OperationFrames CreationOutcomes

variable {b : Build}

/-- The pre-shared key whose branch the configuration of a client reaches. -/
def clientReached (b : Build) (cfg : ClientCfg) (ans : CreateAnswers) : Option PskHintKey :=
  if ans.ctxNew && !cfg.crtBundleAttach then pskSource b cfg else none

/-- The pre-shared key whose branch a creation reaches. -/
def pskReached (b : Build) (role : Role) (cfg : Cfg) (ans : CreateAnswers) :
    Option PskHintKey :=
  match role, cfg with
  | .client, .client cfg =>
      if ans.wolfsslInit = wolfsslSuccess then clientReached b cfg ans else none
  | _, _ => none

/-- The branch is that of a client whose configuration selects the key. -/
theorem source_of_reached {role : Role} {cfg : Cfg} {ans : CreateAnswers} {psk : PskHintKey}
    (hreached : pskReached b role cfg ans = some psk) :
    role = .client ∧ ∃ c, cfg = .client c ∧ pskSource b c = some psk := by
  unfold pskReached at hreached
  split at hreached
  · rename_i c
    split at hreached
    · unfold clientReached at hreached
      split at hreached
      · exact ⟨rfl, c, rfl, hreached⟩
      · cases hreached
    · cases hreached
  · cases hreached

theorem pskVerification_of_reached {role : Role} {cfg : Cfg} {ans : CreateAnswers}
    {psk : PskHintKey} (hreached : pskReached b role cfg ans = some psk) :
    b.pskVerification = true := by
  obtain ⟨_, c, _, hsource⟩ := source_of_reached hreached
  unfold pskSource at hsource
  split at hsource
  · cases hsource
  · split at hsource
    · rename_i hpsk
      exact hpsk
    · cases hsource

/-- An accepted creation that reaches the branch gets the lock and installs the
credentials. -/
theorem pskAccepted_of_reached {role : Role} {cfg : Cfg} {ans : CreateAnswers} {w : World b}
    {psk : PskHintKey} (hreached : pskReached b role cfg ans = some psk)
    (haccept : createAccepted role cfg ans w = true) :
    pskAccepted b psk w.tlsConnLock ans.setCipherList = true := by
  obtain ⟨rfl, c, rfl, hsource⟩ := source_of_reached hreached
  simp only [createAccepted, configAccepted, clientAccepted, Bool.and_eq_true] at haccept
  have hverify : verificationAccepted c ans w = true := haccept.2.1.1.1.1.1.2
  have hnone : c.useGlobalCaStore = false ∧ c.cacertBuf = none := by
    simp only [pskSource] at hsource
    split at hsource
    · cases hsource
    · rename_i hno
      simpa using hno
  simpa [verificationAccepted, hnone, hsource] using hverify

/-- The branch is reached and gets the lock. -/
def takesLock (reached : Option PskHintKey) (lock : Mutex) : Bool :=
  match reached with
  | none => false
  | some psk => pskTakes psk lock

/-- After the lock was taken and the credentials were stored and installed. -/
def installed (h : Handle) (hint : CString) (key : List UInt8)
    (hfit : CredentialsFit b hint key) (w : World b) : World b :=
  (stored h hint key hfit (holding h w)).record h (.setPskClientCallback (w.tls h).privCtx)

/-- The ways a creation may touch the statics before its cleanup. -/
inductive Footprint (h : Handle) (reached : Option PskHintKey) (w w' : World b) : Prop
  | quiet (htakes : takesLock reached w.tlsConnLock = false) (work : Extends h w w')
  | refused {psk : PskHintKey} {hint : CString} {key : List UInt8} {w₁ : World b}
      (hreached : reached = some psk) (hcred : credentials psk = some (hint, key))
      (hlock : w.tlsConnLock = .free) (hfit : ¬ CredentialsFit b hint key)
      (before : Extends h w w₁) (after : Extends h (holding h w₁) w')
  | stored {psk : PskHintKey} {hint : CString} {key : List UInt8} {w₁ : World b}
      (hreached : reached = some psk) (hcred : credentials psk = some (hint, key))
      (hlock : w.tlsConnLock = .free) (hfit : CredentialsFit b hint key)
      (before : Extends h w w₁) (after : Extends h (installed h hint key hfit w₁) w')

namespace Footprint

variable {h : Handle} {reached : Option PskHintKey} {w w' w'' : World b}

theorem lock_eq (hw : Extends h w w') : w'.tlsConnLock = w.tlsConnLock :=
  congrArg Statics.tlsConnLock hw.statics

theorem extend (hw : Footprint h reached w w') (more : Extends h w' w'') :
    Footprint h reached w w'' := by
  cases hw with
  | quiet htakes work => exact .quiet htakes (work.trans more)
  | refused hreached hcred hlock hfit before after =>
    exact .refused hreached hcred hlock hfit before (after.trans more)
  | stored hreached hcred hlock hfit before after =>
    exact .stored hreached hcred hlock hfit before (after.trans more)

theorem after (first : Extends h w w') (hw : Footprint h reached w' w'') :
    Footprint h reached w w'' := by
  have hsame := lock_eq first
  cases hw with
  | quiet htakes work => exact .quiet (hsame ▸ htakes) (first.trans work)
  | refused hreached hcred hlock hfit before after =>
    exact .refused hreached hcred (hsame ▸ hlock) hfit (first.trans before) after
  | stored hreached hcred hlock hfit before after =>
    exact .stored hreached hcred (hsame ▸ hlock) hfit (first.trans before) after

theorem extends_of_none (hw : Footprint h none w w') : Extends h w w' := by
  cases hw with
  | quiet _ work => exact work
  | refused hreached => cases hreached
  | stored hreached => cases hreached

theorem holding_grows (h : Handle) (w : World b) : Grows Inner h w (holding h w) :=
  ((Grows.refl Inner h w).record (e := .semTake) trivial).congr rfl rfl

theorem installed_grows (h : Handle) {hint : CString} {key : List UInt8}
    (hfit : CredentialsFit b hint key) (w : World b) :
    Grows Inner h w (installed h hint key hfit w) := by
  have hstored : Grows Inner h w (PskClient.stored h hint key hfit (holding h w)) :=
    Grows.congr ((holding_grows h w).record (e := .pskStored hint key) trivial) rfl rfl
  exact hstored.record (e := .setPskClientCallback (w.tls h).privCtx) trivial

theorem grows (hw : Footprint h reached w w') : Grows Inner h w w' := by
  cases hw with
  | quiet _ work => exact work.toGrows.mono fun _ => Quiet.inner
  | refused _ _ _ _ before after =>
    exact ((before.toGrows.mono fun _ => Quiet.inner).trans (holding_grows h _)).trans
      (after.toGrows.mono fun _ => Quiet.inner)
  | stored _ _ _ hfit before after =>
    exact ((before.toGrows.mono fun _ => Quiet.inner).trans (installed_grows h hfit _)).trans
      (after.toGrows.mono fun _ => Quiet.inner)

end Footprint

/-- An early exit never reports success, and a timeout of the lock only when
another connection has it. -/
def Refusal (w : World b) (x : Exit) : Prop :=
  x ≠ .ret .ok ∧ (x = .ret .timeout → w.tlsConnLock = .taken)

theorem refusal_of_plain {x : Exit} (hx : PlainExit x) (w : World b) : Refusal w x := by
  refine ⟨?_, ?_⟩
  · rintro rfl
    exact hx.elim
  · rintro rfl
    exact hx.elim

/-- The outcome of a creation that started in `w`. -/
def Outcome (h : Handle) (reached : Option PskHintKey) {α : Type} (w : World b) :
    Except Exit α × World b → Prop :=
  Prog.Post (fun _ => Footprint h reached w) fun x w' => Refusal w x ∧ Footprint h reached w w'

theorem Outcome.after {h : Handle} {reached : Option PskHintKey} {α : Type} {w w₁ : World b}
    {r : Except Exit α × World b} (hwork : Extends h w w₁) (hr : Outcome h reached w₁ r) :
    Outcome h reached w r := by
  rcases r with ⟨r, w'⟩
  cases r with
  | ok a => exact Footprint.after hwork hr
  | error x =>
    have hsame := Footprint.lock_eq hwork
    exact ⟨⟨hr.1.1, fun ht => hsame ▸ hr.1.2 ht⟩, Footprint.after hwork hr.2⟩

/-- The program leaves the footprint of the branch, on every way out. -/
def Leaves (h : Handle) (reached : Option PskHintKey) {α : Type} (m : Backend b α) : Prop :=
  ∀ w, Outcome h reached w (m w)

namespace Leaves

variable {h : Handle} {reached : Option PskHintKey} {α β : Type}

theorem of_quiet {m : Backend b α} (hm : QuietFor h m) : Leaves h none m := by
  intro w
  have hwork := hm w w (Extends.refl h w)
  rcases hrun : m w with ⟨r, w'⟩
  rw [hrun] at hwork
  cases r with
  | ok a => exact .quiet rfl hwork
  | error x => exact ⟨refusal_of_plain hwork.1 w, .quiet rfl hwork.2⟩

theorem bind_quiet {m : Backend b α} {f : α → Backend b β} (hm : Leaves h reached m)
    (hf : ∀ a, QuietFor h (f a)) : Leaves h reached (m >>= f) := by
  intro w
  have hfirst := hm w
  rcases hrun : m w with ⟨r, w'⟩
  rw [hrun] at hfirst
  cases r with
  | error x =>
    rw [Prog.bind_of_error hrun]
    exact hfirst
  | ok a =>
    rw [Prog.bind_of_ok hrun]
    have hrest := hf a w' w' (Extends.refl h w')
    rcases hrun' : f a w' with ⟨r', w''⟩
    rw [hrun'] at hrest
    cases r' with
    | ok c => exact Footprint.extend hfirst hrest
    | error x => exact ⟨refusal_of_plain hrest.1 w, Footprint.extend hfirst hrest.2⟩

end Leaves

theorem configurePsk_leaves (h : Handle) (psk : PskHintKey) (ret : Int32) :
    Leaves h (some psk) (configurePsk h psk ret : Backend b Unit) := by
  intro w
  cases hcred : credentials psk with
  | none =>
    rw [configurePsk_incomplete hcred]
    exact ⟨refusal_of_plain (by trivial) w,
      .quiet (by simp [takesLock, pskTakes, hcred]) (Extends.refl h w)⟩
  | some c =>
    obtain ⟨hint, key⟩ := c
    by_cases hlock : w.tlsConnLock = .free
    · by_cases hfit : CredentialsFit b hint key
      · rw [configurePsk_fit hcred hlock hfit]
        have hlist : Extends h (installed h hint key hfit w) _ :=
          (Extends.refl h _).record (e := .setCipherList (w.tls h).privCtx
            b.defaultCipherList ret) trivial
        have hprint : Footprint h (some psk) w _ :=
          .stored rfl hcred hlock hfit (Extends.refl h w) hlist
        by_cases hret : ret = wolfsslSuccess
        · rw [if_pos hret]
          exact hprint
        · rw [if_neg hret]
          exact ⟨refusal_of_plain (by trivial) w, hprint⟩
      · rw [configurePsk_tooLong hcred hlock hfit]
        exact ⟨refusal_of_plain (by trivial) w,
          .refused rfl hcred hlock hfit (Extends.refl h w) (Extends.refl h _)⟩
    · rw [configurePsk_busy hcred hlock]
      refine ⟨?_, .quiet (by simp [takesLock, pskTakes, hlock]) (Extends.refl h w)⟩
      cases hmutex : w.tlsConnLock with
      | null => simp [Refusal, busyError]
      | free => exact absurd hmutex hlock
      | taken => simp [Refusal, busyError, hmutex]

theorem clientVerification_leaves (h : Handle) (cfg : ClientCfg) (ans : CreateAnswers) :
    Leaves h (pskSource b cfg) (clientVerification h cfg ans : Backend b Unit) := by
  have hload : ∀ (mem : List UInt8) (len : UInt32),
      QuietFor h (do loadOrExit h mem len .caCert ans.loadCa; setVerify h .peer :
        Backend b Unit) := fun mem len =>
    (loadOrExit_quiet h mem len .caCert ans.loadCa).bind fun _ => setVerify_quiet h .peer
  unfold clientVerification pskSource
  cases cfg.useGlobalCaStore with
  | true =>
    refine .of_quiet ((QuietFor.read _).bind fun store => ?_)
    cases store.1 with
    | none => exact .stop _ trivial
    | some mem => exact hload mem store.2
  | false =>
    cases cfg.cacertBuf with
    | some buf => exact .of_quiet (hload buf.bytes buf.len)
    | none =>
      cases hpsk : (if b.pskVerification then cfg.pskHintKey else none) with
      | some psk => simpa [hpsk] using configurePsk_leaves h psk ans.setCipherList
      | none =>
        have hskip : QuietFor h (if b.skipServerCertVerify then setVerify h .none
            else Prog.stop (.ret .wolfsslSslSetupFailed) : Backend b Unit) :=
          .ite (setVerify_quiet h _) (.stop _ trivial)
        simpa [hpsk] using Leaves.of_quiet hskip

theorem setClientConfig_leaves (h : Handle) (hostname : List UInt8) (cfg : ClientCfg)
    (ans : CreateAnswers) :
    Leaves h (clientReached b cfg ans) (setClientConfig h hostname cfg ans : Backend b Unit) := by
  have hmain : Leaves h (pskSource b cfg)
      (clientVerification h cfg ans >>= fun _ => clientFinish h hostname cfg ans :
        Backend b Unit) :=
    (clientVerification_leaves h cfg ans).bind_quiet fun _ => clientFinish_quiet h hostname cfg ans
  have hctx : ∀ w : World b, Extends h w (newCtx h ans.ctxNew w).2 :=
    (newCtx_quiet h ans.ctxNew).run
  intro w
  rw [setClientConfig_eq]
  unfold clientReached
  cases hnew : ans.ctxNew with
  | false =>
    rw [hnew] at hctx
    rw [Prog.bind_of_error (newCtx_false h w)]
    exact ⟨refusal_of_plain (by trivial) w, .quiet rfl (hctx w)⟩
  | true =>
    rw [hnew] at hctx
    rw [Prog.bind_of_ok (newCtx_true h w)]
    cases cfg.crtBundleAttach with
    | true => exact ⟨refusal_of_plain (by trivial) w, .quiet rfl (hctx w)⟩
    | false => exact Outcome.after (hctx w) (hmain _)

theorem setRoleConfig_leaves (h : Handle) (role : Role) (hostname : List UInt8) (cfg : Cfg)
    (ans : CreateAnswers) (hinit : ans.wolfsslInit = wolfsslSuccess) :
    Leaves h (pskReached b role cfg ans)
      (setRoleConfig h role hostname cfg ans : Backend b Unit) := by
  unfold setRoleConfig pskReached
  cases role <;> cases cfg
  case client.client cfg =>
    simpa only [hinit, if_true] using setClientConfig_leaves h hostname cfg ans
  case server.server cfg => exact .of_quiet (setServerConfig_quiet h cfg ans)
  all_goals exact .of_quiet (.stop _ trivial)

theorem pskReached_noInit {role : Role} {cfg : Cfg} {ans : CreateAnswers}
    (hinit : ans.wolfsslInit ≠ wolfsslSuccess) : pskReached b role cfg ans = none := by
  unfold pskReached
  split
  · rw [if_neg hinit]
  · rfl

theorem createBody_outcome (h : Handle) (hostname : List UInt8) (cfg : Cfg)
    (ans : CreateAnswers) (w : World b) :
    Outcome h (pskReached b (w.tls h).role cfg ans) w (createBody h hostname cfg ans w) := by
  have hcall : Extends h w (w.record h (.wolfsslInit ans.wolfsslInit)) :=
    (Extends.refl h w).record trivial
  by_cases hinit : ans.wolfsslInit = wolfsslSuccess
  · rw [createBody_init hinit]
    exact Outcome.after hcall (setRoleConfig_leaves h _ hostname cfg ans hinit _)
  · rw [createBody_noInit hinit, pskReached_noInit hinit]
    exact ⟨refusal_of_plain (by trivial) w, .quiet rfl hcall⟩

/-- The context the handle created last has no callback. -/
def NoCallback (h : Handle) (w : World b) : Prop := latest callbackSetting h w.log ≠ some true

theorem callbackSetting_quiet {e : Event} (he : Quiet e) : callbackSetting e ≠ some true := by
  cases e <;> first | exact he.elim | simp [callbackSetting]

theorem NoCallback.extend {h k : Handle} {w w' : World b} (hw : NoCallback h w)
    (work : Extends k w w') : NoCallback h w' :=
  work.toGrows.latest_ne (fun _ => callbackSetting_quiet) hw

theorem newCtx_noCallback {h : Handle} {succeeds : Bool} {w w' : World b} {u : Unit}
    (hrun : newCtx h succeeds w = (.ok u, w')) : NoCallback h w' := by
  cases succeeds with
  | false => cases hrun
  | true =>
    cases hrun
    unfold NoCallback
    rw [World.updateTls_log, World.record_log, latest_append, latest_single]
    simp [callbackSetting]

theorem setClientConfig_noCallback {h : Handle} {hostname : List UInt8} {cfg : ClientCfg}
    {ans : CreateAnswers} {w w' : World b} {u : Unit}
    (hrun : setClientConfig h hostname cfg ans w = (.ok u, w'))
    (hreached : clientReached b cfg ans = none) : NoCallback h w' := by
  have haccept := (setClientConfig_returns h hostname cfg ans w).mp ⟨u, w', hrun⟩
  simp only [clientAccepted, Bool.and_eq_true, Bool.not_eq_true'] at haccept
  have hsource : pskSource b cfg = none := by
    simpa [clientReached, haccept] using hreached
  rw [setClientConfig_eq] at hrun
  obtain ⟨_, w₁, hctx, hafter⟩ := Prog.bind_ok_iff.mp hrun
  obtain ⟨_, w₂, hstop, hmain⟩ := Prog.bind_ok_iff.mp hafter
  obtain ⟨_, rfl⟩ := Prog.stopIf_ok_iff.mp hstop
  have hrest := ((clientVerification_leaves h cfg ans).bind_quiet
    fun _ => clientFinish_quiet h hostname cfg ans) w₂
  rw [hsource, hmain] at hrest
  exact (newCtx_noCallback hctx).extend (Footprint.extends_of_none hrest)

theorem setServerConfig_noCallback {h : Handle} {cfg : ServerCfg} {ans : CreateAnswers}
    {w w' : World b} {u : Unit} (hrun : setServerConfig h cfg ans w = (.ok u, w')) :
    NoCallback h w' := by
  rw [setServerConfig_eq] at hrun
  obtain ⟨_, w₁, hctx, hrun⟩ := Prog.bind_ok_iff.mp hrun
  exact (newCtx_noCallback hctx).extend ((serverFinish_quiet h cfg ans).of_ok hrun)

theorem createBody_noCallback {h : Handle} {hostname : List UInt8} {cfg : Cfg}
    {ans : CreateAnswers} {w w' : World b} {u : Unit}
    (hrun : createBody h hostname cfg ans w = (.ok u, w'))
    (hreached : pskReached b (w.tls h).role cfg ans = none) : NoCallback h w' := by
  by_cases hinit : ans.wolfsslInit = wolfsslSuccess
  · rw [createBody_init hinit] at hrun
    generalize (w.tls h).role = role at hrun hreached
    cases role <;> cases cfg
    case client.client cfg =>
      have hclient : clientReached b cfg ans = none := by
        simpa only [pskReached, hinit, if_true] using hreached
      exact setClientConfig_noCallback hrun hclient
    case server.server cfg => exact setServerConfig_noCallback hrun
    all_goals cases hrun
  · rw [createBody_noInit hinit] at hrun
    cases hrun

theorem freeSsl_extends (h : Handle) (w : World b) : Extends h w (freeSsl h w) := by
  unfold freeSsl
  split
  · exact .refl h w
  · rename_i ssl _
    have hshutdown := (Extends.refl h w).record (e := .shutdown ssl) trivial
    exact (hshutdown.record (e := .sslFree ssl) trivial).updateTls _

theorem freeCtx_extends (h : Handle) (w : World b) : Extends h w (freeCtx h w) := by
  unfold freeCtx
  split
  · exact .refl h w
  · rename_i ctx _
    exact ((Extends.refl h w).record (e := .ctxFree ctx) trivial).updateTls _

/-- Behind the release of the lock the cleanup is quiet. -/
theorem espWolfsslCleanup_extends (h : Handle) (w : World b) :
    Extends h (releaseConnLock h w) (espWolfsslCleanup h w) :=
  (freeSsl_extends h _).trans (freeCtx_extends h _)

theorem giveConnLock_grows {P : Event → Prop} (hP : P .semGive) (h : Handle) (w : World b) :
    Grows P h w (giveConnLock h w) :=
  Grows.congr ((Grows.refl P h w).record hP) rfl rfl

theorem espWolfsslCleanup_grows (h : Handle) (w : World b) :
    Grows Inner h w (espWolfsslCleanup h w) := by
  refine Grows.trans ?_ ((espWolfsslCleanup_extends h w).toGrows.mono fun _ => Quiet.inner)
  unfold releaseConnLock
  split
  · exact giveConnLock_grows trivial h w
  · exact Grows.refl Inner h w

theorem espWolfsslCleanup_cleared (h : Handle) (w : World b) :
    objects (espWolfsslCleanup h w) h = (none, none) := by
  have hssl : ∀ w₁ : World b, ((freeSsl h w₁).tls h).privSsl = none := by
    intro w₁
    unfold freeSsl
    split
    · rename_i hnone
      exact hnone
    · simp
  unfold espWolfsslCleanup freeCtx
  split
  · rename_i hnone
    simp [objects, hnone, hssl]
  · simp [objects, hssl]

/-- How a creation that returns ends: accepted inputs leave the body's state,
the others run the cleanup behind it. -/
theorem createSslHandle_cases {h : Handle} {hostname : List UInt8} {cfg : Cfg}
    {ans : CreateAnswers} {w w' : World b} {e : EspErr}
    (hrun : espWolfsslCreateSslHandle h hostname cfg ans w = (.ok e, w')) :
    ∃ w₁, Footprint h (pskReached b (w.tls h).role cfg ans) w w₁ ∧
      (e = .ok ∧ createAccepted (w.tls h).role cfg ans w = true ∧ w' = w₁ ∧
          (pskReached b (w.tls h).role cfg ans = none → NoCallback h w₁) ∨
        Refusal w (.ret e) ∧ createAccepted (w.tls h).role cfg ans w = false ∧
          w' = espWolfsslCleanup h w₁) := by
  have houtcome := createBody_outcome h hostname cfg ans w
  have hreturns := createBody_returns h hostname cfg ans w
  unfold espWolfsslCreateSslHandle at hrun
  rcases hbody : createBody h hostname cfg ans w with ⟨r, w₁⟩
  rw [hbody] at houtcome hrun hreturns
  cases r with
  | ok u =>
    cases hrun
    exact ⟨_, houtcome, Or.inl ⟨rfl, hreturns.mp ⟨u, _, rfl⟩, rfl, createBody_noCallback hbody⟩⟩
  | error x =>
    cases x with
    | ret e' =>
      cases hrun
      refine ⟨w₁, houtcome.2, Or.inr ⟨houtcome.1, ?_, rfl⟩⟩
      by_contra haccept
      obtain ⟨_, _, hcontra⟩ := hreturns.mpr (by simpa using haccept)
      cases hcontra
    | fault f => cases hrun
    | waiting => cases hrun

/-- A server session whose creation is accepted goes on to accept its client;
one whose creation is not returns behind the cleanup. -/
theorem serverSessionCreate_cases {h : Handle} {cfg : ServerCfg} {sockfd : Int32}
    {ans : CreateAnswers} {accepts : List CallAnswer} {w w' : World b} {ret : Int32}
    (hrun : espWolfsslServerSessionCreate (some h) (some cfg) sockfd ans accepts w =
      (.ok ret, w')) :
    ∃ w₁, Extends h w w₁ ∧
      (createAccepted .server (.server cfg) ans w = true ∧ NoCallback h w₁ ∧
          Extends h w₁ w' ∨
        createAccepted .server (.server cfg) ans w = false ∧ ret = -1 ∧
          Extends h (espWolfsslCleanup h w₁) w' ∧ objects w' h = (none, none)) := by
  have hstart : Extends h w (w.setEndpoint h .server sockfd) :=
    (Extends.refl h w).setEndpoint _ _
  obtain ⟨_, w₀, hmod, hrun⟩ := Prog.bind_ok_iff.mp hrun
  cases hmod
  obtain ⟨e, w₂, hcreate, hrun⟩ := Prog.bind_ok_iff.mp hrun
  obtain ⟨w₁, hprint, hend⟩ := createSslHandle_cases hcreate
  simp only [World.setEndpoint_role] at hprint hend
  refine ⟨w₁, hstart.trans hprint.extends_of_none, ?_⟩
  rcases hend with ⟨rfl, haccept, rfl, hcallback⟩ | ⟨hrefused, hreject, rfl⟩
  · rw [if_pos rfl] at hrun
    have hrest := QuietFor.of_ok
      ((QuietFor.updateTls _).bind fun _ => acceptLoop_quiet h accepts) hrun
    exact Or.inl ⟨haccept, hcallback rfl, hrest⟩
  · have hne : e ≠ .ok := by
      rintro rfl
      exact hrefused.1 rfl
    rw [if_neg hne] at hrun
    have hkeep := ((setConnState_keepsObjects h .fail).bind fun _ => .pure (-1)).of_ok hrun
    cases hrun
    exact Or.inr ⟨hreject, rfl, (Extends.refl h _).updateTls _,
      hkeep.trans (espWolfsslCleanup_cleared h w₁)⟩

end EspWolfssl.CreationFootprints
