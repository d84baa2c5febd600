import EspWolfssl.CreationFootprints
import EspWolfssl.ObjectLedger

/-!
The stretches of the operations, by what they do to the objects of their handle.
Almost all of them leave both in place; a context and a session object appear in
one place each. Every early exit leaves a tidy state.
-/
namespace EspWolfssl.LifecycleStages

open ByteRegions MutexOwnership TaggedLogs Platform ProgramLogic BackendState
  CertificateLoading PskClient HandleCreation ConnectionIo OperationFrames CreationOutcomes
  ObjectLedger

variable {b : Build}

/-- Nothing is said of the state in which the code runs into a fault. -/
def TidyExit (x : Exit) (w : World b) : Prop := (∃ f, x = .fault f) ∨ Tidy w

/-- From a state in `P` the program returns in `Q` or stops in a tidy state. -/
def Sound {α : Type} (P : World b → Prop) (m : Backend b α) (Q : World b → Prop) : Prop :=
  Prog.Triple P m (fun _ => Q) TidyExit

/-- The program leaves the two objects of its handle in place. -/
def Stays (h : Handle) (ctx ssl : Option ℕ) {α : Type} (m : Backend b α) : Prop :=
  Sound (At h ctx ssl) m (At h ctx ssl)

theorem Sound.bind {α β : Type} {P Q R : World b → Prop} {m : Backend b α}
    {f : α → Backend b β} (hm : Sound P m Q) (hf : ∀ a, Sound Q (f a) R) :
    Sound P (m >>= f) R :=
  Prog.Triple.bind hm hf

theorem Sound.of_exists {α ι : Type} {P : ι → World b → Prop} {m : Backend b α}
    {Q : World b → Prop} (hm : ∀ i, Sound (P i) m Q) : Sound (fun w => ∃ i, P i w) m Q := by
  rintro w ⟨i, hw⟩
  exact hm i w hw

theorem Sound.mono {α : Type} {P Q Q' : World b → Prop} {m : Backend b α} (hm : Sound P m Q)
    (hQ : ∀ w, Q w → Q' w) : Sound P m Q' :=
  Prog.Triple.conseq hm (fun _ hw => hw) (fun _ w hw => hQ w hw) fun _ _ hx => hx

namespace Stays

variable {h : Handle} {ctx ssl : Option ℕ} {α β : Type}

theorem pure (a : α) : Stays h ctx ssl (pure a : Backend b α) :=
  Prog.Triple.pure fun _ hw => hw

theorem stop (x : Exit) : Stays h ctx ssl (Prog.stop x : Backend b α) :=
  Prog.Triple.stop fun _ hw => Or.inr hw.tidy

theorem stopIf (c : Bool) (x : Exit) : Stays h ctx ssl (Prog.stopIf c x : Backend b Unit) :=
  Prog.Triple.stopIf (fun _ _ hw => Or.inr hw.tidy) fun _ _ hw => hw

theorem liftFault (r : Except Fault α) :
    Stays h ctx ssl (Prog.liftExcept (r.mapError .fault) : Backend b α) := by
  cases r with
  | ok a => exact pure a
  | error f => exact stop (.fault f)

theorem bind {m : Backend b α} {f : α → Backend b β} (hm : Stays h ctx ssl m)
    (hf : ∀ a, Stays h ctx ssl (f a)) : Stays h ctx ssl (m >>= f) :=
  Sound.bind hm hf

theorem ite {c : Prop} [Decidable c] {m n : Backend b α} (hm : Stays h ctx ssl m)
    (hn : Stays h ctx ssl n) : Stays h ctx ssl (if c then m else n) := by
  split
  · exact hm
  · exact hn

theorem read (f : World b → α) : Stays h ctx ssl (Prog.read f : Backend b α) :=
  Prog.Triple.read fun _ hw => hw

theorem call {e : Event} (he : UsesOwn ctx ssl e) :
    Stays h ctx ssl (call h e : Backend b Unit) :=
  Prog.Triple.modify fun _ hw => hw.record he

theorem updateTls {f : Tls → Tls}
    (hf : ∀ t : Tls, (f t).privCtx = t.privCtx ∧ (f t).privSsl = t.privSsl) :
    Stays h ctx ssl (Prog.modify (·.updateTls h f) : Backend b Unit) :=
  Prog.Triple.modify fun w hw =>
    hw.updateTls ⟨(hf (w.tls h)).1.trans hw.privCtx, (hf (w.tls h)).2.trans hw.privSsl⟩

/-- What is read from `priv_ctx` is the context the state holds. -/
theorem readCtx_then {f : Option ℕ → Backend b β} (hf : Stays h ctx ssl (f ctx)) :
    Stays h ctx ssl ((Prog.read fun w => (w.tls h).privCtx) >>= f) := by
  intro w hw
  have hread : (Prog.read fun w => (w.tls h).privCtx : Backend b (Option ℕ)) w = (.ok ctx, w) := by
    rw [Prog.read_apply, hw.privCtx]
  rw [Prog.bind_of_ok hread]
  exact hf w hw

theorem readSsl_then {f : Option ℕ → Backend b β} (hf : Stays h ctx ssl (f ssl)) :
    Stays h ctx ssl ((Prog.read fun w => (w.tls h).privSsl) >>= f) := by
  intro w hw
  have hread : (Prog.read fun w => (w.tls h).privSsl : Backend b (Option ℕ)) w = (.ok ssl, w) := by
    rw [Prog.read_apply, hw.privSsl]
  rw [Prog.bind_of_ok hread]
  exact hf w hw

theorem ctxCall_then {e : Event} {f : Unit → Backend b β}
    (he : e.action = some (.use ctx.toList)) (hf : Stays h ctx ssl (f ())) :
    Stays h ctx ssl (BackendState.call h e >>= f) :=
  (call (usesOwn_of_ctx he)).bind fun _ => hf

theorem sslCall_then {e : Event} {f : Unit → Backend b β}
    (he : e.action = some (.use ssl.toList)) (hf : Stays h ctx ssl (f ())) :
    Stays h ctx ssl (BackendState.call h e >>= f) :=
  (call (usesOwn_of_ssl he)).bind fun _ => hf

theorem stopIf_then {c : Bool} {x : Exit} {f : Unit → Backend b β}
    (hf : Stays h ctx ssl (f ())) : Stays h ctx ssl (Prog.stopIf c x >>= f) :=
  (stopIf c x).bind fun _ => hf

end Stays

section Stretches
variable {h : Handle} {ctx ssl : Option ℕ}

/-- What is passed beside an own object is the temporary. -/
theorem own_or_temporary {own : Option ℕ} {temp id : ℕ} (hid : id ∈ own.toList ++ [temp]) :
    id = temp ∨ own = some id := by
  rcases List.mem_append.mp hid with hid | hid
  · exact Or.inr (Option.mem_toList.mp hid)
  · exact Or.inl (List.mem_singleton.mp hid)

theorem setVerify_stays (mode : VerifyMode) :
    Stays h ctx ssl (setVerify h mode : Backend b Unit) :=
  .readCtx_then (.call (usesOwn_of_ctx rfl))

/-- The temporary copy of a certificate is freed before the load returns. -/
theorem loadCaCert_stays (mem : List UInt8) (len : UInt32) (format : FileFormat)
    (ans : LoadAnswers) :
    Stays h ctx ssl (loadCaCert h mem len format ans : Backend b (EspErr × Int32)) := by
  intro w hw
  have hload : ∀ (bytes : List UInt8) (n : Int32) (format : FileFormat), At h ctx ssl
      (w.record h (.loadVerifyBuffer (w.tls h).privCtx none bytes n format ans.ret)) := by
    intro bytes n format
    exact hw.record (usesOwn_of_ctx (by simp [Event.action, hw.privCtx]))
  have hrun := loadCaCert_run h mem len ans w format
  generalize loadCaCert h mem len format ans w = r at hrun
  cases hrun with
  | asn1 => exact hload _ _ _
  | inPlace => exact hload _ _ _
  | noMem => exact hw.record (usesOwn_of_none rfl)
  | @copied copy _ _ _ =>
    refine hw.temporary .certBuffer [.malloc (some w.nextObj) (len + 1),
      .loadVerifyBuffer (w.tls h).privCtx (some w.nextObj) (copy.take len.toNat) len.toInt32 .pem
        ans.ret, .free w.nextObj] [ctx.toList ++ [w.nextObj]] (by simp) ?_ ?_ (fun _ => rfl) rfl
    · rw [hw.privCtx]
      rfl
    · intro ids hids id hid
      obtain rfl := List.mem_singleton.mp hids
      exact (own_or_temporary hid).imp_right Or.inl
  | @fault f w' => exact Or.inl ⟨f, rfl⟩

theorem loadOrExit_stays (mem : List UInt8) (len : UInt32) (type : X509FileType)
    (ans : LoadAnswers) : Stays h ctx ssl (loadOrExit h mem len type ans : Backend b Unit) := by
  have hload : Stays h ctx ssl
      (espLoadWolfsslVerifyBuffer h mem len type ans : Backend b (EspErr × Int32)) := by
    cases type with
    | caCert => exact (Stays.liftFault _).bind fun _ => loadCaCert_stays mem len _ ans
    | selfCert =>
      exact (Stays.liftFault _).bind fun _ => .readCtx_then <| .ctxCall_then rfl (.pure _)
    | selfKey =>
      exact (Stays.liftFault _).bind fun _ => .readCtx_then <| .ctxCall_then rfl (.pure _)
  exact hload.bind fun _ => .stopIf _ _

theorem loadCertAndKey_stays (cert key : Buffer) (ans : CreateAnswers) :
    Stays h ctx ssl (loadCertAndKey h cert key ans : Backend b Unit) :=
  (loadOrExit_stays _ _ _ _).bind fun _ => loadOrExit_stays _ _ _ _

/-- The lock and the stores to the statics are no business of the ledger. -/
theorem configurePsk_stays (psk : PskHintKey) (ret : Int32) :
    Stays h ctx ssl (configurePsk h psk ret : Backend b Unit) := by
  intro w hw
  cases hcred : credentials psk with
  | none =>
    rw [configurePsk_incomplete hcred]
    exact Or.inr hw.tidy
  | some c =>
    obtain ⟨hint, key⟩ := c
    by_cases hlock : w.tlsConnLock = .free
    · have hholding : At h ctx ssl (holding h w) :=
        (hw.record (e := .semTake) (usesOwn_of_none rfl)).congr rfl (fun _ => rfl) rfl
      by_cases hfit : CredentialsFit b hint key
      · rw [configurePsk_fit hcred hlock hfit, hw.privCtx]
        have hstored : At h ctx ssl (stored h hint key hfit (holding h w)) :=
          (hholding.record (e := .pskStored hint key) (usesOwn_of_none rfl)).congr rfl
            (fun _ => rfl) rfl
        have hend : At h ctx ssl (((stored h hint key hfit (holding h w)).record h
            (.setPskClientCallback ctx)).record h (.setCipherList ctx b.defaultCipherList ret)) :=
          (hstored.record (usesOwn_of_ctx rfl)).record (usesOwn_of_ctx rfl)
        by_cases hret : ret = wolfsslSuccess
        · rw [if_pos hret]
          exact hend
        · rw [if_neg hret]
          exact Or.inr hend.tidy
      · rw [configurePsk_tooLong hcred hlock hfit]
        exact Or.inr hholding.tidy
    · rw [configurePsk_busy hcred hlock]
      exact Or.inr hw.tidy

theorem clientVerification_stays (cfg : ClientCfg) (ans : CreateAnswers) :
    Stays h ctx ssl (clientVerification h cfg ans : Backend b Unit) := by
  have hload : ∀ (mem : List UInt8) (len : UInt32), Stays h ctx ssl
      (loadOrExit h mem len .caCert ans.loadCa >>= fun _ => setVerify h .peer :
        Backend b Unit) := fun mem len =>
    (loadOrExit_stays mem len .caCert ans.loadCa).bind fun _ => setVerify_stays .peer
  refine .ite ((Stays.read _).bind fun store => ?_) ?_
  · cases store.1 with
    | none => exact .stop _
    | some mem => exact hload mem store.2
  · cases cfg.cacertBuf with
    | some buf => exact hload buf.bytes buf.len
    | none =>
      cases (if b.pskVerification then cfg.pskHintKey else none) with
      | some psk => exact configurePsk_stays psk ans.setCipherList
      | none => exact .ite (setVerify_stays _) (.stop _)

theorem clientCertificate_stays (cfg : ClientCfg) (ans : CreateAnswers) :
    Stays h ctx ssl (clientCertificate h cfg ans : Backend b Unit) := by
  unfold clientCertificate
  split
  · exact loadCertAndKey_stays _ _ ans
  · exact .pure ()
  · exact .stop _

theorem serverVerification_stays (cfg : ServerCfg) (ans : CreateAnswers) :
    Stays h ctx ssl (serverVerification h cfg ans : Backend b Unit) := by
  unfold serverVerification
  split
  · exact (loadOrExit_stays _ _ _ _).bind fun _ => setVerify_stays _
  · exact setVerify_stays _

theorem serverCertificate_stays (cfg : ServerCfg) (ans : CreateAnswers) :
    Stays h ctx ssl (serverCertificate h cfg ans : Backend b Unit) := by
  unfold serverCertificate
  split
  · exact loadCertAndKey_stays _ _ ans
  · exact .stop _

/-- After the copy of the host name was passed to these calls and freed. -/
def namePassed (h : Handle) (calls : ℕ → List Event) (w : World b) : World b :=
  { w with
    nextObj := w.nextObj + 1
    log := w.log ++ tag h (.strdup (some w.nextObj) :: calls w.nextObj ++ [.free w.nextObj]) }

/-- With a copy of the host name, the calls that get it. -/
theorem clientHostname_copied {hostname : List UInt8} {cfg : ClientCfg} {ans : CreateAnswers}
    (hskip : cfg.skipCommonName = false) (hdup : ans.strdup = true) (w : World b) :
    clientHostname h hostname cfg ans w =
      let ssl := (w.tls h).privSsl
      let name := hostName hostname cfg
      if ans.checkDomainName = wolfsslSuccess then
        Prog.stopIf (ans.useSni != wolfsslSuccess) (.ret .wolfsslSslSetHostnameFailed)
          (namePassed h (fun host => [.checkDomainName ssl host name ans.checkDomainName,
            .useSni ssl host name ans.useSni]) w)
      else (.error (.ret .wolfsslSslSetHostnameFailed),
        namePassed h (fun host => [.checkDomainName ssl host name ans.checkDomainName]) w) := by
  by_cases hcheck : ans.checkDomainName = wolfsslSuccess <;>
    simp [clientHostname, allocate, newObject, call, Prog.bind_apply, hskip, hdup, hcheck,
      namePassed, World.record]

theorem namePassed_at {w : World b} (hw : At h ctx ssl w) (calls : ℕ → List Event)
    (uses : List (List ℕ))
    (hacts : (calls w.nextObj).filterMap Event.action = uses.map .use)
    (huses : ∀ ids ∈ uses, ∀ id ∈ ids, id = w.nextObj ∨ ssl = some id) :
    At h ctx ssl (namePassed h calls w) := by
  refine hw.temporary .hostString
    (.strdup (some w.nextObj) :: calls w.nextObj ++ [.free w.nextObj]) uses rfl ?_ ?_
    (fun _ => rfl) rfl
  · have hcalls : (calls w.nextObj ++ [Event.free w.nextObj]).filterMap Event.action =
        uses.map .use ++ [.free w.nextObj] := by
      rw [List.filterMap_append, hacts]
      rfl
    exact congrArg (List.cons _) hcalls
  · intro ids hids id hid
    exact (huses ids hids id hid).imp_right Or.inr

/-- The copy of the host name is freed on every way out. -/
theorem clientHostname_stays (hostname : List UInt8) (cfg : ClientCfg) (ans : CreateAnswers) :
    Stays h ctx ssl (clientHostname h hostname cfg ans : Backend b Unit) := by
  intro w hw
  have huse : ∀ id ∈ ssl.toList ++ [w.nextObj], id = w.nextObj ∨ ssl = some id :=
    fun id hid => own_or_temporary hid
  cases hskip : cfg.skipCommonName with
  | true =>
    rw [clientHostname, if_pos hskip]
    exact hw
  | false =>
    cases hdup : ans.strdup with
    | false =>
      have hfailed := hw.record (e := .strdup none) (usesOwn_of_none rfl)
      simp only [clientHostname, hskip, allocate, hdup, call]
      exact Or.inr hfailed.tidy
    | true =>
      rw [clientHostname_copied hskip hdup, hw.privSsl]
      by_cases hcheck : ans.checkDomainName = wolfsslSuccess
      · rw [if_pos hcheck]
        refine Stays.stopIf _ _ _ (namePassed_at hw _ [_, _] rfl ?_)
        simpa using huse
      · rw [if_neg hcheck]
        refine Or.inr (namePassed_at hw _ [_] rfl ?_).tidy
        simpa using huse

theorem registerAlpn_stays (answers : ℕ → Int32) (i : ℕ) (protocols : List CString) :
    Stays h ctx ssl (registerAlpn h answers i protocols : Backend b Unit) := by
  induction protocols generalizing i with
  | nil => exact .pure ()
  | cons protocol rest ih =>
    exact .readSsl_then <| .sslCall_then rfl <| .stopIf_then <| ih (i + 1)

theorem clientAlpn_stays (cfg : ClientCfg) (ans : CreateAnswers) :
    Stays h ctx ssl (clientAlpn h cfg ans : Backend b Unit) := by
  unfold clientAlpn
  split
  · exact .pure ()
  · exact .ite (registerAlpn_stays ans.useAlpn 0 _) (.stop _)

theorem clientOcsp_stays (ans : CreateAnswers) :
    Stays h ctx ssl (clientOcsp h ans : Backend b Unit) := by
  refine .ite (.readCtx_then <| .readSsl_then ?_) (.pure ())
  exact .ctxCall_then rfl <| .stopIf_then <| .ctxCall_then rfl <| .stopIf_then <|
    .sslCall_then rfl <| .stopIf _ _

theorem setFd_stays : Stays h ctx ssl (setFd h : Backend b Unit) := by
  intro w hw
  exact hw.record (usesOwn_of_ssl (by rw [hw.privSsl]; rfl))

theorem capture_stays (entry : Capture) :
    Stays h ctx ssl (capture h entry : Backend b Unit) :=
  .updateTls fun _ => ⟨rfl, rfl⟩

theorem setConnState_stays (state : ConnState) :
    Stays h ctx ssl (setConnState h state : Backend b Unit) :=
  .updateTls fun _ => ⟨rfl, rfl⟩

theorem espWolfsslHandshake_stays (cfg : ClientCfg) (ans : CallAnswer) (flags : Int32) :
    Stays h ctx ssl (espWolfsslHandshake h cfg ans flags : Backend b Int32) := by
  have hflags : Stays h ctx ssl (captureVerifyResult h cfg flags : Backend b Unit) :=
    .ite (.readSsl_then <| .sslCall_then rfl <| .ite (.pure ()) (capture_stays _)) (.pure ())
  refine .readSsl_then <| .sslCall_then rfl <| .ite ?_ ?_
  · exact (setConnState_stays _).bind fun _ => .pure _
  · refine .sslCall_then rfl <| .ite (.pure _) ?_
    exact (capture_stays _).bind fun _ => (capture_stays _).bind fun _ =>
      hflags.bind fun _ => (setConnState_stays _).bind fun _ => .pure _

theorem captureUnlessRetry_stays (err : Int32) :
    Stays h ctx ssl (captureUnlessRetry h err : Backend b Unit) :=
  .ite (.pure ()) (capture_stays _)

theorem espWolfsslRead_stays (datalen : UInt32) (ans : CallAnswer) :
    Stays h ctx ssl (espWolfsslRead h datalen ans : Backend b Int32) := by
  refine .readSsl_then <| .sslCall_then rfl <| .ite ?_ (.pure _)
  refine .sslCall_then rfl <| .ite (.pure _) ?_
  exact (captureUnlessRetry_stays ans.err).bind fun _ => .pure _

theorem espWolfsslWrite_stays (datalen : UInt32) (ans : CallAnswer) :
    Stays h ctx ssl (espWolfsslWrite h datalen ans : Backend b Int32) := by
  refine .readSsl_then <| .sslCall_then rfl <| .ite ?_ (.pure _)
  exact .sslCall_then rfl <| (captureUnlessRetry_stays ans.err).bind fun _ => .pure _

theorem acceptLoop_stays (answers : List CallAnswer) :
    Stays h ctx ssl (acceptLoop h answers : Backend b Int32) := by
  induction answers with
  | nil => exact .stop _
  | cons ans rest ih =>
    refine .readSsl_then <| .sslCall_then rfl <| .ite (.pure _) ?_
    refine .sslCall_then rfl <| .ite ih ?_
    exact (setConnState_stays _).bind fun _ => .pure _

end Stretches

/-- A tidy state whose handle has both objects. -/
def Opened (h : Handle) (w : World b) : Prop := ∃ ctx ssl, At h (some ctx) (some ssl) w

section Creation
variable {h : Handle}

theorem newCtx_sound (succeeds : Bool) :
    Sound (At h none none) (newCtx h succeeds : Backend b Unit)
      fun w => ∃ ctx, At h (some ctx) none w := by
  intro w hw
  cases succeeds with
  | true => exact ⟨w.nextObj, newCtx_at hw⟩
  | false => exact Or.inr (newCtx_failed hw).tidy

theorem newSsl_sound {ctx : ℕ} (succeeds : Bool) :
    Sound (At h (some ctx) none) (newSsl h succeeds : Backend b Unit) (Opened h) := by
  intro w hw
  cases succeeds with
  | true => exact ⟨ctx, w.nextObj, newSsl_at hw⟩
  | false => exact Or.inr (newSsl_failed hw).tidy

theorem opened_of_stays {α : Type} {m : Backend b α}
    (hm : ∀ ctx ssl, Stays h (some ctx) (some ssl) m) : Sound (Opened h) m (Opened h) :=
  Sound.of_exists fun ctx => Sound.of_exists fun ssl =>
    (hm ctx ssl).mono fun _ hw => ⟨ctx, ssl, hw⟩

theorem setClientConfig_sound (hostname : List UInt8) (cfg : ClientCfg) (ans : CreateAnswers) :
    Sound (At h none none) (setClientConfig h hostname cfg ans : Backend b Unit) (Opened h) := by
  refine (newCtx_sound ans.ctxNew).bind fun _ => Sound.of_exists fun ctx => ?_
  refine Sound.bind (Stays.stopIf _ _) fun _ => ?_
  refine Sound.bind (clientVerification_stays cfg ans) fun _ => ?_
  refine Sound.bind (clientCertificate_stays cfg ans) fun _ => ?_
  refine (newSsl_sound ans.sslNew).bind fun _ => opened_of_stays fun _ _ => ?_
  exact (clientHostname_stays hostname cfg ans).bind fun _ =>
    (clientAlpn_stays cfg ans).bind fun _ => (clientOcsp_stays ans).bind fun _ => setFd_stays

theorem setServerConfig_sound (cfg : ServerCfg) (ans : CreateAnswers) :
    Sound (At h none none) (setServerConfig h cfg ans : Backend b Unit) (Opened h) := by
  refine (newCtx_sound ans.ctxNew).bind fun _ => Sound.of_exists fun ctx => ?_
  refine Sound.bind (serverVerification_stays cfg ans) fun _ => ?_
  refine Sound.bind (serverCertificate_stays cfg ans) fun _ => ?_
  exact (newSsl_sound ans.sslNew).bind fun _ => opened_of_stays fun _ _ => setFd_stays

theorem createBody_sound (hostname : List UInt8) (cfg : Cfg) (ans : CreateAnswers) :
    Sound (At h none none) (createBody h hostname cfg ans : Backend b Unit) (Opened h) := by
  refine Sound.bind (Stays.call (usesOwn_of_none rfl)) fun _ => ?_
  refine Sound.bind (Stays.stopIf _ _) fun _ => ?_
  refine Sound.bind (Stays.read _) fun role => ?_
  cases role <;> cases cfg
  case client.client cfg => exact setClientConfig_sound hostname cfg ans
  case server.server cfg => exact setServerConfig_sound cfg ans
  all_goals exact Prog.Triple.stop fun _ hw => Or.inr hw.tidy

/-- The cleanup frees both objects of its handle, from any tidy state. -/
theorem espWolfsslCleanup_at {w : World b} (hw : Tidy w) :
    At h none none (espWolfsslCleanup h w) := by
  have hgive : Tidy (releaseConnLock h w) := by
    unfold releaseConnLock
    split
    · have hlogged := (At.mk hw rfl).record (h := h) (e := .semGive) (usesOwn_of_none rfl)
      exact hlogged.tidy.congr rfl (fun _ => rfl) rfl
    · exact hw
  exact freeCtx_at (freeSsl_at ⟨hgive, rfl⟩)

/-- A creation leaves both objects or none, and none when it fails. -/
theorem espWolfsslCreateSslHandle_sound (hostname : List UInt8) (cfg : Cfg)
    (ans : CreateAnswers) :
    Prog.Triple (At h none none)
      (espWolfsslCreateSslHandle h hostname cfg ans : Backend b EspErr)
      (fun e w => if e = .ok then Opened h w else At h none none w) TidyExit := by
  intro w hw
  have hbody := createBody_sound hostname cfg ans w hw
  have hrefused := CreationFootprints.createBody_outcome h hostname cfg ans w
  unfold espWolfsslCreateSslHandle
  rcases hrun : createBody h hostname cfg ans w with ⟨r, w'⟩
  rw [hrun] at hbody hrefused
  cases r with
  | ok u => exact hbody
  | error x =>
    cases x with
    | ret e =>
      have hne : e ≠ .ok := by
        rintro rfl
        exact hrefused.1.1 rfl
      rcases hbody with ⟨f, hf⟩ | htidy
      · cases hf
      · exact (if_neg hne).mpr (espWolfsslCleanup_at htidy)
    | fault f => exact Or.inl ⟨f, rfl⟩
    | waiting => exact hbody

end Creation

end EspWolfssl.LifecycleStages
