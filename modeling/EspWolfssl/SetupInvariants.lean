import EspWolfssl.HandleCreation

/-!
Assertions that setting up and deleting a connection keep. They may speak of the
handles and the log. The calls of a set-up and new values of `priv_ctx` and
`priv_ssl` have to keep them; then every creation and every cleanup does,
whichever way it ends.
-/
namespace EspWolfssl.SetupInvariants

open ByteRegions Platform ProgramLogic BackendState CertificateLoading PskClient HandleCreation

variable {b : Build}

/-- The calls of a set-up or a cleanup: neither a handshake nor a transfer, nor the end
of an operation. -/
def SetupCall : Event → Prop
  | .connect _ _ | .accept _ _ | .read _ _ _ | .write _ _ _ | .getError _ _
  | .getVerifyResult _ _ | .opened _ _ | .deleted | .pskAnswered _ _ _ => False
  | _ => True

/-- The assertion holds on behind whatever a set-up of `h` does in one step. -/
structure Settled (h : Handle) (I : World b → Prop) : Prop where
  congr : ∀ {w w' : World b}, I w → w'.tls = w.tls → w'.log = w.log → I w'
  record : ∀ {w : World b} {e : Event}, SetupCall e → I w → I (w.record h e)
  privCtx : ∀ {w : World b} (ctx : Option ℕ), I w →
    I (w.updateTls h fun t => { t with privCtx := ctx })
  privSsl : ∀ {w : World b} (ssl : Option ℕ), I w →
    I (w.updateTls h fun t => { t with privSsl := ssl })

namespace Settled

variable {h : Handle} {I : World b → Prop}

theorem call (hI : Settled h I) {e : Event} (he : SetupCall e) :
    Prog.Preserves I (call h e : Backend b Unit) :=
  .modify fun _ => hI.record he

theorem call_then {β : Type} {e : Event} {f : Unit → Backend b β} (hI : Settled h I)
    (he : SetupCall e) (hf : ∀ u, Prog.Preserves I (f u)) :
    Prog.Preserves I (BackendState.call h e >>= f) :=
  (hI.call he).bind hf

theorem allocate_then {β : Type} {e : Option ℕ → Event} {succeeds : Bool}
    {f : Option ℕ → Backend b β} (hI : Settled h I) (he : ∀ obj, SetupCall (e obj))
    (hf : ∀ obj, Prog.Preserves I (f obj)) :
    Prog.Preserves I (allocate h succeeds e >>= f) := by
  have hnew : Prog.Preserves I (newObject : Backend b ℕ) :=
    fun w hw => hI.congr hw rfl rfl
  have hallocate : Prog.Preserves I (allocate h succeeds e : Backend b (Option ℕ)) :=
    .ite (hnew.bind fun obj => hI.call_then (he _) fun _ => .pure _)
      (hI.call_then (he _) fun _ => .pure _)
  exact hallocate.bind hf

/-- A call on the context of the handle. -/
theorem readCtx_call {β : Type} {e : Option ℕ → Event} {f : Option ℕ → Backend b β}
    (hI : Settled h I) (he : ∀ ctx, SetupCall (e ctx)) (hf : ∀ ctx, Prog.Preserves I (f ctx)) :
    Prog.Preserves I (do
      let ctx ← Prog.read fun w => (w.tls h).privCtx
      BackendState.call h (e ctx)
      f ctx) :=
  (Prog.Preserves.read _).bind fun ctx => hI.call_then (he ctx) fun _ => hf ctx

theorem newCtx (hI : Settled h I) (succeeds : Bool) :
    Prog.Preserves I (newCtx h succeeds : Backend b Unit) :=
  hI.allocate_then (fun _ => trivial) fun ctx =>
    Prog.Preserves.bind (.modify fun _ => hI.privCtx ctx) fun _ => .stopIf _ _

theorem newSsl (hI : Settled h I) (succeeds : Bool) :
    Prog.Preserves I (newSsl h succeeds : Backend b Unit) :=
  (Prog.Preserves.read _).bind fun _ => hI.allocate_then (fun ssl => by cases ssl <;> trivial)
    fun ssl => Prog.Preserves.bind (.modify fun _ => hI.privSsl ssl) fun _ => .stopIf _ _

theorem setVerify (hI : Settled h I) (mode : VerifyMode) :
    Prog.Preserves I (setVerify h mode : Backend b Unit) :=
  (Prog.Preserves.read _).bind fun _ => hI.call trivial

theorem loadOrExit (hI : Settled h I) (mem : List UInt8) (len : UInt32) (type : X509FileType)
    (ans : LoadAnswers) : Prog.Preserves I (loadOrExit h mem len type ans : Backend b Unit) := by
  have hfree : ∀ temp, Prog.Preserves I (freeTemp h temp : Backend b Unit) := by
    intro temp
    cases temp with
    | none => exact .pure ()
    | some buf => exact hI.call trivial
  have hregion : ∀ format, Prog.Preserves I
      (caHandover h mem len format ans.malloc : Backend b (Option Handover)) := by
    intro format
    cases format with
    | asn1 => exact .pure _
    | pem =>
      refine (Prog.Preserves.liftExcept _).bind fun _ => .ite (.pure _) ?_
      refine hI.allocate_then (fun _ => trivial) fun temp => ?_
      cases temp with
      | none => exact .pure none
      | some temp => exact (Prog.Preserves.liftExcept _).bind fun _ => .pure _
  have hload : Prog.Preserves I
      (espLoadWolfsslVerifyBuffer h mem len type ans : Backend b (EspErr × Int32)) := by
    cases type with
    | caCert =>
      refine (Prog.Preserves.liftExcept _).bind fun pem => ?_
      refine (Prog.Preserves.read _).bind fun ctx => (hregion _).bind fun region => ?_
      cases region with
      | none => exact .pure _
      | some r => exact hI.call_then trivial fun _ => (hfree _).bind fun _ => .pure _
    | selfCert =>
      exact (Prog.Preserves.liftExcept _).bind fun _ =>
        hI.readCtx_call (fun _ => trivial) fun _ => .pure _
    | selfKey =>
      exact (Prog.Preserves.liftExcept _).bind fun _ =>
        hI.readCtx_call (fun _ => trivial) fun _ => .pure _
  exact hload.bind fun _ => .stopIf _ _

theorem configurePsk (hI : Settled h I) (psk : PskHintKey) (ret : Int32) :
    Prog.Preserves I (configurePsk h psk ret : Backend b Unit) := by
  have htake : Prog.Preserves I (xSemaphoreTake h : Backend b Bool) := by
    intro w hw
    unfold xSemaphoreTake
    split
    · exact hw
    · exact hI.congr (hI.record (e := .semTake) trivial hw) rfl rfl
    · exact hw
  have hstore : ∀ key size hint, Prog.Preserves I (storePsk h key size hint : Backend b Unit) := by
    intro key size hint w hw
    unfold storePsk
    dsimp only
    split
    · exact hI.congr (hI.record (e := .pskStored hint key) trivial hw) rfl rfl
    · exact hw
  have hlist : Prog.Preserves I (espWolfsslSetCipherList h ret : Backend b EspErr) :=
    hI.readCtx_call (fun _ => trivial) fun _ => .pure _
  have hflag : Prog.Preserves I
      (Prog.modify fun w => { w with tlsConnLockHeld := true } : Backend b Unit) :=
    .modify fun _ hw => hI.congr hw rfl rfl
  unfold PskClient.configurePsk
  split
  · refine (Prog.Preserves.stopIf _ _).bind fun _ => Prog.Preserves.bind ?_ fun _ => ?_
    · exact (Prog.Preserves.read _).bind fun _ => (Prog.Preserves.stopIf _ _).bind fun _ =>
        htake.bind fun _ => (Prog.Preserves.stopIf _ _).bind fun _ => hflag
    · exact (Prog.Preserves.stopIf _ _).bind fun _ => (hstore _ _ _).bind fun _ =>
        hI.readCtx_call (fun _ => trivial) fun _ => hlist.bind fun _ => .stopIf _ _
  · exact .stop _

theorem clientVerification (hI : Settled h I) (cfg : ClientCfg) (ans : CreateAnswers) :
    Prog.Preserves I (clientVerification h cfg ans : Backend b Unit) := by
  have hpeer : ∀ mem len, Prog.Preserves I (do
      HandleCreation.loadOrExit h mem len .caCert ans.loadCa
      HandleCreation.setVerify h .peer : Backend b Unit) :=
    fun _ _ => (hI.loadOrExit _ _ _ _).bind fun _ => hI.setVerify _
  unfold HandleCreation.clientVerification
  split
  · refine (Prog.Preserves.read _).bind fun store => ?_
    split
    · exact .stop _
    · exact hpeer _ _
  · split
    · exact hpeer _ _
    · split
      · exact hI.configurePsk _ _
      · exact .ite (hI.setVerify _) (.stop _)

theorem loadCertAndKey (hI : Settled h I) (cert key : Buffer) (ans : CreateAnswers) :
    Prog.Preserves I (loadCertAndKey h cert key ans : Backend b Unit) :=
  (hI.loadOrExit _ _ _ _).bind fun _ => hI.loadOrExit _ _ _ _

theorem clientHostname (hI : Settled h I) (hostname : List UInt8) (cfg : ClientCfg)
    (ans : CreateAnswers) :
    Prog.Preserves I (clientHostname h hostname cfg ans : Backend b Unit) := by
  refine .ite (.pure ()) (hI.allocate_then (fun _ => trivial) fun host => ?_)
  cases host with
  | none => exact .stop _
  | some host =>
    refine (Prog.Preserves.read _).bind fun _ => hI.call_then trivial fun _ => .ite ?_ ?_
    · exact hI.call_then trivial fun _ => hI.call_then trivial fun _ => .stopIf _ _
    · exact hI.call_then trivial fun _ => .stop _

theorem registerAlpn (hI : Settled h I) (answers : ℕ → Int32) (i : ℕ)
    (protocols : List CString) :
    Prog.Preserves I (registerAlpn h answers i protocols : Backend b Unit) := by
  induction protocols generalizing i with
  | nil => exact .pure ()
  | cons protocol rest ih =>
    exact (Prog.Preserves.read _).bind fun _ => hI.call_then trivial fun _ =>
      (Prog.Preserves.stopIf _ _).bind fun _ => ih (i + 1)

theorem setClientConfig (hI : Settled h I) (hostname : List UInt8) (cfg : ClientCfg)
    (ans : CreateAnswers) :
    Prog.Preserves I (setClientConfig h hostname cfg ans : Backend b Unit) := by
  have hcert : Prog.Preserves I (clientCertificate h cfg ans : Backend b Unit) := by
    unfold clientCertificate
    split
    · exact hI.loadCertAndKey _ _ ans
    · exact .pure ()
    · exact .stop _
  have halpn : Prog.Preserves I (clientAlpn h cfg ans : Backend b Unit) := by
    unfold clientAlpn
    split
    · exact .pure ()
    · exact .ite (hI.registerAlpn _ 0 _) (.stop _)
  have hocsp : Prog.Preserves I (clientOcsp h ans : Backend b Unit) :=
    .ite ((Prog.Preserves.read _).bind fun _ => (Prog.Preserves.read _).bind fun _ =>
      hI.call_then trivial fun _ => (Prog.Preserves.stopIf _ _).bind fun _ =>
      hI.call_then trivial fun _ => (Prog.Preserves.stopIf _ _).bind fun _ =>
      hI.call_then trivial fun _ => .stopIf _ _) (.pure ())
  refine (hI.newCtx _).bind fun _ => (Prog.Preserves.stopIf _ _).bind fun _ => ?_
  refine (hI.clientVerification cfg ans).bind fun _ => hcert.bind fun _ => ?_
  refine (hI.newSsl _).bind fun _ => (hI.clientHostname _ cfg ans).bind fun _ => ?_
  exact halpn.bind fun _ => hocsp.bind fun _ => (Prog.Preserves.read _).bind fun _ =>
    hI.call trivial

theorem setServerConfig (hI : Settled h I) (cfg : ServerCfg) (ans : CreateAnswers) :
    Prog.Preserves I (setServerConfig h cfg ans : Backend b Unit) := by
  have hverify : Prog.Preserves I (serverVerification h cfg ans : Backend b Unit) := by
    unfold serverVerification
    split
    · exact (hI.loadOrExit _ _ _ _).bind fun _ => hI.setVerify _
    · exact hI.setVerify _
  have hcert : Prog.Preserves I (serverCertificate h cfg ans : Backend b Unit) := by
    unfold serverCertificate
    split
    · exact hI.loadCertAndKey _ _ ans
    · exact .stop _
  exact (hI.newCtx _).bind fun _ => hverify.bind fun _ => hcert.bind fun _ =>
    (hI.newSsl _).bind fun _ => (Prog.Preserves.read _).bind fun _ => hI.call trivial

theorem cleanup (hI : Settled h I) {w : World b} (hw : I w) : I (espWolfsslCleanup h w) := by
  have hlock : I (releaseConnLock h w) := by
    unfold releaseConnLock
    split
    · exact hI.congr (hI.record (e := .semGive) trivial hw) rfl rfl
    · exact hw
  have hssl : I (freeSsl h (releaseConnLock h w)) := by
    unfold freeSsl
    split
    · exact hlock
    · rename_i ssl _
      have hshutdown := hI.record (e := .shutdown ssl) trivial hlock
      exact hI.privSsl none (hI.record (e := .sslFree ssl) trivial hshutdown)
  unfold espWolfsslCleanup freeCtx
  split
  · exact hssl
  · rename_i ctx _
    exact hI.privCtx none (hI.record (e := .ctxFree ctx) trivial hssl)

theorem createSslHandle (hI : Settled h I) (hostname : List UInt8) (cfg : Cfg)
    (ans : CreateAnswers) :
    Prog.Preserves I (espWolfsslCreateSslHandle h hostname cfg ans : Backend b EspErr) := by
  have hbody : Prog.Preserves I (createBody h hostname cfg ans : Backend b Unit) := by
    refine hI.call_then trivial fun _ => (Prog.Preserves.stopIf _ _).bind fun _ =>
      (Prog.Preserves.read _).bind fun role => ?_
    unfold setRoleConfig
    split
    · exact hI.setClientConfig hostname _ ans
    · exact hI.setServerConfig _ ans
    · exact .stop _
    · exact .stop _
    · exact .stop _
  intro w hw
  have hend := hbody w hw
  unfold espWolfsslCreateSslHandle
  split <;> rename_i hrun <;> rw [hrun] at hend
  · exact hend
  · exact hI.cleanup hend
  · exact hend

end Settled

end EspWolfssl.SetupInvariants
