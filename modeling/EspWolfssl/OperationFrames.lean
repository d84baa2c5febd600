import EspWolfssl.BackendSteps

/-!
What the operations leave alone. Apart from the pre-shared key branch and the
cleanup every stretch of an operation changes its own handle only, keeps the
statics and appends calls that touch neither the lock nor the credentials.
-/
namespace EspWolfssl.OperationFrames

open ByteRegions MutexOwnership TaggedLogs Platform ProgramLogic BackendState
  CertificateLoading PskClient HandleCreation ConnectionIo

variable {b : Build}

/-- The statics of the translation unit. -/
structure Statics (b : Build) where
  tlsConnLock : Mutex
  tlsConnLockHeld : Bool
  pskIdStr : CArray b.pskMaxIdLen
  pskKeyArray : CArray pskMaxKeyLen
  pskKeyMaxLen : UInt8
  globalCacert : Option (List UInt8)
  globalCacertPemBytes : UInt32

def statics (w : World b) : Statics b :=
  ⟨w.tlsConnLock, w.tlsConnLockHeld, w.pskIdStr, w.pskKeyArray, w.pskKeyMaxLen,
    w.globalCacert, w.globalCacertPemBytes⟩

/-- `priv_ctx` and `priv_ssl` of a handle. -/
def objects (w : World b) (h : Handle) : Option ℕ × Option ℕ :=
  ((w.tls h).privCtx, (w.tls h).privSsl)

@[simp] theorem objects_record (w : World b) (h k : Handle) (e : Event) :
    objects (w.record k e) h = objects w h := rfl

theorem objects_updateTls {w : World b} {h : Handle} {f : Tls → Tls}
    (hf : ∀ t : Tls, (f t).privCtx = t.privCtx ∧ (f t).privSsl = t.privSsl) :
    objects (w.updateTls h f) h = objects w h := by
  simp [objects, hf]

theorem latest_record {β : Type} (f : Event → Option β) (w : World b) (h x : Handle)
    (e : Event) :
    latest f x (w.record h e).log = (if h = x then f e else none).or (latest f x w.log) := by
  rw [World.record_log, latest_append, latest_single]

/-- What an operation logs before it returns. -/
def Inner : Event → Prop
  | .opened _ _ | .deleted | .pskAnswered _ _ _ => False
  | _ => True

/-- Inner calls that touch neither the lock nor the credentials. -/
def Quiet : Event → Prop
  | .semTake | .semGive | .pskStored _ _ | .setPskClientCallback _ => False
  | e => Inner e

theorem Quiet.inner {e : Event} (h : Quiet e) : Inner e := by
  cases e <;> first | exact h | exact h.elim

/-- The state `w'` was reached from `w` by work for `h` that logged events of
one kind only. -/
structure Grows (P : Event → Prop) (h : Handle) (w w' : World b) : Prop where
  others : ∀ k, k ≠ h → w'.tls k = w.tls k
  calls : ∃ events, w'.log = w.log ++ tag h events ∧ ∀ e ∈ events, P e

namespace Grows

variable {P Q : Event → Prop} {h : Handle} {w w' w'' : World b}

theorem refl (P : Event → Prop) (h : Handle) (w : World b) : Grows P h w w :=
  ⟨fun _ _ => rfl, [], by simp, by simp⟩

theorem trans (first : Grows P h w w') (second : Grows P h w' w'') : Grows P h w w'' := by
  obtain ⟨events, hlog, hP⟩ := first.calls
  obtain ⟨more, hlog', hP'⟩ := second.calls
  refine ⟨fun k hk => (second.others k hk).trans (first.others k hk), events ++ more, ?_, ?_⟩
  · rw [hlog', hlog, tag_append, List.append_assoc]
  · intro e he
    rcases List.mem_append.mp he with he | he
    · exact hP e he
    · exact hP' e he

theorem mono (hw : Grows P h w w') (hPQ : ∀ e, P e → Q e) : Grows Q h w w' := by
  obtain ⟨events, hlog, hP⟩ := hw.calls
  exact ⟨hw.others, events, hlog, fun e he => hPQ e (hP e he)⟩

theorem record {e : Event} (he : P e) (hw : Grows P h w w') : Grows P h w (w'.record h e) :=
  hw.trans ⟨fun _ _ => rfl, [e], rfl, by simpa using he⟩

theorem updateTls (f : Tls → Tls) (hw : Grows P h w w') : Grows P h w (w'.updateTls h f) :=
  hw.trans ⟨fun _ hk => World.updateTls_of_ne w' hk f, [], by simp, by simp⟩

/-- An observer of none of the events sees the same log as before. -/
theorem view_eq {β : Type} {f : Event → Option β} (hw : Grows P h w w')
    (hf : ∀ e, P e → f e = none) : view f w'.log = view f w.log := by
  obtain ⟨events, hlog, hP⟩ := hw.calls
  have hnone : events.filterMap f = [] := by
    rw [List.filterMap_eq_nil_iff]
    exact fun e he => hf e (hP e he)
  rw [hlog, view_append, view_tag, hnone, tag_nil, List.append_nil]

theorem latest_eq {β : Type} {f : Event → Option β} (hw : Grows P h w w')
    (hf : ∀ e, P e → f e = none) (k : Handle) : latest f k w'.log = latest f k w.log := by
  obtain ⟨events, hlog, hP⟩ := hw.calls
  have hnone : events.filterMap f = [] := by
    rw [List.filterMap_eq_nil_iff]
    exact fun e he => hf e (hP e he)
  rw [hlog, latest_append]
  by_cases hk : h = k
  · subst hk
    rw [latest_tag_self, hnone]
    rfl
  · rw [latest_tag_other f hk]
    rfl

/-- A value that none of the events shows is not the latest one either. -/
theorem latest_ne {β : Type} {f : Event → Option β} {c : β} (hw : Grows P h w w')
    (hf : ∀ e, P e → f e ≠ some c) {k : Handle} (hk : latest f k w.log ≠ some c) :
    latest f k w'.log ≠ some c := by
  obtain ⟨events, hlog, hP⟩ := hw.calls
  rw [hlog, latest_append]
  by_cases hkh : h = k
  · subst hkh
    rw [latest_tag_self]
    cases hlast : (events.filterMap f).getLast? with
    | none => simpa using hk
    | some v =>
      obtain ⟨e, he, hv⟩ := List.mem_filterMap.mp (List.mem_of_getLast? hlast)
      rintro h
      simp only [Option.some_or, Option.some.injEq] at h
      exact hf e (hP e he) (h ▸ hv)
  · rw [latest_tag_other f hkh]
    simpa using hk

/-- Only the handles and the log are compared. -/
theorem congr (hw : Grows P h w w') (htls : w''.tls = w'.tls) (hlog : w''.log = w'.log) :
    Grows P h w w'' :=
  ⟨fun k hk => htls ▸ hw.others k hk, hlog ▸ hw.calls⟩

theorem lastOf_eq {β : Type} {f : Event → Option β} (hw : Grows P h w w')
    (hf : ∀ e, P e → f e = none) : lastOf f w'.log = lastOf f w.log := by
  obtain ⟨events, hlog, hP⟩ := hw.calls
  have hnone : events.filterMap f = [] := by
    rw [List.filterMap_eq_nil_iff]
    exact fun e he => hf e (hP e he)
  rw [hlog, lastOf_append, lastOf_tag, hnone]
  rfl

/-- The events of one handle are not those of another. -/
theorem latest_other {β : Type} (f : Event → Option β) (hw : Grows P h w w') {k : Handle}
    (hk : k ≠ h) : latest f k w'.log = latest f k w.log := by
  obtain ⟨events, hlog, _⟩ := hw.calls
  rw [hlog, latest_append, latest_tag_other f (Ne.symm hk)]
  rfl

end Grows

/-- Work for `h` that is quiet and keeps the statics. -/
structure Extends (h : Handle) (w w' : World b) : Prop extends Grows Quiet h w w' where
  statics : statics w' = statics w

namespace Extends

variable {h : Handle} {w w' w'' : World b}

theorem refl (h : Handle) (w : World b) : Extends h w w := ⟨Grows.refl Quiet h w, rfl⟩

theorem trans (first : Extends h w w') (second : Extends h w' w'') : Extends h w w'' :=
  ⟨first.toGrows.trans second.toGrows, second.statics.trans first.statics⟩

theorem record {e : Event} (he : Quiet e) (hw : Extends h w w') :
    Extends h w (w'.record h e) :=
  ⟨hw.toGrows.record he, hw.statics⟩

theorem updateTls (f : Tls → Tls) (hw : Extends h w w') : Extends h w (w'.updateTls h f) :=
  ⟨hw.toGrows.updateTls f, hw.statics⟩

theorem setEndpoint (role : Role) (sockfd : Int32) (hw : Extends h w w') :
    Extends h w (w'.setEndpoint h role sockfd) :=
  hw.updateTls _

theorem nextObj (n : ℕ) (hw : Extends h w w') : Extends h w { w' with nextObj := n } :=
  ⟨⟨hw.others, hw.calls⟩, hw.statics⟩

end Extends

/-- An early exit that reports neither success nor a timeout of the lock. -/
def PlainExit : Exit → Prop
  | .ret .ok | .ret .timeout => False
  | _ => True

/-- The program makes quiet calls for `h` only, on every way out, and its early
exits are plain. -/
def QuietFor (h : Handle) {α : Type} (m : Backend b α) : Prop :=
  ∀ w, Prog.Triple (Extends h w) m (fun _ => Extends h w)
    fun x w' => PlainExit x ∧ Extends h w w'

namespace QuietFor

variable {h : Handle} {α β : Type}

theorem pure (a : α) : QuietFor h (pure a : Backend b α) := fun _ => .pure fun _ hw => hw

theorem stop (x : Exit) (hx : PlainExit x) :
    QuietFor h (Prog.stop x : Backend b α) :=
  fun _ => .stop fun _ hw => ⟨hx, hw⟩

theorem stopIf (c : Bool) (x : Exit) (hx : PlainExit x) :
    QuietFor h (Prog.stopIf c x : Backend b Unit) :=
  fun _ => .stopIf (fun _ _ hw => ⟨hx, hw⟩) fun _ _ hw => hw

theorem read (f : World b → α) : QuietFor h (Prog.read f : Backend b α) :=
  fun _ => .read fun _ hw => hw

theorem liftFault (r : Except Fault α) :
    QuietFor h (Prog.liftExcept (r.mapError .fault) : Backend b α) := by
  cases r with
  | ok a => exact pure a
  | error f => exact stop (.fault f) trivial

theorem bind {m : Backend b α} {f : α → Backend b β} (hm : QuietFor h m)
    (hf : ∀ a, QuietFor h (f a)) : QuietFor h (m >>= f) :=
  fun w => (hm w).bind fun a => hf a w

theorem ite {c : Prop} [Decidable c] {m n : Backend b α} (hm : QuietFor h m)
    (hn : QuietFor h n) : QuietFor h (if c then m else n) := by
  split
  · exact hm
  · exact hn

theorem call {e : Event} (he : Quiet e) : QuietFor h (call h e : Backend b Unit) :=
  fun _ => .modify fun _ hw => hw.record he

theorem updateTls (f : Tls → Tls) :
    QuietFor h (Prog.modify (·.updateTls h f) : Backend b Unit) :=
  fun _ => .modify fun _ hw => hw.updateTls f

theorem allocate {e : Option ℕ → Event} (succeeds : Bool)
    (he : ∀ obj, Quiet (e obj)) :
    QuietFor h (allocate h succeeds e : Backend b (Option ℕ)) := by
  cases succeeds with
  | false => exact (call (he none)).bind fun _ => pure none
  | true =>
    have hnew : QuietFor h (newObject : Backend b ℕ) := fun _ _ hw => hw.nextObj _
    exact hnew.bind fun obj => (call (he (some obj))).bind fun _ => pure (some obj)

theorem call_then {e : Event} {f : Unit → Backend b β} (he : Quiet e)
    (hf : QuietFor h (f ())) : QuietFor h (BackendState.call h e >>= f) :=
  (call he).bind fun _ => hf

theorem stopIf_then {c : Bool} {x : Exit} {f : Unit → Backend b β} (hx : PlainExit x)
    (hf : QuietFor h (f ())) : QuietFor h (Prog.stopIf c x >>= f) :=
  (stopIf c x hx).bind fun _ => hf

theorem allocate_then {e : Option ℕ → Event} {succeeds : Bool} {f : Option ℕ → Backend b β}
    (he : ∀ obj, Quiet (e obj)) (hf : ∀ obj, QuietFor h (f obj)) :
    QuietFor h (BackendState.allocate h succeeds e >>= f) :=
  (allocate succeeds he).bind hf

/-- A quiet program extends the state it starts in. -/
theorem run {m : Backend b α} (hm : QuietFor h m) (w : World b) : Extends h w (m w).2 := by
  have hrun := hm w w (Extends.refl h w)
  rcases hmw : m w with ⟨r, w'⟩
  rw [hmw] at hrun
  cases r with
  | ok a => exact hrun
  | error x => exact hrun.2

theorem of_ok {m : Backend b α} (hm : QuietFor h m) {w w' : World b} {a : α}
    (hrun : m w = (.ok a, w')) : Extends h w w' := by
  have hw := hm.run w
  rwa [hrun] at hw

end QuietFor

theorem newCtx_quiet (h : Handle) (succeeds : Bool) :
    QuietFor h (newCtx h succeeds : Backend b Unit) :=
  .allocate_then (fun _ => trivial) fun _ =>
    (QuietFor.updateTls _).bind fun _ => .stopIf _ _ trivial

theorem newSsl_quiet (h : Handle) (succeeds : Bool) :
    QuietFor h (newSsl h succeeds : Backend b Unit) :=
  (QuietFor.read _).bind fun _ => .allocate_then (fun _ => trivial) fun _ =>
    (QuietFor.updateTls _).bind fun _ => .stopIf _ _ trivial

theorem setVerify_quiet (h : Handle) (mode : VerifyMode) :
    QuietFor h (setVerify h mode : Backend b Unit) :=
  (QuietFor.read _).bind fun _ => .call trivial

theorem caHandover_quiet (h : Handle) (mem : List UInt8) (len : UInt32) (format : FileFormat)
    (malloc : Bool) :
    QuietFor h (caHandover h mem len format malloc : Backend b (Option Handover)) := by
  cases format with
  | asn1 => exact .pure _
  | pem =>
    refine (QuietFor.liftFault _).bind fun terminated => ?_
    refine .ite (.pure _) (.allocate_then (fun _ => trivial) fun buf => ?_)
    cases buf with
    | none => exact .pure none
    | some temp => exact (QuietFor.liftFault _).bind fun _ => .pure _

theorem loadCaCert_quiet (h : Handle) (mem : List UInt8) (len : UInt32) (format : FileFormat)
    (ans : LoadAnswers) :
    QuietFor h (loadCaCert h mem len format ans : Backend b (EspErr × Int32)) := by
  refine (QuietFor.read _).bind fun ctx => ?_
  refine (caHandover_quiet h mem len format ans.malloc).bind fun handover => ?_
  cases handover with
  | none => exact .pure _
  | some r =>
    have hfree : QuietFor h (freeTemp h r.temp : Backend b Unit) := by
      unfold freeTemp
      split
      · exact .pure ()
      · exact .call trivial
    exact .call_then trivial <| hfree.bind fun _ => .pure _

theorem loadOrExit_quiet (h : Handle) (mem : List UInt8) (len : UInt32) (type : X509FileType)
    (ans : LoadAnswers) : QuietFor h (loadOrExit h mem len type ans : Backend b Unit) := by
  have hload : QuietFor h
      (espLoadWolfsslVerifyBuffer h mem len type ans : Backend b (EspErr × Int32)) := by
    cases type with
    | caCert => exact (QuietFor.liftFault _).bind fun _ => loadCaCert_quiet h mem len _ ans
    | selfCert =>
      exact (QuietFor.liftFault _).bind fun _ => (QuietFor.read _).bind fun _ =>
        .call_then trivial <| .pure _
    | selfKey =>
      exact (QuietFor.liftFault _).bind fun _ => (QuietFor.read _).bind fun _ =>
        .call_then trivial <| .pure _
  exact hload.bind fun _ => .stopIf _ _ trivial

theorem loadCertAndKey_quiet (h : Handle) (cert key : Buffer) (ans : CreateAnswers) :
    QuietFor h (loadCertAndKey h cert key ans : Backend b Unit) :=
  (loadOrExit_quiet h _ _ _ _).bind fun _ => loadOrExit_quiet h _ _ _ _

theorem clientCertificate_quiet (h : Handle) (cfg : ClientCfg) (ans : CreateAnswers) :
    QuietFor h (clientCertificate h cfg ans : Backend b Unit) := by
  unfold clientCertificate
  split
  · exact loadCertAndKey_quiet h _ _ ans
  · exact .pure ()
  · exact .stop _ trivial

theorem clientHostname_quiet (h : Handle) (hostname : List UInt8) (cfg : ClientCfg)
    (ans : CreateAnswers) : QuietFor h (clientHostname h hostname cfg ans : Backend b Unit) := by
  refine .ite (.pure ()) (.allocate_then (fun _ => trivial) fun useHost => ?_)
  cases useHost with
  | none => exact .stop _ trivial
  | some host =>
    refine (QuietFor.read _).bind fun ssl => .call_then trivial <| ?_
    refine .ite ?_ ?_
    · exact .call_then trivial <| .call_then trivial <| .stopIf _ _ trivial
    · exact .call_then trivial <| .stop _ trivial

theorem registerAlpn_quiet (h : Handle) (answers : ℕ → Int32) (i : ℕ)
    (protocols : List CString) :
    QuietFor h (registerAlpn h answers i protocols : Backend b Unit) := by
  induction protocols generalizing i with
  | nil => exact .pure ()
  | cons protocol rest ih =>
    exact (QuietFor.read _).bind fun _ => .call_then trivial <| .stopIf_then trivial <| ih (i + 1)

theorem clientAlpn_quiet (h : Handle) (cfg : ClientCfg) (ans : CreateAnswers) :
    QuietFor h (clientAlpn h cfg ans : Backend b Unit) := by
  unfold clientAlpn
  split
  · exact .pure ()
  · exact .ite (registerAlpn_quiet h ans.useAlpn 0 _) (.stop _ trivial)

theorem clientOcsp_quiet (h : Handle) (ans : CreateAnswers) :
    QuietFor h (clientOcsp h ans : Backend b Unit) := by
  refine .ite ((QuietFor.read _).bind fun _ => (QuietFor.read _).bind fun _ => ?_) (.pure ())
  exact .call_then trivial <| .stopIf_then trivial <| .call_then trivial <|
    .stopIf_then trivial <| .call_then trivial <| .stopIf _ _ trivial

theorem setFd_quiet (h : Handle) : QuietFor h (setFd h : Backend b Unit) :=
  (QuietFor.read _).bind fun _ => .call trivial

theorem espWolfsslHandshake_quiet (h : Handle) (cfg : ClientCfg) (ans : CallAnswer)
    (flags : Int32) :
    QuietFor h (espWolfsslHandshake h cfg ans flags : Backend b Int32) := by
  have hflags : QuietFor h (captureVerifyResult h cfg flags : Backend b Unit) :=
    .ite ((QuietFor.read _).bind fun _ => .call_then trivial <|
      .ite (.pure ()) (.updateTls _)) (.pure ())
  refine (QuietFor.read _).bind fun ssl => .call_then trivial <| .ite ?_ ?_
  · exact (QuietFor.updateTls _).bind fun _ => .pure _
  · refine .call_then trivial <| .ite (.pure _) ?_
    exact (QuietFor.updateTls _).bind fun _ => (QuietFor.updateTls _).bind fun _ =>
      hflags.bind fun _ => (QuietFor.updateTls _).bind fun _ => .pure _

theorem captureUnlessRetry_quiet (h : Handle) (err : Int32) :
    QuietFor h (captureUnlessRetry h err : Backend b Unit) :=
  .ite (.pure ()) (.updateTls _)

theorem espWolfsslRead_quiet (h : Handle) (datalen : UInt32) (ans : CallAnswer) :
    QuietFor h (espWolfsslRead h datalen ans : Backend b Int32) := by
  refine (QuietFor.read _).bind fun ssl => .call_then trivial <| .ite ?_ (.pure _)
  refine .call_then trivial <| .ite (.pure _) ?_
  exact (captureUnlessRetry_quiet h ans.err).bind fun _ => .pure _

theorem espWolfsslWrite_quiet (h : Handle) (datalen : UInt32) (ans : CallAnswer) :
    QuietFor h (espWolfsslWrite h datalen ans : Backend b Int32) := by
  refine (QuietFor.read _).bind fun ssl => .call_then trivial <| .ite ?_ (.pure _)
  exact .call_then trivial <| (captureUnlessRetry_quiet h ans.err).bind fun _ => .pure _

theorem acceptLoop_quiet (h : Handle) (answers : List CallAnswer) :
    QuietFor h (acceptLoop h answers : Backend b Int32) := by
  induction answers with
  | nil => exact .stop _ trivial
  | cons ans rest ih =>
    refine (QuietFor.read _).bind fun ssl => .call_then trivial <| .ite (.pure _) ?_
    refine .call_then trivial <| .ite ih ?_
    exact (QuietFor.updateTls _).bind fun _ => .pure _

theorem serverVerification_quiet (h : Handle) (cfg : ServerCfg) (ans : CreateAnswers) :
    QuietFor h (serverVerification h cfg ans : Backend b Unit) := by
  unfold serverVerification
  split
  · exact (loadOrExit_quiet h _ _ _ _).bind fun _ => setVerify_quiet h _
  · exact setVerify_quiet h _

theorem serverCertificate_quiet (h : Handle) (cfg : ServerCfg) (ans : CreateAnswers) :
    QuietFor h (serverCertificate h cfg ans : Backend b Unit) := by
  unfold serverCertificate
  split
  · exact loadCertAndKey_quiet h _ _ ans
  · exact .stop _ trivial

/-- The program leaves `priv_ctx` and `priv_ssl` of the handle alone. -/
def KeepsObjects (h : Handle) {α : Type} (m : Backend b α) : Prop :=
  Prog.Keeps (fun w => objects w h) m

theorem call_keepsObjects (h : Handle) (e : Event) :
    KeepsObjects h (call h e : Backend b Unit) :=
  .modify fun _ => rfl

theorem capture_keepsObjects (h : Handle) (entry : Capture) :
    KeepsObjects h (capture h entry : Backend b Unit) :=
  .modify fun _ => objects_updateTls fun _ => ⟨rfl, rfl⟩

theorem captureUnlessRetry_keepsObjects (h : Handle) (err : Int32) :
    KeepsObjects h (captureUnlessRetry h err : Backend b Unit) :=
  .ite (.pure ()) (capture_keepsObjects h _)

theorem setConnState_keepsObjects (h : Handle) (state : ConnState) :
    KeepsObjects h (setConnState h state : Backend b Unit) :=
  .modify fun _ => objects_updateTls fun _ => ⟨rfl, rfl⟩

theorem espWolfsslHandshake_keepsObjects (h : Handle) (cfg : ClientCfg) (ans : CallAnswer)
    (flags : Int32) :
    KeepsObjects h (espWolfsslHandshake h cfg ans flags : Backend b Int32) := by
  have hflags : KeepsObjects h (captureVerifyResult h cfg flags : Backend b Unit) :=
    .ite ((Prog.Keeps.read _).bind fun _ => (call_keepsObjects h _).bind fun _ =>
      .ite (.pure ()) (capture_keepsObjects h _)) (.pure ())
  refine (Prog.Keeps.read _).bind fun ssl => (call_keepsObjects h _).bind fun _ => .ite ?_ ?_
  · exact (setConnState_keepsObjects h _).bind fun _ => .pure _
  · refine (call_keepsObjects h _).bind fun _ => .ite (.pure _) ?_
    exact (capture_keepsObjects h _).bind fun _ => (capture_keepsObjects h _).bind fun _ =>
      hflags.bind fun _ => (setConnState_keepsObjects h _).bind fun _ => .pure _

theorem espWolfsslRead_keepsObjects (h : Handle) (datalen : UInt32) (ans : CallAnswer) :
    KeepsObjects h (espWolfsslRead h datalen ans : Backend b Int32) := by
  refine (Prog.Keeps.read _).bind fun ssl => (call_keepsObjects h _).bind fun _ =>
    .ite ?_ (.pure _)
  refine (call_keepsObjects h _).bind fun _ => .ite (.pure _) ?_
  exact (captureUnlessRetry_keepsObjects h ans.err).bind fun _ => .pure _

theorem espWolfsslWrite_keepsObjects (h : Handle) (datalen : UInt32) (ans : CallAnswer) :
    KeepsObjects h (espWolfsslWrite h datalen ans : Backend b Int32) := by
  refine (Prog.Keeps.read _).bind fun ssl => (call_keepsObjects h _).bind fun _ =>
    .ite ?_ (.pure _)
  exact (call_keepsObjects h _).bind fun _ =>
    (captureUnlessRetry_keepsObjects h ans.err).bind fun _ => .pure _

end EspWolfssl.OperationFrames
