import EspWolfssl.OperationFrames

/-!
What the connection operations come to, case by case: the value they return and
the handle they leave. A failing call is told apart by the code wolfSSL gives.
-/
namespace EspWolfssl.IoOutcomes

open ByteRegions TaggedLogs Platform ProgramLogic BackendState HandleCreation ConnectionIo
  OperationFrames

variable {b : Build}

/-- The program returns `r` and leaves the handle as `t`. -/
def Comes (h : Handle) (m : Backend b Int32) (w : World b) (r : Int32) (t : Tls) : Prop :=
  ∃ w', m w = (.ok r, w') ∧ w'.tls h = t

/-- The handle after captures in its `error_handle`. -/
def noting (entries : List Capture) (t : Tls) : Tls :=
  { t with errorHandle := t.errorHandle ++ entries }

theorem capture_eq (h : Handle) (entry : Capture) (w : World b) :
    capture h entry w = (.ok (), w.updateTls h (noting [entry])) := rfl

section Conversion
variable (c : Codes)

theorem convert_wantRead : espTlsConvertWolfsslErrToSsize c c.wantRead = c.espWantRead := by
  simp [espTlsConvertWolfsslErrToSsize]

theorem convert_wantWrite : espTlsConvertWolfsslErrToSsize c c.wantWrite = c.espWantWrite := by
  simp [espTlsConvertWolfsslErrToSsize, c.want_ne.symm]

theorem convert_other {err : Int32} (herr : ¬ Retry c err) :
    espTlsConvertWolfsslErrToSsize c err = if 0 < err then -err else err := by
  have hread : err ≠ c.wantRead := fun heq => herr (Or.inl heq)
  have hwrite : err ≠ c.wantWrite := fun heq => herr (Or.inr heq)
  simp [espTlsConvertWolfsslErrToSsize, hread, hwrite]

theorem zeroReturn_not_retry : ¬ Retry c c.zeroReturn := by
  rintro (heq | heq)
  · exact c.zeroReturn_ne.1 heq
  · exact c.zeroReturn_ne.2 heq

/-- The conversion gives zero for no error only. -/
theorem convert_neg_iff (err : Int32) : espTlsConvertWolfsslErrToSsize c err < 0 ↔ err ≠ 0 := by
  by_cases hread : err = c.wantRead
  · subst hread
    rw [convert_wantRead]
    exact iff_of_true c.espWantRead_neg c.none_ne.1
  · by_cases hwrite : err = c.wantWrite
    · subst hwrite
      rw [convert_wantWrite]
      exact iff_of_true c.espWantWrite_neg c.none_ne.2.1
    · have hother : ¬ Retry c err := not_or.mpr ⟨hread, hwrite⟩
      rw [convert_other c hother]
      split
      · grind
      · grind

end Conversion

section Transfers
variable (h : Handle) (datalen : UInt32) (ans : CallAnswer) (w : World b)

theorem read_success (hret : 0 ≤ ans.ret) :
    Comes h (espWolfsslRead h datalen ans) w ans.ret (w.tls h) := by
  have hnot : ¬ ans.ret < 0 := by grind
  have hrun : espWolfsslRead h datalen ans w =
      (.ok ans.ret, w.record h (.read (w.tls h).privSsl datalen.toInt32 ans.ret)) := by
    simp only [espWolfsslRead, call, Prog.bind_apply, Prog.read_apply, Prog.modify_apply, hnot,
      if_false, Prog.pure_apply]
  exact ⟨_, hrun, rfl⟩

theorem read_closed (hret : ans.ret < 0) (herr : ans.err = b.codes.zeroReturn) :
    Comes h (espWolfsslRead h datalen ans) w 0 (w.tls h) := by
  have hrun : espWolfsslRead h datalen ans w =
      (.ok 0, (w.record h (.read (w.tls h).privSsl datalen.toInt32 ans.ret)).record h
        (.getError (w.tls h).privSsl ans.err)) := by
    simp only [espWolfsslRead, call, Prog.bind_apply, Prog.read_apply, Prog.modify_apply, hret,
      herr, if_true, Prog.pure_apply]
  exact ⟨_, hrun, rfl⟩

/-- The capture leaves the handle alone exactly on a retry. -/
theorem captureUnlessRetry_eq (err : Int32) :
    ∃ w', (captureUnlessRetry h err : Backend b Unit) w = (.ok (), w') ∧
      w'.tls h = if Retry b.codes err then w.tls h
        else noting [.customStack (-err)] (w.tls h) := by
  unfold captureUnlessRetry
  by_cases hretry : Retry b.codes err
  · exact ⟨w, by simp [hretry], by simp [hretry]⟩
  · exact ⟨_, by rw [if_neg hretry]; rfl, by simp [hretry, noting]⟩

theorem read_failure (hret : ans.ret < 0) (herr : ans.err ≠ b.codes.zeroReturn) :
    Comes h (espWolfsslRead h datalen ans) w (espTlsConvertWolfsslErrToSsize b.codes ans.err)
      (if Retry b.codes ans.err then w.tls h
        else noting [.customStack (-ans.err)] (w.tls h)) := by
  obtain ⟨w', hcapture, htls⟩ := captureUnlessRetry_eq h
    ((w.record h (.read (w.tls h).privSsl datalen.toInt32 ans.ret)).record h
      (.getError (w.tls h).privSsl ans.err)) ans.err
  refine ⟨w', ?_, htls⟩
  simp only [espWolfsslRead, call, Prog.bind_apply, Prog.read_apply, Prog.modify_apply, hret,
    herr, if_true, if_false, hcapture, Prog.pure_apply]

theorem write_success (hret : 0 < ans.ret) :
    Comes h (espWolfsslWrite h datalen ans) w ans.ret (w.tls h) := by
  have hnot : ¬ ans.ret ≤ 0 := by grind
  have hrun : espWolfsslWrite h datalen ans w =
      (.ok ans.ret, w.record h (.write (w.tls h).privSsl datalen.toInt32 ans.ret)) := by
    simp only [espWolfsslWrite, call, Prog.bind_apply, Prog.read_apply, Prog.modify_apply, hnot,
      if_false, Prog.pure_apply]
  exact ⟨_, hrun, rfl⟩

theorem write_failure (hret : ans.ret ≤ 0) :
    Comes h (espWolfsslWrite h datalen ans) w (espTlsConvertWolfsslErrToSsize b.codes ans.err)
      (if Retry b.codes ans.err then w.tls h
        else noting [.customStack (-ans.err)] (w.tls h)) := by
  obtain ⟨w', hcapture, htls⟩ := captureUnlessRetry_eq h
    ((w.record h (.write (w.tls h).privSsl datalen.toInt32 ans.ret)).record h
      (.getError (w.tls h).privSsl ans.err)) ans.err
  refine ⟨w', ?_, htls⟩
  simp only [espWolfsslWrite, call, Prog.bind_apply, Prog.read_apply, Prog.modify_apply, hret,
    if_true, hcapture, Prog.pure_apply]

end Transfers

section Handshake
variable (h : Handle) (cfg : ClientCfg) (ans : CallAnswer) (flags : Int32) (w : World b)

theorem handshake_success (hret : ans.ret = wolfsslSuccess) :
    Comes h (espWolfsslHandshake h cfg ans flags) w 1 { w.tls h with connState := .done } := by
  have hrun : espWolfsslHandshake h cfg ans flags w =
      (.ok 1, (w.record h (.connect (w.tls h).privSsl ans.ret)).updateTls h
        fun t => { t with connState := .done }) := by
    simp only [espWolfsslHandshake, call, setConnState, Prog.bind_apply, Prog.read_apply,
      Prog.modify_apply, hret, if_true, Prog.pure_apply]
  exact ⟨_, hrun, by simp⟩

theorem handshake_retry (hret : ans.ret ≠ wolfsslSuccess) (herr : Retry b.codes ans.err) :
    Comes h (espWolfsslHandshake h cfg ans flags) w 0 (w.tls h) := by
  have hrun : espWolfsslHandshake h cfg ans flags w =
      (.ok 0, (w.record h (.connect (w.tls h).privSsl ans.ret)).record h
        (.getError (w.tls h).privSsl ans.err)) := by
    simp only [espWolfsslHandshake, call, Prog.bind_apply, Prog.read_apply, Prog.modify_apply,
      hret, herr, if_true, if_false, Prog.pure_apply]
  exact ⟨_, hrun, rfl⟩

/-- The captures of the verification flags, when the client verifies a chain. -/
def flagCaptures : List Capture :=
  if (cfg.crtBundleAttach || cfg.cacertBuf.isSome || cfg.useGlobalCaStore) = true ∧
      flags ≠ wolfsslX509VOk then [.customStackCertFlags flags] else []

theorem captureVerifyResult_eq :
    ∃ w', (captureVerifyResult h cfg flags : Backend b Unit) w = (.ok (), w') ∧
      w'.tls h = noting (flagCaptures cfg flags) (w.tls h) := by
  unfold captureVerifyResult flagCaptures
  by_cases hverify : (cfg.crtBundleAttach || cfg.cacertBuf.isSome || cfg.useGlobalCaStore) = true
  · by_cases hok : flags = wolfsslX509VOk
    · refine ⟨w.record h (.getVerifyResult (w.tls h).privSsl flags), ?_, ?_⟩
      · simp only [hverify, if_true, Prog.bind_apply, Prog.read_apply, call, Prog.modify_apply,
          hok, Prog.pure_apply]
      · simp [hok, noting]
    · refine ⟨(w.record h (.getVerifyResult (w.tls h).privSsl flags)).updateTls h
        (noting [.customStackCertFlags flags]), ?_, ?_⟩
      · simp only [hverify, if_true, Prog.bind_apply, Prog.read_apply, call, Prog.modify_apply,
          hok, if_false, capture_eq]
      · simp only [hverify, hok, ne_eq, not_false_eq_true, and_self, if_true,
          World.updateTls_self, World.record_tls]
  · refine ⟨w, ?_, ?_⟩
    · rw [if_neg hverify, Prog.pure_apply]
    · simp [hverify, noting]

theorem handshake_failure (hret : ans.ret ≠ wolfsslSuccess) (herr : ¬ Retry b.codes ans.err) :
    Comes h (espWolfsslHandshake h cfg ans flags) w (-1)
      { noting (.customStack (-ans.err) :: .esp .wolfsslSslHandshakeFailed ::
          flagCaptures cfg flags) (w.tls h) with connState := .fail } := by
  obtain ⟨w', hflags, htls⟩ := captureVerifyResult_eq h cfg flags
    ((((w.record h (.connect (w.tls h).privSsl ans.ret)).record h
      (.getError (w.tls h).privSsl ans.err)).updateTls h
        (noting [.customStack (-ans.err)])).updateTls h
          (noting [.esp .wolfsslSslHandshakeFailed]))
  refine ⟨w'.updateTls h fun t => { t with connState := .fail }, ?_, ?_⟩
  · simp only [espWolfsslHandshake, call, capture_eq, setConnState, Prog.bind_apply,
      Prog.read_apply, Prog.modify_apply, hret, herr, if_false, hflags, Prog.pure_apply]
  · simp [htls, noting]

end Handshake

/-- The calls of one round of the loop. -/
def acceptCalls (ssl : Option ℕ) (ans : CallAnswer) : List Event :=
  if ans.ret = wolfsslSuccess then [.accept ssl ans.ret]
  else [.accept ssl ans.ret, .getError ssl ans.err]

/-- An answer after which the loop goes on. -/
def AcceptRetry (c : Codes) (ans : CallAnswer) : Prop :=
  ans.ret ≠ wolfsslSuccess ∧ Retry c ans.err

section Accepting
variable (h : Handle) (w : World b)

/-- The state after more calls of the handle. -/
def logging (events : List Event) : World b := { w with log := w.log ++ tag h events }

/-- A retry leads back to the loop, with nothing changed but the log. -/
theorem acceptLoop_retry {ans : CallAnswer} (rest : List CallAnswer)
    (hretry : AcceptRetry b.codes ans) :
    acceptLoop h (ans :: rest) w =
      acceptLoop h rest (logging h w (acceptCalls (w.tls h).privSsl ans)) := by
  obtain ⟨hret, herr⟩ := hretry
  simp only [acceptLoop, call, Prog.bind_apply, Prog.read_apply, Prog.modify_apply, hret, herr,
    if_true, if_false, acceptCalls, logging, World.record, tag_cons, tag_nil,
    List.append_assoc, List.cons_append, List.nil_append]

/-- Retries, however many, lead back to the loop. -/
theorem acceptLoop_retries (retries rest : List CallAnswer)
    (hretries : ∀ ans ∈ retries, AcceptRetry b.codes ans) :
    acceptLoop h (retries ++ rest) w =
      acceptLoop h rest (logging h w (retries.flatMap (acceptCalls (w.tls h).privSsl))) := by
  induction retries generalizing w with
  | nil => simp [logging]
  | cons ans retries ih =>
    have hfirst := hretries ans List.mem_cons_self
    have hrest := ih (logging h w (acceptCalls (w.tls h).privSsl ans))
      fun a ha => hretries a (List.mem_cons_of_mem ans ha)
    rw [List.cons_append, acceptLoop_retry h w _ hfirst, hrest]
    simp only [logging, tag_append, List.flatMap_cons, List.append_assoc]

/-- The answer that is not a retry ends the loop. -/
theorem acceptLoop_final {ans : CallAnswer} (rest : List CallAnswer)
    (hfinal : ¬ AcceptRetry b.codes ans) :
    acceptLoop h (ans :: rest) w =
      if ans.ret = wolfsslSuccess then
        (.ok 0, logging h w (acceptCalls (w.tls h).privSsl ans))
      else (.ok (-1), (logging h w (acceptCalls (w.tls h).privSsl ans)).updateTls h
        fun t => { t with connState := .fail }) := by
  by_cases hret : ans.ret = wolfsslSuccess
  · simp only [acceptLoop, call, Prog.bind_apply, Prog.read_apply, Prog.modify_apply, hret,
      if_true, Prog.pure_apply, acceptCalls, logging, World.record, tag_cons, tag_nil]
  · have herr : ¬ Retry b.codes ans.err := fun hretry => hfinal ⟨hret, hretry⟩
    simp only [acceptLoop, call, setConnState, Prog.bind_apply, Prog.read_apply,
      Prog.modify_apply, hret, herr, if_false, Prog.pure_apply, acceptCalls, logging,
      World.record, tag_cons, tag_nil, List.append_assoc, List.cons_append, List.nil_append]

end Accepting

end EspWolfssl.IoOutcomes
