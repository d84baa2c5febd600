import EspWolfssl.CreationOutcomes

/-!
The calls of a creation that succeeds. Each stretch that runs to its end appends
its own calls to the log and keeps the objects of its handle; the calls of the
whole are those of its stretches, one after the other.
-/
namespace EspWolfssl.CreationTraces

open ByteRegions MutexOwnership TaggedLogs Platform ProgramLogic BackendState PemSearch
  CertificateLoading PskClient HandleCreation OperationFrames CreationOutcomes

variable {b : Build}

/-- Work for `h` that made exactly these calls and kept its objects. -/
structure Emits (h : Handle) (w w' : World b) (events : List Event) : Prop where
  log : w'.log = w.log ++ tag h events
  objects : objects w' h = objects w h

namespace Emits

variable {h : Handle} {w w' w'' : World b} {events more : List Event}

theorem refl (h : Handle) (w : World b) : Emits h w w [] := ⟨by simp, rfl⟩

theorem trans (first : Emits h w w' events) (second : Emits h w' w'' more) :
    Emits h w w'' (events ++ more) where
  log := by rw [second.log, first.log, tag_append, List.append_assoc]
  objects := second.objects.trans first.objects

theorem record (h : Handle) (w : World b) (e : Event) : Emits h w (w.record h e) [e] :=
  ⟨rfl, rfl⟩

theorem privCtx_eq (hw : Emits h w w' events) : (w'.tls h).privCtx = (w.tls h).privCtx :=
  congrArg Prod.fst hw.objects

theorem privSsl_eq (hw : Emits h w w' events) : (w'.tls h).privSsl = (w.tls h).privSsl :=
  congrArg Prod.snd hw.objects

end Emits

/-- The calls that load the certificate of an authority from a memory object: in
place, less a final NUL of a PEM, or from a copy that is freed again. -/
inductive CaLoaded (ctx : Option ℕ) (mem : List UInt8) (len : UInt32) : List Event → Prop
  | whole : CaLoaded ctx mem len
      [.loadVerifyBuffer ctx none (mem.take len.toNat) len.toInt32 .asn1 wolfsslSuccess]
  | stripped (hterm : hasNullTerm mem len = .ok true) : CaLoaded ctx mem len
      [.loadVerifyBuffer ctx none (mem.take (len - 1).toNat) (len - 1).toInt32 .pem
        wolfsslSuccess]
  | copied (temp : ℕ) : CaLoaded ctx mem len
      [.malloc (some temp) (len + 1),
        .loadVerifyBuffer ctx (some temp) (mem.take len.toNat) len.toInt32 .pem wolfsslSuccess,
        .free temp]

section Loads
variable {h : Handle} {mem : List UInt8} {len : UInt32} {ans : LoadAnswers} {w w' : World b}

theorem success_of_loadResult {ret err : Int32} (hload : loadResult ret = (.ok, err)) :
    ret = wolfsslSuccess := by
  by_contra hret
  simp [loadResult, hret] at hload

/-- A check that passed, and what was done with its value. -/
theorem liftFault_bind_ok {α β : Type} {r : Except Fault α} {f : α → Backend b β} {c : β}
    (hrun : (Prog.liftExcept (r.mapError .fault) >>= f) w = (.ok c, w')) :
    ∃ v, r = .ok v ∧ f v w = (.ok c, w') := by
  cases r with
  | ok v => exact ⟨v, rfl, hrun⟩
  | error x => cases hrun

theorem loadCaCert_emits {format : FileFormat} {err : Int32}
    (hrun : loadCaCert h mem len format ans w = (.ok (.ok, err), w')) :
    ∃ events, Emits h w w' events ∧ CaLoaded (w.tls h).privCtx mem len events := by
  have hcase := loadCaCert_run h mem len ans w format
  rw [hrun] at hcase
  generalize hload : (Except.ok (EspErr.ok, err) : Except Exit (EspErr × Int32)) = load at hcase
  cases hcase with
  | asn1 =>
    have hret := success_of_loadResult (Except.ok.inj hload.symm)
    exact ⟨_, Emits.record h w _, hret ▸ .whole⟩
  | inPlace hterm =>
    have hret := success_of_loadResult (Except.ok.inj hload.symm)
    exact ⟨_, Emits.record h w _, hret ▸ .stripped hterm⟩
  | noMem => cases hload
  | copied hterm hmalloc hcopy =>
    have hret := success_of_loadResult (Except.ok.inj hload.symm)
    refine ⟨_, ⟨?_, rfl⟩, .copied w.nextObj⟩
    simp [hret, terminatedCopy_take hcopy]
  | fault => cases hload

/-- A load that goes on reported `ESP_OK`. -/
theorem loadOrExit_ok {type : X509FileType} {u : Unit}
    (hrun : loadOrExit h mem len type ans w = (.ok u, w')) :
    ∃ err, espLoadWolfsslVerifyBuffer h mem len type ans w = (.ok (.ok, err), w') := by
  obtain ⟨⟨e, err⟩, w₁, hload, hstop⟩ := Prog.bind_ok_iff.mp hrun
  obtain ⟨he, rfl⟩ := Prog.stopIf_ok_iff.mp hstop
  obtain rfl : e = .ok := by simpa using he
  exact ⟨err, hload⟩

theorem loadOrExit_ca_emits {u : Unit}
    (hrun : loadOrExit h mem len .caCert ans w = (.ok u, w')) :
    ∃ events, Emits h w w' events ∧ CaLoaded (w.tls h).privCtx mem len events := by
  obtain ⟨err, hload⟩ := loadOrExit_ok hrun
  obtain ⟨pem, _, hload⟩ := liftFault_bind_ok hload
  exact loadCaCert_emits hload

theorem ownLoad_ok {e : Option ℕ → Event} {ret err : Int32}
    (hrun : (Prog.read (fun w => (w.tls h).privCtx) >>= fun ctx => call h (e ctx) >>= fun _ =>
      pure (loadResult ret)) w = (.ok (.ok, err), w')) :
    ret = wolfsslSuccess ∧ w' = w.record h (e (w.tls h).privCtx) := by
  have hresult : ((.ok (loadResult ret), w.record h (e (w.tls h).privCtx)) :
      Except Exit (EspErr × Int32) × World b) = (.ok (.ok, err), w') := hrun
  obtain ⟨hload, hw'⟩ := Prod.mk.inj hresult
  exact ⟨success_of_loadResult (Except.ok.inj hload), hw'.symm⟩

/-- The call that loads an own certificate. -/
theorem loadOrExit_cert_emits {buf : Buffer} {u : Unit}
    (hrun : loadOrExit h buf.bytes buf.len .selfCert ans w = (.ok u, w')) :
    ∃ format, Emits h w w' [.useCertificateChainBuffer (w.tls h).privCtx buf.bytes
      buf.len.toInt32 format wolfsslSuccess] := by
  obtain ⟨err, hload⟩ := loadOrExit_ok hrun
  obtain ⟨pem, _, hload⟩ := liftFault_bind_ok hload
  obtain ⟨hret, rfl⟩ := ownLoad_ok hload
  refine ⟨formatOf pem, ⟨?_, rfl⟩⟩
  simp [hret, buf.len_toNat]

/-- The call that loads an own key. -/
theorem loadOrExit_key_emits {buf : Buffer} {u : Unit}
    (hrun : loadOrExit h buf.bytes buf.len .selfKey ans w = (.ok u, w')) :
    ∃ format, Emits h w w' [.usePrivateKeyBuffer (w.tls h).privCtx buf.bytes
      buf.len.toInt32 format wolfsslSuccess] := by
  obtain ⟨err, hload⟩ := loadOrExit_ok hrun
  obtain ⟨pem, _, hload⟩ := liftFault_bind_ok hload
  obtain ⟨hret, rfl⟩ := ownLoad_ok hload
  refine ⟨formatOf pem, ⟨?_, rfl⟩⟩
  simp [hret, buf.len_toNat]

end Loads

/-- The calls that load a certificate and its key, or none when neither is given. -/
inductive PairLoaded (ctx : Option ℕ) : Option Buffer → Option Buffer → List Event → Prop
  | neither : PairLoaded ctx none none []
  | both (cert key : Buffer) (certFormat keyFormat : FileFormat) :
      PairLoaded ctx (some cert) (some key)
        [.useCertificateChainBuffer ctx cert.bytes cert.len.toInt32 certFormat wolfsslSuccess,
          .usePrivateKeyBuffer ctx key.bytes key.len.toInt32 keyFormat wolfsslSuccess]

section Stretches
variable {h : Handle} {ans : CreateAnswers} {w w' : World b} {u : Unit}

theorem loadCertAndKey_emits {cert key : Buffer}
    (hrun : loadCertAndKey h cert key ans w = (.ok u, w')) :
    ∃ events, Emits h w w' events ∧
      PairLoaded (w.tls h).privCtx (some cert) (some key) events := by
  obtain ⟨_, w₁, hcert, hkey⟩ := Prog.bind_ok_iff.mp hrun
  obtain ⟨certFormat, hcert⟩ := loadOrExit_cert_emits hcert
  obtain ⟨keyFormat, hkey⟩ := loadOrExit_key_emits hkey
  have hboth := hcert.trans hkey
  rw [hcert.privCtx_eq] at hboth
  exact ⟨_, hboth, .both cert key certFormat keyFormat⟩

theorem clientCertificate_emits {cfg : ClientCfg}
    (hrun : clientCertificate h cfg ans w = (.ok u, w')) :
    ∃ events, Emits h w w' events ∧
      PairLoaded (w.tls h).privCtx cfg.clientcertBuf cfg.clientkeyBuf events := by
  unfold clientCertificate at hrun
  cases hcert : cfg.clientcertBuf with
  | some cert =>
    cases hkey : cfg.clientkeyBuf with
    | some key =>
      simp only [hcert, hkey] at hrun
      exact loadCertAndKey_emits hrun
    | none =>
      simp only [hcert, hkey] at hrun
      cases hrun
  | none =>
    cases hkey : cfg.clientkeyBuf with
    | some key =>
      simp only [hcert, hkey] at hrun
      cases hrun
    | none =>
      simp only [hcert, hkey] at hrun
      cases hrun
      exact ⟨[], Emits.refl h w, .neither⟩

theorem serverCertificate_emits {cfg : ServerCfg}
    (hrun : serverCertificate h cfg ans w = (.ok u, w')) :
    ∃ cert key events, cfg.servercertBuf = some cert ∧ cfg.serverkeyBuf = some key ∧
      Emits h w w' events ∧ PairLoaded (w.tls h).privCtx (some cert) (some key) events := by
  unfold serverCertificate at hrun
  cases hcert : cfg.servercertBuf with
  | some cert =>
    cases hkey : cfg.serverkeyBuf with
    | some key =>
      simp only [hcert, hkey] at hrun
      obtain ⟨events, hemits, hpair⟩ := loadCertAndKey_emits hrun
      exact ⟨cert, key, events, rfl, rfl, hemits, hpair⟩
    | none =>
      simp only [hcert, hkey] at hrun
      cases hrun
  | none =>
    simp only [hcert] at hrun
    cases hrun

theorem setVerify_emits {mode : VerifyMode} (hrun : setVerify h mode w = (.ok u, w')) :
    Emits h w w' [.setVerify (w.tls h).privCtx mode] := by
  cases hrun
  exact Emits.record h w _

/-- A load of an authority and the mode that is set behind it. -/
theorem loadAndVerify_emits {mem : List UInt8} {len : UInt32} {mode : VerifyMode}
    (hrun : (loadOrExit h mem len .caCert ans.loadCa >>= fun _ => setVerify h mode) w =
      (.ok u, w')) :
    ∃ load, CaLoaded (w.tls h).privCtx mem len load ∧
      Emits h w w' (load ++ [.setVerify (w.tls h).privCtx mode]) := by
  obtain ⟨_, w₁, hload, hverify⟩ := Prog.bind_ok_iff.mp hrun
  obtain ⟨load, hload, hca⟩ := loadOrExit_ca_emits hload
  have hboth := hload.trans (setVerify_emits hverify)
  rw [hload.privCtx_eq] at hboth
  exact ⟨load, hca, hboth⟩

end Stretches

/-- The calls by which a client comes to trust its server, given the content of
the global store. -/
inductive Trusts (b : Build) (store : Option (List UInt8) × UInt32) (cfg : ClientCfg)
    (ctx : Option ℕ) : List Event → Prop
  | globalStore {mem : List UInt8} {load : List Event} (huse : cfg.useGlobalCaStore = true)
      (hstore : store.1 = some mem) (hload : CaLoaded ctx mem store.2 load) :
      Trusts b store cfg ctx (load ++ [.setVerify ctx .peer])
  | cacert {buf : Buffer} {load : List Event} (huse : cfg.useGlobalCaStore = false)
      (hbuf : cfg.cacertBuf = some buf) (hload : CaLoaded ctx buf.bytes buf.len load) :
      Trusts b store cfg ctx (load ++ [.setVerify ctx .peer])
  | psk {psk : PskHintKey} {hint : CString} {key : List UInt8}
      (huse : cfg.useGlobalCaStore = false) (hbuf : cfg.cacertBuf = none)
      (hbuild : b.pskVerification = true) (hpsk : cfg.pskHintKey = some psk)
      (hcred : credentials psk = some (hint, key)) :
      Trusts b store cfg ctx [.semTake, .pskStored hint key, .setPskClientCallback ctx,
        .setCipherList ctx b.defaultCipherList wolfsslSuccess]
  | nobody (huse : cfg.useGlobalCaStore = false) (hbuf : cfg.cacertBuf = none)
      (hpsk : b.pskVerification = true → cfg.pskHintKey = none)
      (hbuild : b.skipServerCertVerify = true) :
      Trusts b store cfg ctx [.setVerify ctx .none]

section Stretches
variable {h : Handle} {ans : CreateAnswers} {w w' : World b} {u : Unit}

theorem configurePsk_emits {psk : PskHintKey} {ret : Int32}
    (hrun : configurePsk h psk ret w = (.ok u, w')) :
    ∃ hint key, credentials psk = some (hint, key) ∧
      Emits h w w' [.semTake, .pskStored hint key, .setPskClientCallback (w.tls h).privCtx,
        .setCipherList (w.tls h).privCtx b.defaultCipherList wolfsslSuccess] := by
  have haccepted := (configurePsk_returns h psk ret w).mp ⟨u, w', hrun⟩
  unfold pskAccepted at haccepted
  split at haccepted
  · cases haccepted
  · rename_i hint key hcred
    simp only [Bool.and_eq_true, beq_iff_eq, decide_eq_true_eq] at haccepted
    obtain ⟨⟨hlock, hfit⟩, hret⟩ := haccepted
    rw [configurePsk_fit hcred hlock hfit] at hrun
    obtain ⟨_, rfl⟩ := Prod.mk.inj hrun
    refine ⟨hint, key, hcred, ?_, rfl⟩
    simp [stored, holding, hret]

theorem clientVerification_emits {cfg : ClientCfg}
    (hrun : clientVerification h cfg ans w = (.ok u, w')) :
    ∃ events, Emits h w w' events ∧
      Trusts b (w.globalCacert, w.globalCacertPemBytes) cfg (w.tls h).privCtx events := by
  unfold clientVerification at hrun
  by_cases huse : cfg.useGlobalCaStore = true
  · rw [if_pos huse] at hrun
    obtain ⟨store, w₁, hread, hrun⟩ := Prog.bind_ok_iff.mp hrun
    cases hread
    cases hstore : w.globalCacert with
    | none =>
      simp only [hstore] at hrun
      cases hrun
    | some mem =>
      simp only [hstore] at hrun
      obtain ⟨load, hload, hemits⟩ := loadAndVerify_emits hrun
      exact ⟨_, hemits, .globalStore huse rfl hload⟩
  · rw [if_neg huse] at hrun
    have hno : cfg.useGlobalCaStore = false := by simpa using huse
    cases hbuf : cfg.cacertBuf with
    | some buf =>
      simp only [hbuf] at hrun
      obtain ⟨load, hload, hemits⟩ := loadAndVerify_emits hrun
      exact ⟨_, hemits, .cacert hno hbuf hload⟩
    | none =>
      simp only [hbuf] at hrun
      cases hpsk : (if b.pskVerification then cfg.pskHintKey else none) with
      | some psk =>
        simp only [hpsk] at hrun
        obtain ⟨hint, key, hcred, hemits⟩ := configurePsk_emits hrun
        have hbuild : b.pskVerification = true := by
          by_contra hbuild
          simp [hbuild] at hpsk
        rw [if_pos hbuild] at hpsk
        exact ⟨_, hemits, .psk hno hbuf hbuild hpsk hcred⟩
      | none =>
        simp only [hpsk] at hrun
        have hnone : b.pskVerification = true → cfg.pskHintKey = none := by
          intro hbuild
          rwa [if_pos hbuild] at hpsk
        by_cases hskip : b.skipServerCertVerify = true
        · rw [if_pos hskip] at hrun
          exact ⟨_, setVerify_emits hrun, .nobody hno hbuf hnone hskip⟩
        · rw [if_neg hskip] at hrun
          cases hrun

end Stretches

/-- The calls that bind a client's object to the name of its server. -/
inductive NameChecked (cfg : ClientCfg) (name : CString) (ssl : Option ℕ) : List Event → Prop
  | skipped (hskip : cfg.skipCommonName = true) : NameChecked cfg name ssl []
  | checked (hskip : cfg.skipCommonName = false) (host : ℕ) : NameChecked cfg name ssl
      [.strdup (some host), .checkDomainName ssl host name wolfsslSuccess,
        .useSni ssl host name wolfsslSuccess, .free host]

/-- The calls behind the name check: they succeed, and none of them concerns the
authentication of the server. -/
def Extra (ctx ssl : Option ℕ) : Event → Prop
  | .useAlpn ssl' _ ret => ssl' = ssl ∧ ret = wolfsslSuccess
  | .ctxEnableOcsp ctx' _ ret => ctx' = ctx ∧ ret = wolfsslSuccess
  | .ctxEnableOcspStapling ctx' ret => ctx' = ctx ∧ ret = wolfsslSuccess
  | .useOcspStapling ssl' ret => ssl' = ssl ∧ ret = wolfsslSuccess
  | .setFd ssl' _ => ssl' = ssl
  | _ => False

section Stretches
variable {h : Handle} {hostname : List UInt8} {cfg : ClientCfg} {ans : CreateAnswers}
  {w w' : World b} {u : Unit}

theorem clientHostname_emits (hrun : clientHostname h hostname cfg ans w = (.ok u, w')) :
    ∃ events, Emits h w w' events ∧
      NameChecked cfg (hostName hostname cfg) (w.tls h).privSsl events := by
  have haccepted := (clientHostname_returns h hostname cfg ans w).mp ⟨u, w', hrun⟩
  unfold hostnameAccepted at haccepted
  unfold clientHostname at hrun
  by_cases hskip : cfg.skipCommonName = true
  · rw [if_pos hskip] at hrun
    cases hrun
    exact ⟨[], Emits.refl h w, .skipped hskip⟩
  · rw [if_neg hskip] at hrun
    simp only [hskip, Bool.false_or, Bool.and_eq_true, beq_iff_eq] at haccepted
    obtain ⟨⟨hdup, hcheck⟩, hsni⟩ := haccepted
    simp only [allocate, newObject, call, Prog.bind_apply, Prog.modify_apply, Prog.pure_apply,
      Prog.read_apply, hdup, hcheck, hsni, ↓reduceIte, bne_self_eq_false, Prog.stopIf_false,
      Prod.mk.injEq] at hrun
    obtain ⟨_, rfl⟩ := hrun
    have hno : cfg.skipCommonName = false := by simpa using hskip
    exact ⟨_, ⟨by simp, rfl⟩, .checked hno w.nextObj⟩

theorem registerAlpn_emits {answers : ℕ → Int32} {i : ℕ} {protocols : List CString}
    (hrun : registerAlpn h answers i protocols w = (.ok u, w')) (ctx : Option ℕ) :
    ∃ events, Emits h w w' events ∧ ∀ e ∈ events, Extra ctx (w.tls h).privSsl e := by
  induction protocols generalizing i w with
  | nil =>
    cases hrun
    exact ⟨[], Emits.refl h _, by simp⟩
  | cons p rest ih =>
    obtain ⟨ssl, w₀, hread, hrun⟩ := Prog.bind_ok_iff.mp hrun
    cases hread
    obtain ⟨_, w₁, hcall, hrun⟩ := Prog.bind_ok_iff.mp hrun
    cases hcall
    obtain ⟨_, w₂, hstop, hrun⟩ := Prog.bind_ok_iff.mp hrun
    obtain ⟨hret, rfl⟩ := Prog.stopIf_ok_iff.mp hstop
    obtain ⟨events, hemits, hextra⟩ := ih hrun
    refine ⟨_, (Emits.record h w _).trans hemits, ?_⟩
    intro e he
    rcases List.mem_append.mp he with hfirst | hrest
    · obtain rfl := List.mem_singleton.mp hfirst
      exact ⟨rfl, by simpa using hret⟩
    · exact hextra e hrest

theorem clientAlpn_emits (hrun : clientAlpn h cfg ans w = (.ok u, w')) (ctx : Option ℕ) :
    ∃ events, Emits h w w' events ∧ ∀ e ∈ events, Extra ctx (w.tls h).privSsl e := by
  unfold clientAlpn at hrun
  cases hprotos : cfg.alpnProtos with
  | none =>
    simp only [hprotos] at hrun
    cases hrun
    exact ⟨[], Emits.refl h w, by simp⟩
  | some protocols =>
    simp only [hprotos] at hrun
    by_cases hbuild : b.haveAlpn = true
    · rw [if_pos hbuild] at hrun
      exact registerAlpn_emits hrun ctx
    · rw [if_neg hbuild] at hrun
      cases hrun

theorem clientOcsp_emits (hrun : clientOcsp h ans w = (.ok u, w')) :
    ∃ events, Emits h w w' events ∧
      ∀ e ∈ events, Extra (w.tls h).privCtx (w.tls h).privSsl e := by
  have haccepted := (clientOcsp_returns h ans w).mp ⟨u, w', hrun⟩
  unfold ocspAccepted at haccepted
  unfold clientOcsp at hrun
  by_cases hbuild : b.haveOcsp = true
  · rw [if_pos hbuild] at hrun
    simp only [hbuild, Bool.not_true, Bool.false_or, Bool.and_eq_true, beq_iff_eq] at haccepted
    obtain ⟨⟨hocsp, hctx⟩, hssl⟩ := haccepted
    simp only [call, Prog.bind_apply, Prog.modify_apply, Prog.pure_apply, Prog.read_apply,
      hocsp, hctx, hssl, bne_self_eq_false, Prog.stopIf_false, Prod.mk.injEq] at hrun
    obtain ⟨_, rfl⟩ := hrun
    refine ⟨[.ctxEnableOcsp (w.tls h).privCtx b.ocspCheckall wolfsslSuccess,
      .ctxEnableOcspStapling (w.tls h).privCtx wolfsslSuccess,
      .useOcspStapling (w.tls h).privSsl wolfsslSuccess], ⟨by simp, rfl⟩, ?_⟩
    simp [Extra]
  · rw [if_neg hbuild] at hrun
    cases hrun
    exact ⟨[], Emits.refl h w, by simp⟩

theorem setFd_emits (hrun : setFd h w = (.ok u, w')) (ctx : Option ℕ) :
    ∃ events, Emits h w w' events ∧ ∀ e ∈ events, Extra ctx (w.tls h).privSsl e := by
  cases hrun
  refine ⟨[.setFd (w.tls h).privSsl (w.tls h).sockfd], Emits.record h w _, ?_⟩
  simp [Extra]

theorem objectSetup_emits (hrun : objectSetup h hostname cfg ans w = (.ok u, w')) :
    ∃ name extras, Emits h w w' (name ++ extras) ∧
      NameChecked cfg (hostName hostname cfg) (w.tls h).privSsl name ∧
      ∀ e ∈ extras, Extra (w.tls h).privCtx (w.tls h).privSsl e := by
  obtain ⟨_, w₁, hname, hrun⟩ := Prog.bind_ok_iff.mp hrun
  obtain ⟨_, w₂, halpn, hrun⟩ := Prog.bind_ok_iff.mp hrun
  obtain ⟨_, w₃, hocsp, hfd⟩ := Prog.bind_ok_iff.mp hrun
  obtain ⟨name, hname, hchecked⟩ := clientHostname_emits hname
  obtain ⟨alpn, halpn, halpnExtra⟩ := clientAlpn_emits halpn (w₁.tls h).privCtx
  obtain ⟨ocsp, hocsp, hocspExtra⟩ := clientOcsp_emits hocsp
  obtain ⟨fd, hfd, hfdExtra⟩ := setFd_emits hfd (w₃.tls h).privCtx
  rw [hname.privCtx_eq, hname.privSsl_eq] at halpnExtra
  rw [halpn.privCtx_eq, halpn.privSsl_eq, hname.privCtx_eq, hname.privSsl_eq] at hocspExtra
  rw [hocsp.privCtx_eq, hocsp.privSsl_eq, halpn.privCtx_eq, halpn.privSsl_eq, hname.privCtx_eq,
    hname.privSsl_eq] at hfdExtra
  refine ⟨name, alpn ++ (ocsp ++ fd), hname.trans (halpn.trans (hocsp.trans hfd)), hchecked, ?_⟩
  intro e he
  rcases List.mem_append.mp he with he | he
  · exact halpnExtra e he
  · rcases List.mem_append.mp he with he | he
    · exact hocspExtra e he
    · exact hfdExtra e he

end Stretches

end EspWolfssl.CreationTraces
