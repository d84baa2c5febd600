import EspWolfssl.OperationFrames

/-!
When a creation returns `ESP_OK`. Each stretch of the configuration functions
has a test on its inputs, and it runs to its end exactly when its test passes;
the creation succeeds exactly when all tests pass.
-/
namespace EspWolfssl.CreationOutcomes

open ByteRegions MutexOwnership TaggedLogs Platform ProgramLogic BackendState PemSearch
  CertificateLoading PskClient HandleCreation OperationFrames

variable {b : Build}

/-- The answers under which a load returns `ESP_OK`. -/
def loadAccepted (mem : List UInt8) (len : UInt32) (type : X509FileType) (ans : LoadAnswers) :
    Bool :=
  ans.ret == wolfsslSuccess &&
    match type with
    | .selfKey => (espWolfsslBufHasPemHeader (some mem) len headerAny).isOk
    | .selfCert => (espWolfsslBufHasPemHeader (some mem) len headerCertificate).isOk
    | .caCert =>
        match espWolfsslBufHasPemHeader (some mem) len headerCertificate with
        | .error _ => false
        | .ok false => true
        | .ok true =>
            match hasNullTerm mem len with
            | .error _ => false
            | .ok true => true
            | .ok false => ans.malloc && (terminatedCopy mem len).isOk

theorem loadResult_accepted (ret : Int32) (w : World b) :
    (∃ a w', (Prog.stopIf ((loadResult ret).1 != .ok) (.ret .wolfsslCertVerifySetupFailed) :
      Backend b Unit) w = (.ok a, w')) ↔ ret = wolfsslSuccess := by
  by_cases hret : ret = wolfsslSuccess <;> simp [loadResult, hret, Prog.stopIf]

theorem loadOrExit_returns (h : Handle) (mem : List UInt8) (len : UInt32)
    (type : X509FileType) (ans : LoadAnswers) :
    Prog.Returns (loadOrExit h mem len type ans : Backend b Unit)
      fun _ => loadAccepted mem len type ans = true := by
  intro w
  cases type with
  | selfKey =>
    cases hs : espWolfsslBufHasPemHeader (some mem) len headerAny <;>
      by_cases hret : ans.ret = wolfsslSuccess <;>
      simp [loadOrExit, espLoadWolfsslVerifyBuffer, loadAccepted, loadResult, call,
        Prog.bind_apply, Prog.stopIf, hs, hret, Except.mapError, Except.isOk, Except.toBool]
  | selfCert =>
    cases hs : espWolfsslBufHasPemHeader (some mem) len headerCertificate <;>
      by_cases hret : ans.ret = wolfsslSuccess <;>
      simp [loadOrExit, espLoadWolfsslVerifyBuffer, loadAccepted, loadResult, call,
        Prog.bind_apply, Prog.stopIf, hs, hret, Except.mapError, Except.isOk, Except.toBool]
  | caCert =>
    cases hs : espWolfsslBufHasPemHeader (some mem) len headerCertificate with
    | error f =>
      simp [loadOrExit, espLoadWolfsslVerifyBuffer, loadAccepted, Prog.bind_apply, hs,
        Except.mapError]
    | ok pem =>
      have hload : loadOrExit h mem len .caCert ans w =
          (loadCaCert h mem len (formatOf pem) ans >>= fun ret =>
            Prog.stopIf (ret.1 != .ok) (.ret .wolfsslCertVerifySetupFailed)) w := by
        simp [loadOrExit, espLoadWolfsslVerifyBuffer, Prog.bind_apply, hs, Except.mapError]
      rw [hload, Prog.bind_apply]
      have hrun := loadCaCert_run h mem len ans w (formatOf pem)
      generalize loadCaCert h mem len (formatOf pem) ans w = r at hrun
      simp only [loadAccepted, hs]
      cases pem with
      | false =>
        cases hrun with
        | asn1 => simp [loadResult_accepted]
      | true =>
        cases hrun with
        | inPlace hterm => simp [loadResult_accepted, hterm]
        | noMem hterm hmalloc => simp [Prog.stopIf, hterm, hmalloc]
        | copied hterm hmalloc hcopy =>
          simp [loadResult_accepted, hterm, hmalloc, hcopy, Except.isOk, Except.toBool]
        | fault hterm hmalloc =>
          cases hread : hasNullTerm mem len with
          | error f => simp
          | ok terminated =>
            cases terminated with
            | true => exact absurd hread hterm
            | false =>
              obtain ⟨_, f, hcopy⟩ := hmalloc hread
              simp [hcopy, Except.isOk, Except.toBool]

/-- The source of trust a client's configuration selects, when it is the
pre-shared key. -/
def pskSource (b : Build) (cfg : ClientCfg) : Option PskHintKey :=
  if cfg.useGlobalCaStore || cfg.cacertBuf.isSome then none
  else if b.pskVerification then cfg.pskHintKey else none

/-- The branch takes the lock: the credentials are complete and it is free. -/
def pskTakes (psk : PskHintKey) (lock : Mutex) : Bool :=
  (credentials psk).isSome && lock == .free

def pskAccepted (b : Build) (psk : PskHintKey) (lock : Mutex) (ret : Int32) : Bool :=
  match credentials psk with
  | none => false
  | some (hint, key) =>
      lock == .free && decide (CredentialsFit b hint key) && ret == wolfsslSuccess

def verificationAccepted (cfg : ClientCfg) (ans : CreateAnswers) (w : World b) : Bool :=
  if cfg.useGlobalCaStore then
    match w.globalCacert with
    | none => false
    | some mem => loadAccepted mem w.globalCacertPemBytes .caCert ans.loadCa
  else match cfg.cacertBuf with
    | some buf => loadAccepted buf.bytes buf.len .caCert ans.loadCa
    | none =>
        match pskSource b cfg with
        | some psk => pskAccepted b psk w.tlsConnLock ans.setCipherList
        | none => b.skipServerCertVerify

def certificateAccepted (cert key : Buffer) (ans : CreateAnswers) : Bool :=
  loadAccepted cert.bytes cert.len .selfCert ans.loadCert &&
    loadAccepted key.bytes key.len .selfKey ans.loadKey

def clientCertificateAccepted (cfg : ClientCfg) (ans : CreateAnswers) : Bool :=
  match cfg.clientcertBuf, cfg.clientkeyBuf with
  | some cert, some key => certificateAccepted cert key ans
  | none, none => true
  | _, _ => false

def hostnameAccepted (cfg : ClientCfg) (ans : CreateAnswers) : Bool :=
  cfg.skipCommonName ||
    (ans.strdup && ans.checkDomainName == wolfsslSuccess && ans.useSni == wolfsslSuccess)

/-- The registrations of `n` names from the `i`-th on all succeed. -/
def alpnAnswersAccepted (answers : ℕ → Int32) : ℕ → ℕ → Bool
  | _, 0 => true
  | i, n + 1 => answers i == wolfsslSuccess && alpnAnswersAccepted answers (i + 1) n

def alpnAccepted (b : Build) (cfg : ClientCfg) (ans : CreateAnswers) : Bool :=
  match cfg.alpnProtos with
  | none => true
  | some protocols => b.haveAlpn && alpnAnswersAccepted ans.useAlpn 0 protocols.length

def ocspAccepted (b : Build) (ans : CreateAnswers) : Bool :=
  !b.haveOcsp || (ans.ctxEnableOcsp == wolfsslSuccess &&
    ans.ctxEnableOcspStapling == wolfsslSuccess && ans.useOcspStapling == wolfsslSuccess)

def clientAccepted (cfg : ClientCfg) (ans : CreateAnswers) (w : World b) : Bool :=
  ans.ctxNew && !cfg.crtBundleAttach && verificationAccepted cfg ans w &&
    clientCertificateAccepted cfg ans && ans.sslNew && hostnameAccepted cfg ans &&
    alpnAccepted b cfg ans && ocspAccepted b ans

def serverAccepted (cfg : ServerCfg) (ans : CreateAnswers) : Bool :=
  ans.ctxNew &&
    (match cfg.cacertBuf with
      | some buf => loadAccepted buf.bytes buf.len .caCert ans.loadCa
      | none => true) &&
    (match cfg.servercertBuf, cfg.serverkeyBuf with
      | some cert, some key => certificateAccepted cert key ans
      | _, _ => false) && ans.sslNew

def configAccepted (role : Role) (cfg : Cfg) (ans : CreateAnswers) (w : World b) : Bool :=
  match role, cfg with
  | .client, .client cfg => clientAccepted cfg ans w
  | .server, .server cfg => serverAccepted cfg ans
  | _, _ => false

/-- The inputs on which `create_ssl_handle` returns `ESP_OK`. -/
def createAccepted (role : Role) (cfg : Cfg) (ans : CreateAnswers) (w : World b) : Bool :=
  ans.wolfsslInit == wolfsslSuccess && configAccepted role cfg ans w

theorem newCtx_true (h : Handle) (w : World b) :
    newCtx h true w = (.ok (), ({ w with nextObj := w.nextObj + 1 }.record h
      (.ctxNew (some w.nextObj))).updateTls h fun t => { t with privCtx := some w.nextObj }) :=
  rfl

theorem newCtx_false (h : Handle) (w : World b) :
    newCtx h false w = (.error (.ret .wolfsslCtxSetupFailed),
      (w.record h (.ctxNew none)).updateTls h fun t => { t with privCtx := none }) := rfl

theorem newSsl_true (h : Handle) (w : World b) :
    newSsl h true w = (.ok (), ({ w with nextObj := w.nextObj + 1 }.record h
      (.sslNew (w.tls h).privCtx (some w.nextObj))).updateTls h
        fun t => { t with privSsl := some w.nextObj }) :=
  rfl

theorem newSsl_false (h : Handle) (w : World b) :
    newSsl h false w = (.error (.ret .wolfsslSslSetupFailed),
      (w.record h (.sslNew (w.tls h).privCtx none)).updateTls h
        fun t => { t with privSsl := none }) := rfl

theorem newCtx_returns (h : Handle) (ok : Bool) :
    Prog.Returns (newCtx h ok : Backend b Unit) fun _ => ok = true := by
  intro w
  cases ok
  · simp [newCtx_false]
  · simp [newCtx_true]

theorem newSsl_returns (h : Handle) (ok : Bool) :
    Prog.Returns (newSsl h ok : Backend b Unit) fun _ => ok = true := by
  intro w
  cases ok
  · simp [newSsl_false]
  · simp [newSsl_true]

theorem setVerify_returns (h : Handle) (mode : VerifyMode) :
    Prog.Returns (setVerify h mode : Backend b Unit) fun _ => True :=
  fun _ => ⟨fun _ => trivial, fun _ => ⟨(), _, rfl⟩⟩

theorem setFd_returns (h : Handle) : Prog.Returns (setFd h : Backend b Unit) fun _ => True :=
  fun _ => ⟨fun _ => trivial, fun _ => ⟨(), _, rfl⟩⟩

theorem configurePsk_returns (h : Handle) (psk : PskHintKey) (ret : Int32) :
    Prog.Returns (configurePsk h psk ret : Backend b Unit)
      fun w => pskAccepted b psk w.tlsConnLock ret = true := by
  intro w
  unfold pskAccepted
  cases hcred : credentials psk with
  | none => simp [configurePsk_incomplete hcred]
  | some c =>
    obtain ⟨hint, key⟩ := c
    by_cases hlock : w.tlsConnLock = .free
    · by_cases hfit : CredentialsFit b hint key
      · by_cases hret : ret = wolfsslSuccess <;>
          simp [configurePsk_fit hcred hlock hfit, hlock, hfit, hret]
      · simp [configurePsk_tooLong hcred hlock hfit, hfit]
    · simp [configurePsk_busy hcred hlock, hlock]

theorem clientVerification_returns (h : Handle) (cfg : ClientCfg) (ans : CreateAnswers) :
    Prog.Returns (clientVerification h cfg ans : Backend b Unit)
      fun w => verificationAccepted cfg ans w = true := by
  have hload : ∀ (mem : List UInt8) (len : UInt32),
      Prog.Returns (do loadOrExit h mem len .caCert ans.loadCa; setVerify h .peer :
        Backend b Unit) fun _ => loadAccepted mem len .caCert ans.loadCa = true := by
    intro mem len
    refine ((loadOrExit_returns h mem len .caCert ans.loadCa).bind_const
      fun _ => setVerify_returns h .peer).congr ?_
    simp
  intro w
  unfold clientVerification verificationAccepted
  cases hglobal : cfg.useGlobalCaStore with
  | true =>
    cases hstore : w.globalCacert with
    | none => simp [Prog.bind_apply, hstore]
    | some mem => simpa [Prog.bind_apply, hstore] using hload mem w.globalCacertPemBytes w
  | false =>
    cases hca : cfg.cacertBuf with
    | some buf => simpa using hload buf.bytes buf.len w
    | none =>
      have hsource : pskSource b cfg = if b.pskVerification then cfg.pskHintKey else none := by
        simp [pskSource, hglobal, hca]
      simp only [Bool.false_eq_true, if_false, hsource]
      cases hpsk : (if b.pskVerification then cfg.pskHintKey else none) with
      | some psk => exact configurePsk_returns h psk ans.setCipherList w
      | none =>
        cases hskip : b.skipServerCertVerify with
        | true => simpa using setVerify_returns (b := b) h .none w
        | false => simp

theorem loadCertAndKey_returns (h : Handle) (cert key : Buffer) (ans : CreateAnswers) :
    Prog.Returns (loadCertAndKey h cert key ans : Backend b Unit)
      fun _ => certificateAccepted cert key ans = true := by
  refine ((loadOrExit_returns h cert.bytes cert.len .selfCert ans.loadCert).bind_const
    fun _ => loadOrExit_returns h key.bytes key.len .selfKey ans.loadKey).congr ?_
  simp [certificateAccepted]

theorem clientCertificate_returns (h : Handle) (cfg : ClientCfg) (ans : CreateAnswers) :
    Prog.Returns (clientCertificate h cfg ans : Backend b Unit)
      fun _ => clientCertificateAccepted cfg ans = true := by
  unfold clientCertificate clientCertificateAccepted
  cases cfg.clientcertBuf with
  | some cert =>
    cases cfg.clientkeyBuf with
    | some key => exact loadCertAndKey_returns h cert key ans
    | none => exact (Prog.Returns.stop _).congr (by simp)
  | none =>
    cases cfg.clientkeyBuf with
    | some key => exact (Prog.Returns.stop _).congr (by simp)
    | none => exact (Prog.Returns.pure ()).congr (by simp)

theorem clientHostname_returns (h : Handle) (hostname : List UInt8) (cfg : ClientCfg)
    (ans : CreateAnswers) :
    Prog.Returns (clientHostname h hostname cfg ans : Backend b Unit)
      fun _ => hostnameAccepted cfg ans = true := by
  intro w
  unfold clientHostname hostnameAccepted
  cases cfg.skipCommonName with
  | true => simp
  | false =>
    cases hdup : ans.strdup with
    | false => simp [allocate, call, Prog.bind_apply]
    | true =>
      by_cases hcheck : ans.checkDomainName = wolfsslSuccess <;>
        by_cases hsni : ans.useSni = wolfsslSuccess <;>
        simp [allocate, newObject, call, Prog.bind_apply, Prog.stopIf, hcheck, hsni]

theorem registerAlpn_returns (h : Handle) (answers : ℕ → Int32) (i : ℕ)
    (protocols : List CString) :
    Prog.Returns (registerAlpn h answers i protocols : Backend b Unit)
      fun _ => alpnAnswersAccepted answers i protocols.length = true := by
  induction protocols generalizing i with
  | nil => exact (Prog.Returns.pure ()).congr (by simp [alpnAnswersAccepted])
  | cons protocol rest ih =>
    intro w
    by_cases hans : answers i = wolfsslSuccess
    · have hrest := ih (i + 1)
        (w.record h (.useAlpn (w.tls h).privSsl protocol (answers i)))
      simpa [registerAlpn, alpnAnswersAccepted, call, Prog.bind_apply, Prog.stopIf, hans]
        using hrest
    · simp [registerAlpn, alpnAnswersAccepted, call, Prog.bind_apply, Prog.stopIf, hans]

theorem clientAlpn_returns (h : Handle) (cfg : ClientCfg) (ans : CreateAnswers) :
    Prog.Returns (clientAlpn h cfg ans : Backend b Unit)
      fun _ => alpnAccepted b cfg ans = true := by
  unfold clientAlpn alpnAccepted
  cases cfg.alpnProtos with
  | none => exact (Prog.Returns.pure ()).congr (by simp)
  | some protocols =>
    cases hbuild : b.haveAlpn with
    | true => simpa using registerAlpn_returns (b := b) h ans.useAlpn 0 protocols
    | false => exact (Prog.Returns.stop _).congr (by simp)

theorem clientOcsp_returns (h : Handle) (ans : CreateAnswers) :
    Prog.Returns (clientOcsp h ans : Backend b Unit) fun _ => ocspAccepted b ans = true := by
  intro w
  unfold clientOcsp ocspAccepted
  cases b.haveOcsp with
  | false => simp
  | true =>
    by_cases h1 : ans.ctxEnableOcsp = wolfsslSuccess <;>
      by_cases h2 : ans.ctxEnableOcspStapling = wolfsslSuccess <;>
      by_cases h3 : ans.useOcspStapling = wolfsslSuccess <;>
      simp [call, Prog.bind_apply, Prog.stopIf, h1, h2, h3]

/-- What a client sets up after it is known how it authenticates the server. -/
def clientFinish (h : Handle) (hostname : List UInt8) (cfg : ClientCfg)
    (ans : CreateAnswers) : Backend b Unit := do
  clientCertificate h cfg ans
  newSsl h ans.sslNew
  clientHostname h hostname cfg ans
  clientAlpn h cfg ans
  clientOcsp h ans
  setFd h

theorem setClientConfig_eq (h : Handle) (hostname : List UInt8) (cfg : ClientCfg)
    (ans : CreateAnswers) :
    (setClientConfig h hostname cfg ans : Backend b Unit) =
      (newCtx h ans.ctxNew >>= fun _ =>
        Prog.stopIf cfg.crtBundleAttach (.ret .notSupported) >>= fun _ =>
          clientVerification h cfg ans >>= fun _ => clientFinish h hostname cfg ans) := rfl

/-- What a client sets up on its context, before it creates the session object. -/
def contextSetup (h : Handle) (cfg : ClientCfg) (ans : CreateAnswers) : Backend b Unit := do
  newCtx h ans.ctxNew
  Prog.stopIf cfg.crtBundleAttach (.ret .notSupported)
  clientVerification h cfg ans
  clientCertificate h cfg ans

/-- What a client sets up on its session object. -/
def objectSetup (h : Handle) (hostname : List UInt8) (cfg : ClientCfg)
    (ans : CreateAnswers) : Backend b Unit := do
  clientHostname h hostname cfg ans
  clientAlpn h cfg ans
  clientOcsp h ans
  setFd h

theorem setClientConfig_split (h : Handle) (hostname : List UInt8) (cfg : ClientCfg)
    (ans : CreateAnswers) :
    (setClientConfig h hostname cfg ans : Backend b Unit) =
      (contextSetup h cfg ans >>= fun _ => newSsl h ans.sslNew >>= fun _ =>
        objectSetup h hostname cfg ans) := by
  simp only [contextSetup, Prog.bind_assoc]
  rfl

theorem clientFinish_quiet (h : Handle) (hostname : List UInt8) (cfg : ClientCfg)
    (ans : CreateAnswers) : QuietFor h (clientFinish h hostname cfg ans : Backend b Unit) :=
  (clientCertificate_quiet h cfg ans).bind fun _ => (newSsl_quiet h _).bind fun _ =>
    (clientHostname_quiet h hostname cfg ans).bind fun _ => (clientAlpn_quiet h cfg ans).bind
      fun _ => (clientOcsp_quiet h ans).bind fun _ => setFd_quiet h

theorem clientFinish_returns (h : Handle) (hostname : List UInt8) (cfg : ClientCfg)
    (ans : CreateAnswers) :
    Prog.Returns (clientFinish h hostname cfg ans : Backend b Unit) fun _ =>
      clientCertificateAccepted cfg ans = true ∧ ans.sslNew = true ∧
        hostnameAccepted cfg ans = true ∧ alpnAccepted b cfg ans = true ∧
        ocspAccepted b ans = true := by
  refine ((clientCertificate_returns h cfg ans).bind_const fun _ =>
    (newSsl_returns h _).bind_const fun _ =>
    (clientHostname_returns h hostname cfg ans).bind_const fun _ =>
    (clientAlpn_returns h cfg ans).bind_const fun _ =>
    (clientOcsp_returns h ans).bind_const fun _ => setFd_returns h).congr ?_
  simp

/-- What a server sets up behind its context. -/
def serverFinish (h : Handle) (cfg : ServerCfg) (ans : CreateAnswers) : Backend b Unit := do
  serverVerification h cfg ans
  serverCertificate h cfg ans
  newSsl h ans.sslNew
  setFd h

theorem setServerConfig_eq (h : Handle) (cfg : ServerCfg) (ans : CreateAnswers) :
    (setServerConfig h cfg ans : Backend b Unit) =
      (newCtx h ans.ctxNew >>= fun _ => serverFinish h cfg ans) := rfl

theorem serverFinish_quiet (h : Handle) (cfg : ServerCfg) (ans : CreateAnswers) :
    QuietFor h (serverFinish h cfg ans : Backend b Unit) :=
  (serverVerification_quiet h cfg ans).bind fun _ => (serverCertificate_quiet h cfg ans).bind
    fun _ => (newSsl_quiet h _).bind fun _ => setFd_quiet h

theorem setServerConfig_quiet (h : Handle) (cfg : ServerCfg) (ans : CreateAnswers) :
    QuietFor h (setServerConfig h cfg ans : Backend b Unit) :=
  (newCtx_quiet h _).bind fun _ => serverFinish_quiet h cfg ans

/-- The test of the verification reads the statics only. -/
theorem verificationAccepted_congr {cfg : ClientCfg} {ans : CreateAnswers} {w w' : World b}
    (hstatics : statics w' = statics w) :
    verificationAccepted cfg ans w' = verificationAccepted cfg ans w := by
  simp only [statics, Statics.mk.injEq] at hstatics
  obtain ⟨hlock, _, _, _, _, hstore, hbytes⟩ := hstatics
  simp only [verificationAccepted, hlock, hstore, hbytes]

theorem setClientConfig_returns (h : Handle) (hostname : List UInt8) (cfg : ClientCfg)
    (ans : CreateAnswers) :
    Prog.Returns (setClientConfig h hostname cfg ans : Backend b Unit)
      fun w => clientAccepted cfg ans w = true := by
  have hverify : Prog.Returns
      (clientVerification h cfg ans >>= fun _ => clientFinish h hostname cfg ans :
        Backend b Unit) _ :=
    (clientVerification_returns h cfg ans).bind_const
      fun _ => clientFinish_returns h hostname cfg ans
  rw [setClientConfig_eq]
  refine ((newCtx_returns h ans.ctxNew).bind
    (fun _ => (Prog.Returns.stopIf cfg.crtBundleAttach _).bind (fun _ => hverify) ?_)
    ?_).congr ?_
  · intro w u w' hrun
    obtain ⟨_, rfl⟩ := Prog.stopIf_ok_iff.mp hrun
    rfl
  · intro w u w' hrun
    have hstatics : statics w' = statics w := by
      have := ((newCtx_quiet h ans.ctxNew).run w).statics
      rwa [hrun] at this
    simp only [verificationAccepted_congr hstatics]
  · intro w
    simp only [clientAccepted, Bool.and_eq_true, Bool.not_eq_true', and_assoc]

theorem setServerConfig_returns (h : Handle) (cfg : ServerCfg) (ans : CreateAnswers) :
    Prog.Returns (setServerConfig h cfg ans : Backend b Unit)
      fun _ => serverAccepted cfg ans = true := by
  have hverify : Prog.Returns (serverVerification h cfg ans : Backend b Unit) fun _ =>
      (match cfg.cacertBuf with
        | some buf => loadAccepted buf.bytes buf.len .caCert ans.loadCa
        | none => true) = true := by
    unfold serverVerification
    cases cfg.cacertBuf with
    | some buf =>
      refine ((loadOrExit_returns h _ _ _ _).bind_const fun _ => setVerify_returns h _).congr ?_
      simp
    | none => exact (setVerify_returns h _).congr (by simp)
  have hcert : Prog.Returns (serverCertificate h cfg ans : Backend b Unit) fun _ =>
      (match cfg.servercertBuf, cfg.serverkeyBuf with
        | some cert, some key => certificateAccepted cert key ans
        | _, _ => false) = true := by
    unfold serverCertificate
    cases cfg.servercertBuf with
    | some cert =>
      cases cfg.serverkeyBuf with
      | some key => exact loadCertAndKey_returns h cert key ans
      | none => exact (Prog.Returns.stop _).congr (by simp)
    | none => exact (Prog.Returns.stop _).congr (by simp)
  refine ((newCtx_returns h ans.ctxNew).bind_const fun _ => hverify.bind_const fun _ =>
    hcert.bind_const fun _ => (newSsl_returns h _).bind_const fun _ => setFd_returns h).congr ?_
  intro w
  simp only [serverAccepted, Bool.and_eq_true, and_assoc, and_true]

theorem setRoleConfig_returns (h : Handle) (role : Role) (hostname : List UInt8) (cfg : Cfg)
    (ans : CreateAnswers) :
    Prog.Returns (setRoleConfig h role hostname cfg ans : Backend b Unit)
      fun w => configAccepted role cfg ans w = true := by
  unfold setRoleConfig configAccepted
  cases role <;> cases cfg
  case client.client cfg => exact setClientConfig_returns h hostname cfg ans
  case server.server cfg => exact setServerConfig_returns h cfg ans
  all_goals exact (Prog.Returns.stop _).congr (by simp)

/-- The tests read the statics only. -/
theorem configAccepted_congr {role : Role} {cfg : Cfg} {ans : CreateAnswers} {w w' : World b}
    (hstatics : statics w' = statics w) :
    configAccepted role cfg ans w' = configAccepted role cfg ans w := by
  unfold configAccepted clientAccepted
  simp only [verificationAccepted_congr hstatics]

theorem createAccepted_congr {role : Role} {cfg : Cfg} {ans : CreateAnswers} {w w' : World b}
    (hstatics : statics w' = statics w) :
    createAccepted role cfg ans w' = createAccepted role cfg ans w := by
  unfold createAccepted
  rw [configAccepted_congr hstatics]

theorem createBody_noInit {h : Handle} {hostname : List UInt8} {cfg : Cfg}
    {ans : CreateAnswers} (hinit : ans.wolfsslInit ≠ wolfsslSuccess) (w : World b) :
    createBody h hostname cfg ans w =
      (.error (.ret .fail), w.record h (.wolfsslInit ans.wolfsslInit)) := by
  simp [createBody, call, Prog.bind_apply, Prog.stopIf, hinit]

theorem createBody_init {h : Handle} {hostname : List UInt8} {cfg : Cfg}
    {ans : CreateAnswers} (hinit : ans.wolfsslInit = wolfsslSuccess) (w : World b) :
    createBody h hostname cfg ans w =
      setRoleConfig h (w.tls h).role hostname cfg ans
        (w.record h (.wolfsslInit ans.wolfsslInit)) := by
  simp [createBody, call, Prog.bind_apply, Prog.stopIf, hinit]

theorem createBody_returns (h : Handle) (hostname : List UInt8) (cfg : Cfg)
    (ans : CreateAnswers) :
    Prog.Returns (createBody h hostname cfg ans : Backend b Unit)
      fun w => createAccepted (w.tls h).role cfg ans w = true := by
  intro w
  unfold createAccepted
  by_cases hinit : ans.wolfsslInit = wolfsslSuccess
  · have hrun := setRoleConfig_returns h (w.tls h).role hostname cfg ans
      (w.record h (.wolfsslInit ans.wolfsslInit))
    have hsame : ∀ e, configAccepted (w.tls h).role cfg ans (w.record h e) =
        configAccepted (w.tls h).role cfg ans w := fun _ => configAccepted_congr rfl
    simpa [createBody_init hinit, hinit, hsame] using hrun
  · simp [createBody_noInit hinit, hinit]

end EspWolfssl.CreationOutcomes
