import EspWolfssl.CertificateLoading
import EspWolfssl.PskClient

/-!
Setting up the context and the session object of a handle, for a client and
for a server, and the cleanup that every error exit and every delete runs.
Each stretch of the two configuration functions is a program of its own, in
the order of the source.
-/
namespace EspWolfssl.HandleCreation

open ByteRegions MutexOwnership Platform ProgramLogic BackendState CertificateLoading PskClient

variable {b : Build}

/-- The answers of the libraries during one creation. Every call site but the
registration of protocols is reached at most once. -/
structure CreateAnswers where
  wolfsslInit : Int32
  ctxNew : Bool
  loadCa : LoadAnswers
  setCipherList : Int32
  loadCert : LoadAnswers
  loadKey : LoadAnswers
  sslNew : Bool
  strdup : Bool
  checkDomainName : Int32
  useSni : Int32
  useAlpn : ℕ → Int32
  ctxEnableOcsp : Int32
  ctxEnableOcspStapling : Int32
  useOcspStapling : Int32

/-- `tls->priv_ctx = wolfSSL_CTX_new(...)` and the check of the result. -/
def newCtx (h : Handle) (succeeds : Bool) : Backend b Unit := do
  let ctx ← allocate h succeeds .ctxNew
  Prog.modify (·.updateTls h fun t => { t with privCtx := ctx })
  Prog.stopIf ctx.isNone (.ret .wolfsslCtxSetupFailed)

/-- `tls->priv_ssl = wolfSSL_new(tls->priv_ctx)` and the check of the result. -/
def newSsl (h : Handle) (succeeds : Bool) : Backend b Unit := do
  let ctx ← Prog.read fun w => (w.tls h).privCtx
  let ssl ← allocate h succeeds (.sslNew ctx)
  Prog.modify (·.updateTls h fun t => { t with privSsl := ssl })
  Prog.stopIf ssl.isNone (.ret .wolfsslSslSetupFailed)

def setVerify (h : Handle) (mode : VerifyMode) : Backend b Unit := do
  let ctx ← Prog.read fun w => (w.tls h).privCtx
  call h (.setVerify ctx mode)

/-- A load, and `ESP_ERR_WOLFSSL_CERT_VERIFY_SETUP_FAILED` for any failure. -/
def loadOrExit (h : Handle) (mem : List UInt8) (len : UInt32) (type : X509FileType)
    (ans : LoadAnswers) : Backend b Unit := do
  let ret ← espLoadWolfsslVerifyBuffer h mem len type ans
  Prog.stopIf (ret.1 != .ok) (.ret .wolfsslCertVerifySetupFailed)

/-- How the client authenticates the server. -/
def clientVerification (h : Handle) (cfg : ClientCfg) (ans : CreateAnswers) : Backend b Unit :=
  if cfg.useGlobalCaStore then do
    let store ← Prog.read fun w => (w.globalCacert, w.globalCacertPemBytes)
    match store.1 with
    | none => Prog.stop (.ret .invalidState)
    | some mem => do
        loadOrExit h mem store.2 .caCert ans.loadCa
        setVerify h .peer
  else match cfg.cacertBuf with
    | some buf => do
        loadOrExit h buf.bytes buf.len .caCert ans.loadCa
        setVerify h .peer
    | none =>
        match if b.pskVerification then cfg.pskHintKey else none with
        | some psk => configurePsk h psk ans.setCipherList
        | none =>
            if b.skipServerCertVerify then setVerify h .none
            else Prog.stop (.ret .wolfsslSslSetupFailed)

def loadCertAndKey (h : Handle) (cert key : Buffer) (ans : CreateAnswers) : Backend b Unit := do
  loadOrExit h cert.bytes cert.len .selfCert ans.loadCert
  loadOrExit h key.bytes key.len .selfKey ans.loadKey

def clientCertificate (h : Handle) (cfg : ClientCfg) (ans : CreateAnswers) : Backend b Unit :=
  match cfg.clientcertBuf, cfg.clientkeyBuf with
  | some cert, some key => loadCertAndKey h cert key ans
  | none, none => pure ()
  | _, _ => Prog.stop (.ret .fail)

/-- The name a client checks: `common_name`, or the host it connects to. -/
def hostName (hostname : List UInt8) (cfg : ClientCfg) : CString :=
  match cfg.commonName with
  | some name => name
  | none => CString.strndup hostname

/-- `hostname` is the `hostlen` bytes of the argument. -/
def clientHostname (h : Handle) (hostname : List UInt8) (cfg : ClientCfg)
    (ans : CreateAnswers) : Backend b Unit :=
  if cfg.skipCommonName then pure ()
  else do
    let useHost ← allocate h ans.strdup .strdup
    match useHost with
    | none => Prog.stop (.ret .noMem)
    | some host => do
        let ssl ← Prog.read fun w => (w.tls h).privSsl
        call h (.checkDomainName ssl host (hostName hostname cfg) ans.checkDomainName)
        if ans.checkDomainName = wolfsslSuccess then do
          call h (.useSni ssl host (hostName hostname cfg) ans.useSni)
          call h (.free host)
          Prog.stopIf (ans.useSni != wolfsslSuccess) (.ret .wolfsslSslSetHostnameFailed)
        else do
          call h (.free host)
          Prog.stop (.ret .wolfsslSslSetHostnameFailed)

/-- The registration loop, from the `i`-th name of the list on. -/
def registerAlpn (h : Handle) (answers : ℕ → Int32) : ℕ → List CString → Backend b Unit
  | _, [] => pure ()
  | i, protocol :: rest => do
      let ssl ← Prog.read fun w => (w.tls h).privSsl
      call h (.useAlpn ssl protocol (answers i))
      Prog.stopIf (answers i != wolfsslSuccess) (.ret .wolfsslSslConfAlpnProtocolsFailed)
      registerAlpn h answers (i + 1) rest

def clientAlpn (h : Handle) (cfg : ClientCfg) (ans : CreateAnswers) : Backend b Unit :=
  match cfg.alpnProtos with
  | none => pure ()
  | some protocols =>
      if b.haveAlpn then registerAlpn h ans.useAlpn 0 protocols
      else Prog.stop (.ret .fail)

def clientOcsp (h : Handle) (ans : CreateAnswers) : Backend b Unit :=
  if b.haveOcsp then do
    let ctx ← Prog.read fun w => (w.tls h).privCtx
    let ssl ← Prog.read fun w => (w.tls h).privSsl
    call h (.ctxEnableOcsp ctx b.ocspCheckall ans.ctxEnableOcsp)
    Prog.stopIf (ans.ctxEnableOcsp != wolfsslSuccess) (.ret .wolfsslCtxSetupFailed)
    call h (.ctxEnableOcspStapling ctx ans.ctxEnableOcspStapling)
    Prog.stopIf (ans.ctxEnableOcspStapling != wolfsslSuccess) (.ret .wolfsslCtxSetupFailed)
    call h (.useOcspStapling ssl ans.useOcspStapling)
    Prog.stopIf (ans.useOcspStapling != wolfsslSuccess) (.ret .wolfsslSslSetupFailed)
  else pure ()

/-- `wolfSSL_set_fd(tls->priv_ssl, tls->sockfd)`; its result is ignored. -/
def setFd (h : Handle) : Backend b Unit := do
  let tls ← Prog.read fun w => w.tls h
  call h (.setFd tls.privSsl tls.sockfd)

def setClientConfig (h : Handle) (hostname : List UInt8) (cfg : ClientCfg)
    (ans : CreateAnswers) : Backend b Unit := do
  newCtx h ans.ctxNew
  Prog.stopIf cfg.crtBundleAttach (.ret .notSupported)
  clientVerification h cfg ans
  clientCertificate h cfg ans
  newSsl h ans.sslNew
  clientHostname h hostname cfg ans
  clientAlpn h cfg ans
  clientOcsp h ans
  setFd h

/-- Whether the server asks its clients for a certificate. -/
def serverVerification (h : Handle) (cfg : ServerCfg) (ans : CreateAnswers) : Backend b Unit :=
  match cfg.cacertBuf with
  | some buf => do
      loadOrExit h buf.bytes buf.len .caCert ans.loadCa
      setVerify h .peerFailIfNoPeerCert
  | none => setVerify h .none

def serverCertificate (h : Handle) (cfg : ServerCfg) (ans : CreateAnswers) : Backend b Unit :=
  match cfg.servercertBuf, cfg.serverkeyBuf with
  | some cert, some key => loadCertAndKey h cert key ans
  | _, _ => Prog.stop (.ret .fail)

def setServerConfig (h : Handle) (cfg : ServerCfg) (ans : CreateAnswers) : Backend b Unit := do
  newCtx h ans.ctxNew
  serverVerification h cfg ans
  serverCertificate h cfg ans
  newSsl h ans.sslNew
  setFd h

/-- The part of the cleanup for `tls_conn_lock`: it asks the flag only. -/
def releaseConnLock (h : Handle) (w : World b) : World b :=
  if b.pskVerification && w.tlsConnLockHeld then giveConnLock h w else w

def freeSsl (h : Handle) (w : World b) : World b :=
  match (w.tls h).privSsl with
  | none => w
  | some ssl => ((w.record h (.shutdown ssl)).record h (.sslFree ssl)).updateTls h
      fun t => { t with privSsl := none }

def freeCtx (h : Handle) (w : World b) : World b :=
  match (w.tls h).privCtx with
  | none => w
  | some ctx => (w.record h (.ctxFree ctx)).updateTls h fun t => { t with privCtx := none }

def espWolfsslCleanup (h : Handle) (w : World b) : World b :=
  freeCtx h (freeSsl h (releaseConnLock h w))

/-- The role decides what the untyped `cfg` is cast to; a structure of the other
role cannot be read. -/
def setRoleConfig (h : Handle) (role : Role) (hostname : List UInt8) (cfg : Cfg)
    (ans : CreateAnswers) : Backend b Unit :=
  match role, cfg with
  | .client, .client cfg => setClientConfig h hostname cfg ans
  | .server, .server cfg => setServerConfig h cfg ans
  | .invalid, _ => Prog.stop (.ret .fail)
  | .client, .server _ | .server, .client _ => Prog.stop (.fault .wrongCfgType)

/-- `create_ssl_handle` up to its exit label. -/
def createBody (h : Handle) (hostname : List UInt8) (cfg : Cfg) (ans : CreateAnswers) :
    Backend b Unit := do
  call h (.wolfsslInit ans.wolfsslInit)
  Prog.stopIf (ans.wolfsslInit != wolfsslSuccess) (.ret .fail)
  let role ← Prog.read fun w => (w.tls h).role
  setRoleConfig h role hostname cfg ans

def espWolfsslCreateSslHandle (h : Handle) (hostname : List UInt8) (cfg : Cfg)
    (ans : CreateAnswers) : Backend b EspErr := fun w =>
  match createBody h hostname cfg ans w with
  | (.ok (), w') => (.ok .ok, w')
  | (.error (.ret e), w') => (.ok e, espWolfsslCleanup h w')
  | (.error x, w') => (.error x, w')

end EspWolfssl.HandleCreation
