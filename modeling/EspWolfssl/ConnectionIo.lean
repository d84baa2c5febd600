import EspWolfssl.HandleCreation

/-!
Handshake, reading, writing and server sessions. A wolfSSL call answers with
its return value and the code that `wolfSSL_get_error` gives for it.
-/
namespace EspWolfssl.ConnectionIo

open ByteRegions Platform ProgramLogic BackendState HandleCreation

variable {b : Build}

structure CallAnswer where
  ret : Int32
  err : Int32
deriving DecidableEq, Repr

def espTlsConvertWolfsslErrToSsize (c : Codes) (wolfsslError : Int32) : Int32 :=
  if wolfsslError = c.wantRead then c.espWantRead
  else if wolfsslError = c.wantWrite then c.espWantWrite
  else if 0 < wolfsslError then -wolfsslError else wolfsslError

/-- `WOLFSSL_ERROR_WANT_READ` or `WOLFSSL_ERROR_WANT_WRITE`. -/
def Retry (c : Codes) (err : Int32) : Prop := err = c.wantRead ∨ err = c.wantWrite

instance (c : Codes) (err : Int32) : Decidable (Retry c err) := by
  unfold Retry
  infer_instance

/-- `ESP_INT_EVENT_TRACKER_CAPTURE(tls->error_handle, ...)` -/
def capture (h : Handle) (entry : Capture) : Backend b Unit :=
  Prog.modify (·.updateTls h fun t => { t with errorHandle := t.errorHandle ++ [entry] })

/-- The capture of `-err`, for an error that is not a retry. -/
def captureUnlessRetry (h : Handle) (err : Int32) : Backend b Unit :=
  if Retry b.codes err then pure () else capture h (.customStack (-err))

def setConnState (h : Handle) (s : ConnState) : Backend b Unit :=
  Prog.modify (·.updateTls h fun t => { t with connState := s })

/-- The capture of the verification flags after a failed handshake. -/
def captureVerifyResult (h : Handle) (cfg : ClientCfg) (flags : Int32) : Backend b Unit :=
  if cfg.crtBundleAttach || cfg.cacertBuf.isSome || cfg.useGlobalCaStore then do
    let ssl ← Prog.read fun w => (w.tls h).privSsl
    call h (.getVerifyResult ssl flags)
    if flags = wolfsslX509VOk then pure () else capture h (.customStackCertFlags flags)
  else pure ()

def espWolfsslHandshake (h : Handle) (cfg : ClientCfg) (ans : CallAnswer) (flags : Int32) :
    Backend b Int32 := do
  let ssl ← Prog.read fun w => (w.tls h).privSsl
  call h (.connect ssl ans.ret)
  if ans.ret = wolfsslSuccess then do
    setConnState h .done
    pure 1
  else do
    call h (.getError ssl ans.err)
    if Retry b.codes ans.err then pure 0
    else do
      capture h (.customStack (-ans.err))
      capture h (.esp .wolfsslSslHandshakeFailed)
      captureVerifyResult h cfg flags
      setConnState h .fail
      pure (-1)

/-- `datalen` is a `size_t` that becomes the `int` size of `wolfSSL_read`. -/
def espWolfsslRead (h : Handle) (datalen : UInt32) (ans : CallAnswer) : Backend b Int32 := do
  let ssl ← Prog.read fun w => (w.tls h).privSsl
  call h (.read ssl datalen.toInt32 ans.ret)
  if ans.ret < 0 then do
    call h (.getError ssl ans.err)
    if ans.err = b.codes.zeroReturn then pure 0
    else do
      captureUnlessRetry h ans.err
      pure (espTlsConvertWolfsslErrToSsize b.codes ans.err)
  else pure ans.ret

def espWolfsslWrite (h : Handle) (datalen : UInt32) (ans : CallAnswer) : Backend b Int32 := do
  let ssl ← Prog.read fun w => (w.tls h).privSsl
  call h (.write ssl datalen.toInt32 ans.ret)
  if ans.ret ≤ 0 then do
    call h (.getError ssl ans.err)
    captureUnlessRetry h ans.err
    pure (espTlsConvertWolfsslErrToSsize b.codes ans.err)
  else pure ans.ret

/-- The accept loop; `answers` are the outcomes of its calls, in order. -/
def acceptLoop (h : Handle) : List CallAnswer → Backend b Int32
  | [] => Prog.stop .waiting
  | ans :: rest => do
      let ssl ← Prog.read fun w => (w.tls h).privSsl
      call h (.accept ssl ans.ret)
      if ans.ret = wolfsslSuccess then pure 0
      else do
        call h (.getError ssl ans.err)
        if Retry b.codes ans.err then acceptLoop h rest
        else do
          setConnState h .fail
          pure (-1)

def espWolfsslServerSessionCreate (h : Option Handle) (cfg : Option ServerCfg) (sockfd : Int32)
    (ans : CreateAnswers) (accepts : List CallAnswer) : Backend b Int32 :=
  match h, cfg with
  | some h, some cfg => do
      Prog.modify (·.setEndpoint h .server sockfd)
      let ret ← espWolfsslCreateSslHandle h [] (.server cfg) ans
      if ret = .ok then do
        Prog.modify (·.updateTls h fun t => { t with customStackIo := true })
        acceptLoop h accepts
      else do
        setConnState h .fail
        pure (-1)
  | _, _ => pure (-1)

def espWolfsslConnDelete (h : Option Handle) (w : World b) : World b :=
  match h with
  | some h => espWolfsslCleanup h w
  | none => w

def espWolfsslServerSessionDelete (h : Option Handle) (w : World b) : World b :=
  match h with
  | some h => espWolfsslCleanup h w
  | none => w

end EspWolfssl.ConnectionIo
