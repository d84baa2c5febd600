import EspWolfssl.MutexOwnership
import EspWolfssl.Platform
import EspWolfssl.ProgramLogic
import EspWolfssl.ResourceLedger

/-!
The state of the backend: the handles of esp-tls, the process-wide statics of
esp_tls_wolfssl.c, and the log of every library call with the handle it was
made for. A call's result is an input of the model and is logged with the call.
-/
namespace EspWolfssl.BackendState

open ByteRegions MutexOwnership Platform ProgramLogic ResourceLedger

/-- An `esp_tls_t *` that is not NULL. -/
abbrev Handle := ℕ

inductive ConnState
  | init
  | connecting
  | handshake
  | fail
  | done
deriving DecidableEq, Repr

/-- One `ESP_INT_EVENT_TRACKER_CAPTURE` on `tls->error_handle`. -/
inductive Capture
  | customStack (code : Int32)
  | esp (e : EspErr)
  | customStackCertFlags (flags : Int32)
deriving DecidableEq, Repr

/-- The fields of `esp_tls_t` that the backend reads and writes. The pointers
are names of wolfSSL objects, and `customStackIo` says that `read` and `write`
are the wrappers of the custom stack. -/
structure Tls where
  role : Role
  sockfd : Int32
  privCtx : Option ℕ
  privSsl : Option ℕ
  connState : ConnState
  errorHandle : List Capture
  customStackIo : Bool
deriving DecidableEq

/-- A handle as esp-tls allocates it. -/
def Tls.fresh : Tls := ⟨.client, -1, none, none, .init, [], false⟩

/-- One call of a library, or the return of an operation to its caller. Objects
are named by the pointer passed, `none` for NULL. -/
inductive Event
  | wolfsslInit (ret : Int32)
  | ctxNew (ctx : Option ℕ)
  | malloc (buf : Option ℕ) (size : UInt32)
  | loadVerifyBuffer (ctx temp : Option ℕ) (bytes : List UInt8) (len : Int32)
      (format : FileFormat) (ret : Int32)
  | useCertificateChainBuffer (ctx : Option ℕ) (bytes : List UInt8) (len : Int32)
      (format : FileFormat) (ret : Int32)
  | usePrivateKeyBuffer (ctx : Option ℕ) (bytes : List UInt8) (len : Int32)
      (format : FileFormat) (ret : Int32)
  | setVerify (ctx : Option ℕ) (mode : VerifyMode)
  | semTake
  | semGive
  | pskStored (hint : CString) (key : List UInt8)
  | setPskClientCallback (ctx : Option ℕ)
  | setCipherList (ctx : Option ℕ) (list : String) (ret : Int32)
  | sslNew (ctx ssl : Option ℕ)
  | strdup (host : Option ℕ)
  | checkDomainName (ssl : Option ℕ) (host : ℕ) (name : CString) (ret : Int32)
  | useSni (ssl : Option ℕ) (host : ℕ) (name : CString) (ret : Int32)
  | free (buf : ℕ)
  | useAlpn (ssl : Option ℕ) (protocol : CString) (ret : Int32)
  | ctxEnableOcsp (ctx : Option ℕ) (checkall : Bool) (ret : Int32)
  | ctxEnableOcspStapling (ctx : Option ℕ) (ret : Int32)
  | useOcspStapling (ssl : Option ℕ) (ret : Int32)
  | setFd (ssl : Option ℕ) (fd : Int32)
  | connect (ssl : Option ℕ) (ret : Int32)
  | accept (ssl : Option ℕ) (ret : Int32)
  | read (ssl : Option ℕ) (size ret : Int32)
  | write (ssl : Option ℕ) (size ret : Int32)
  | getError (ssl : Option ℕ) (err : Int32)
  | getVerifyResult (ssl : Option ℕ) (flags : Int32)
  | shutdown (ssl : ℕ)
  | sslFree (ssl : ℕ)
  | ctxFree (ctx : ℕ)
  /-- The operation that opens a connection returned, with `ESP_OK` or not. -/
  | opened (cfg : Cfg) (ok : Bool)
  | deleted
  /-- The callback returned to wolfSSL, with its two buffers. -/
  | pskAnswered (len : UInt32) (identity key : List UInt8)
deriving DecidableEq

inductive ObjKind
  | ctx
  | ssl
  | hostString
  | certBuffer
deriving DecidableEq, Repr

namespace Event

/-- The calls of wolfSSL that succeeded. Calls without a result always do. -/
def succeeded : Event → Bool
  | wolfsslInit ret | loadVerifyBuffer _ _ _ _ _ ret
  | useCertificateChainBuffer _ _ _ _ ret | usePrivateKeyBuffer _ _ _ _ ret
  | setCipherList _ _ ret | checkDomainName _ _ _ ret | useSni _ _ _ ret
  | useAlpn _ _ ret | ctxEnableOcsp _ _ ret | ctxEnableOcspStapling _ ret
  | useOcspStapling _ ret => ret == wolfsslSuccess
  | ctxNew ctx => ctx.isSome
  | sslNew _ ssl => ssl.isSome
  | malloc buf _ => buf.isSome
  | strdup host => host.isSome
  | _ => true

/-- What a call does to the ledger of objects. -/
def action : Event → Option (Action ObjKind)
  | ctxNew ctx => ctx.map (.alloc · .ctx none)
  | sslNew ctx (some ssl) => some (.alloc ssl .ssl ctx)
  | sslNew ctx none => some (.use ctx.toList)
  | malloc buf _ => buf.map (.alloc · .certBuffer none)
  | strdup host => host.map (.alloc · .hostString none)
  | loadVerifyBuffer ctx temp _ _ _ _ => some (.use (ctx.toList ++ temp.toList))
  | useCertificateChainBuffer ctx _ _ _ _ | usePrivateKeyBuffer ctx _ _ _ _
  | setVerify ctx _ | setPskClientCallback ctx | setCipherList ctx _ _
  | ctxEnableOcsp ctx _ _ | ctxEnableOcspStapling ctx _ => some (.use ctx.toList)
  | checkDomainName ssl host _ _ | useSni ssl host _ _ => some (.use (ssl.toList ++ [host]))
  | useAlpn ssl _ _ | useOcspStapling ssl _ | setFd ssl _ | connect ssl _ | accept ssl _
  | read ssl _ _ | write ssl _ _ | getError ssl _ | getVerifyResult ssl _ =>
      some (.use ssl.toList)
  | shutdown ssl => some (.use [ssl])
  | sslFree obj | ctxFree obj | free obj => some (.free obj)
  | wolfsslInit _ | semTake | semGive | pskStored _ _ | opened _ _ | deleted
  | pskAnswered _ _ _ => none

def lockAction : Event → Option LockAction
  | semTake => some .take
  | semGive => some .give
  | _ => none

end Event

/-- The state shared by all handles, with the log of calls. -/
structure World (b : Build) where
  tls : Handle → Tls
  tlsConnLock : Mutex
  tlsConnLockHeld : Bool
  pskIdStr : CArray b.pskMaxIdLen
  pskKeyArray : CArray pskMaxKeyLen
  pskKeyMaxLen : UInt8
  globalCacert : Option (List UInt8)
  globalCacertPemBytes : UInt32
  nextObj : ℕ
  log : List (Handle × Event)

/-- A piece of the backend: it returns, or it exits early. -/
abbrev Backend (b : Build) (α : Type) := Prog (World b) Exit α

namespace World

variable {b : Build}

/-- The statics at boot, after the constructor made the mutex or failed to. -/
def boot (b : Build) (lockCreated : Bool) : World b where
  tls := fun _ => Tls.fresh
  tlsConnLock := if lockCreated then .free else .null
  tlsConnLockHeld := false
  pskIdStr := CArray.zeros _
  pskKeyArray := CArray.zeros _
  pskKeyMaxLen := 0
  globalCacert := none
  globalCacertPemBytes := 0
  nextObj := 0
  log := []

def record (w : World b) (h : Handle) (e : Event) : World b :=
  { w with log := w.log ++ [(h, e)] }

def updateTls (w : World b) (h : Handle) (f : Tls → Tls) : World b :=
  { w with tls := Function.update w.tls h (f (w.tls h)) }

/-- The role and the socket that a handle is given before it is set up. -/
def setEndpoint (w : World b) (h : Handle) (role : Role) (sockfd : Int32) : World b :=
  w.updateTls h fun t => { t with role := role, sockfd := sockfd }

@[simp] theorem record_log (w : World b) (h : Handle) (e : Event) :
    (w.record h e).log = w.log ++ [(h, e)] := rfl

@[simp] theorem record_tls (w : World b) (h : Handle) (e : Event) :
    (w.record h e).tls = w.tls := rfl

@[simp] theorem updateTls_log (w : World b) (h : Handle) (f : Tls → Tls) :
    (w.updateTls h f).log = w.log := rfl

@[simp] theorem updateTls_self (w : World b) (h : Handle) (f : Tls → Tls) :
    (w.updateTls h f).tls h = f (w.tls h) := by
  simp [updateTls]

@[simp] theorem updateTls_of_ne (w : World b) {h k : Handle} (hk : k ≠ h) (f : Tls → Tls) :
    (w.updateTls h f).tls k = w.tls k := by
  simp [updateTls, hk]

@[simp] theorem setEndpoint_role (w : World b) (h : Handle) (role : Role) (sockfd : Int32) :
    ((w.setEndpoint h role sockfd).tls h).role = role := by
  simp [setEndpoint]

end World

/-- A call whose effect on the modelled state is its entry in the log. -/
def call {b : Build} (h : Handle) (e : Event) : Backend b Unit :=
  Prog.modify (·.record h e)

/-- The name of an object that was never used before. -/
def newObject {b : Build} : Backend b ℕ := fun w =>
  (.ok w.nextObj, { w with nextObj := w.nextObj + 1 })

/-- An allocation that succeeds or returns NULL, and its entry in the log. -/
def allocate {b : Build} (h : Handle) (succeeds : Bool) (e : Option ℕ → Event) :
    Backend b (Option ℕ) :=
  if succeeds then do
    let obj ← newObject
    call h (e (some obj))
    pure (some obj)
  else do
    call h (e none)
    pure none

end EspWolfssl.BackendState
