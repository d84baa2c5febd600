import EspWolfssl.ConnectionIo
import EspWolfssl.GlobalStore
import EspWolfssl.Transfers

/-!
The HTTPS request example. It opens a connection through esp-tls, writes one
request in as many calls as that takes, and prints what it reads. With session
tickets the session of a connection is kept in a static for the next one. esp-tls
itself is a parameter.
-/
namespace EspWolfssl.HttpsRequest

open ByteRegions ResourceLedger Platform ProgramLogic BackendState ConnectionIo GlobalStore
  Transfers

variable {b : Build}

/-- What the functions of esp-tls do to the backend. -/
structure EspTls (b : Build) where
  init : Handle → Backend b Unit
  connWrite : Handle → UInt32 → CallAnswer → Backend b Int32
  connRead : Handle → UInt32 → CallAnswer → Backend b Int32
  connDestroy : Handle → Backend b Unit
  setGlobalCaStore : Buffer → Bool → Backend b EspErr
  freeGlobalCaStore : Backend b Unit

/-- esp-tls zeroes a new handle and hands each call on to the backend. A handle that is
destroyed is deleted there before it is freed. -/
structure EspTls.HandsOn (lib : EspTls b) : Prop where
  init : ∀ h, lib.init h = Prog.modify (·.updateTls h fun _ => Tls.fresh)
  connWrite : ∀ h datalen ans, lib.connWrite h datalen ans = espWolfsslWrite h datalen ans
  connRead : ∀ h datalen ans, lib.connRead h datalen ans = espWolfsslRead h datalen ans
  connDestroy : ∀ h, lib.connDestroy h =
    Prog.modify fun w => (espWolfsslConnDelete (some h) w).record h .deleted
  setGlobalCaStore : ∀ buf malloc,
    lib.setGlobalCaStore buf malloc = espWolfsslSetGlobalCaStore (some buf) malloc
  freeGlobalCaStore : lib.freeGlobalCaStore = Prog.modify espWolfsslFreeGlobalCaStore

/-- A call to the session functions of esp-tls, the session of a configuration included. -/
inductive SessionCall
  | get (session : Option ℕ)
  | use (session : Option ℕ)
  | free (session : Option ℕ)

/-- NULL is no session. -/
def SessionCall.action : SessionCall → Option (Action Unit)
  | .get (some session) => some (.alloc session () none)
  | .use (some session) => some (.use [session])
  | .free (some session) => some (.free session)
  | _ => none

/-- The state of the application: the backend, the two ends of the open stream,
what was written to stdout, and the statics of the session tickets. -/
structure AppState (b : Build) where
  world : World b
  /-- The bytes that wolfSSL took for the peer. -/
  sent : List UInt8
  /-- The bytes of the peer that were not read yet. -/
  incoming : List UInt8
  printed : List UInt8
  tlsClientSession : Option ℕ
  saveClientSession : Bool
  sessionLog : List (Unit × SessionCall)

/-- The application at boot; `incoming` is what the peer will send. -/
def AppState.boot (b : Build) (lockCreated : Bool) (incoming : List UInt8) : AppState b where
  world := World.boot b lockCreated
  sent := []
  incoming := incoming
  printed := []
  tlsClientSession := none
  saveClientSession := false
  sessionLog := []

abbrev App (b : Build) (α : Type) := Prog (AppState b) Exit α

/-- A call into the backend. -/
def onBackend {α : Type} (m : Backend b α) : App b α := fun s =>
  ((m s.world).1, { s with world := (m s.world).2 })

/-- `data` are the bytes from the pointer on; `datalen` is the length that is passed. -/
def espTlsConnWrite (lib : EspTls b) (h : Handle) (data : List UInt8) (datalen : UInt32)
    (t : Transfer) : App b Int32 := do
  let ret ← onBackend (lib.connWrite h datalen (t.answer data datalen.toInt32))
  Prog.modify fun s => { s with sent := s.sent ++ t.moved data datalen.toInt32 }
  pure ret

/-- The content of the buffer behind the call, and the value that is returned. -/
def espTlsConnRead (lib : EspTls b) (h : Handle) (buf : List UInt8) (datalen : UInt32)
    (t : Transfer) : App b (List UInt8 × Int32) := do
  let incoming ← Prog.read (·.incoming)
  let data := t.moved incoming datalen.toInt32
  let ret ← onBackend (lib.connRead h datalen (t.answer incoming datalen.toInt32))
  Prog.modify fun s => { s with incoming := s.incoming.drop data.length }
  pure (data ++ buf.drop data.length, ret)

/-- `written_bytes` behind a call, unless its value ends the request. -/
def afterWrite (c : Codes) (writtenBytes : UInt32) (ret : Int32) : Option UInt32 :=
  if 0 ≤ ret then some (writtenBytes + ret.toUInt32)
  else if ret ≠ c.espWantRead ∧ ret ≠ c.espWantWrite then none
  else some writtenBytes

def requestLen (request : CString) : UInt32 := UInt32.ofNat request.length

/-- The loop that writes the request; `transfers` are the outcomes of its calls, in
order. It returns whether the request was written. -/
def writeLoop (lib : EspTls b) (h : Handle) (request : CString) (writtenBytes : UInt32) :
    List Transfer → App b Bool
  | [] => Prog.stop .waiting
  | t :: rest => do
      let ret ← espTlsConnWrite lib h (request.bytes.drop writtenBytes.toNat)
        (requestLen request - writtenBytes) t
      match afterWrite b.codes writtenBytes ret with
      | none => pure false
      | some writtenBytes =>
          if writtenBytes < requestLen request then writeLoop lib h request writtenBytes rest
          else pure true

/-- `sizeof(buf)` -/
def bufSize : ℕ := 512

def putchars (chars : List UInt8) : App b Unit :=
  Prog.modify fun s => { s with printed := s.printed ++ chars }

/-- The loop that prints the response, up to the end of the stream or an error. -/
def readLoop (lib : EspTls b) (h : Handle) : List Transfer → App b Unit
  | [] => Prog.stop .waiting
  | t :: rest => do
      let (buf, ret) ←
        espTlsConnRead lib h (List.replicate bufSize 0) (UInt32.ofNat (bufSize - 1)) t
      if ret = b.codes.espWantWrite ∨ ret = b.codes.espWantRead then readLoop lib h rest
      else if ret < 0 then pure ()
      else if ret = 0 then pure ()
      else do
        putchars (buf.take ret.toNatClampNeg)
        putchars [newline]
        readLoop lib h rest

def logSession (c : SessionCall) : App b Unit :=
  Prog.modify fun s => { s with sessionLog := s.sessionLog ++ [((), c)] }

/-- `esp_tls_get_client_session` may return NULL. -/
def espTlsGetClientSession (session : Option ℕ) : App b (Option ℕ) := do
  logSession (.get session)
  pure session

def setTlsClientSession (session : Option ℕ) : App b Unit :=
  Prog.modify fun s => { s with tlsClientSession := session }

/-- The part behind the response, compiled for `CONFIG_EXAMPLE_CLIENT_SESSION_TICKETS`. -/
def saveSession (tickets : Bool) (getSession : Option ℕ) : App b Unit := do
  let save ← Prog.read (·.saveClientSession)
  if tickets && save then do
    let session ← Prog.read (·.tlsClientSession)
    logSession (.free session)
    let session ← espTlsGetClientSession getSession
    setTlsClientSession session
  else pure ()

/-- The fields of `esp_tls_cfg_t` that the example sets. -/
structure EspTlsCfg where
  client : ClientCfg
  clientSession : Option ℕ

/-- The outcomes of one request: the handle from `esp_tls_init`, if any, the work of
`esp_tls_conn_http_new_sync`, the transfers and the session at the end, if any. -/
structure RequestAnswers (b : Build) where
  tls : Option Handle
  newSync : EspTlsCfg → Handle → Backend b Int32
  writes : List Transfer
  reads : List Transfer
  getSession : Option ℕ

def espTlsConnHttpNewSync (cfg : EspTlsCfg) (h : Handle)
    (newSync : EspTlsCfg → Handle → Backend b Int32) : App b Int32 := do
  logSession (.use cfg.clientSession)
  onBackend (newSync cfg h)

/-- The part of a request behind the connection. -/
def exchange (lib : EspTls b) (tickets : Bool) (h : Handle) (request : CString)
    (ans : RequestAnswers b) : App b Unit := do
  let written ← writeLoop lib h request 0 ans.writes
  if written then do
    readLoop lib h ans.reads
    saveSession tickets ans.getSession
  else pure ()

/-- Both failures go to the label `cleanup`. -/
def httpsGetRequest (lib : EspTls b) (tickets : Bool) (cfg : EspTlsCfg) (request : CString)
    (ans : RequestAnswers b) : App b Unit :=
  match ans.tls with
  | none => pure ()
  | some h => do
      onBackend (lib.init h)
      let ret ← espTlsConnHttpNewSync cfg h ans.newSync
      (if ret = 1 then exchange lib tickets h request ans else pure ())
      onBackend (lib.connDestroy h)

def noCfg : ClientCfg where
  crtBundleAttach := false
  useGlobalCaStore := false
  cacertBuf := none
  pskHintKey := none
  clientcertBuf := none
  clientkeyBuf := none
  skipCommonName := false
  commonName := none
  alpnProtos := none

/-- What the example is built with: its options and the embedded files. -/
structure Example where
  clientSessionTickets : Bool
  sslProtoTls13Client : Bool
  localServerUrl : CString
  serverRootCert : Buffer
  localServerCert : Buffer

namespace Example

def webServer (e : Example) : CString :=
  if e.sslProtoTls13Client then .ofAscii "tls13.browserleaks.com" (by decide)
  else .ofAscii "www.howsmyssl.com" (by decide)

end Example

end EspWolfssl.HttpsRequest
