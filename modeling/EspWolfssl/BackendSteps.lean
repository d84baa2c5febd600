import EspWolfssl.ConnectionIo
import EspWolfssl.GlobalStore
import EspWolfssl.GuardedRuns

/-!
The backend as a transition system: whole operations on any number of handles,
in any order, with every answer of the libraries an input of the step.
-/
namespace EspWolfssl.BackendSteps

open ByteRegions MutexOwnership TaggedLogs Platform PemSearch ProgramLogic BackendState PskClient
  HandleCreation ConnectionIo GlobalStore GuardedRuns

variable {b : Build}

/-- A call into the backend, from esp-tls or, for the callback, from wolfSSL.
esp-tls sets the role and the socket of a handle before it is created. -/
inductive Op
  | createSslHandle (h : Handle) (role : Role) (sockfd : Int32) (hostname : List UInt8)
      (cfg : Cfg) (ans : CreateAnswers)
  | serverSessionCreate (h : Option Handle) (cfg : Option ServerCfg) (sockfd : Int32)
      (ans : CreateAnswers) (accepts : List CallAnswer)
  | handshake (h : Handle) (cfg : ClientCfg) (ans : CallAnswer) (flags : Int32)
  | read (h : Handle) (datalen : UInt32) (ans : CallAnswer)
  | write (h : Handle) (datalen : UInt32) (ans : CallAnswer)
  | connDelete (h : Option Handle)
  | serverSessionDelete (h : Option Handle)
  | pskClientCb (h : Handle) (identity : List UInt8) (idMaxLen : UInt32)
      (key : List UInt8) (keyMaxLen : UInt32)
  | initGlobalCaStore
  | setGlobalCaStore (cacertPemBuf : Option Buffer) (malloc : Bool)
  | getGlobalCaStore
  | freeGlobalCaStore

/-- The callback setting of the context a handle created last. -/
def callbackSetting : Event → Option Bool
  | .ctxNew _ => some false
  | .setPskClientCallback _ => some true
  | _ => none

/-- wolfSSL can call the PSK callback for a handle: it has a session object, and
the callback is installed on the context of that object. -/
def CallbackInstalled (w : World b) (h : Handle) : Prop :=
  (w.tls h).privSsl.isSome = true ∧ latest callbackSetting h w.log = some true

instance (w : World b) (h : Handle) : Decidable (CallbackInstalled w h) := by
  unfold CallbackInstalled
  infer_instance

/-- Run an operation and keep the state it returns in. An operation that faults
or is still waiting has no such state. -/
def returning {α : Type} (m : Backend b α) (after : α → World b → World b) (w : World b) :
    Option (World b) :=
  match m w with
  | (.ok a, w') => some (after a w')
  | (.error _, _) => none

theorem returning_eq_some {α : Type} {m : Backend b α} {after : α → World b → World b}
    {w w' : World b} :
    returning m after w = some w' ↔ ∃ a w₁, m w = (.ok a, w₁) ∧ w' = after a w₁ := by
  unfold returning
  rcases m w with ⟨r, w₁⟩
  cases r <;> simp [eq_comm]

def recordAt (h : Option Handle) (e : Event) (w : World b) : World b :=
  match h with
  | some h => w.record h e
  | none => w

def step (w : World b) : Op → Option (World b)
  | .createSslHandle h role sockfd hostname cfg ans =>
      returning (espWolfsslCreateSslHandle h hostname cfg ans)
        (fun ret w' => w'.record h (.opened cfg (ret == .ok)))
        (w.setEndpoint h role sockfd)
  | .serverSessionCreate h cfg sockfd ans accepts =>
      returning (espWolfsslServerSessionCreate h cfg sockfd ans accepts)
        (fun ret w' => match cfg with
          | some cfg => recordAt h (.opened (.server cfg) (ret == 0)) w'
          | none => w') w
  | .handshake h cfg ans flags => returning (espWolfsslHandshake h cfg ans flags) (fun _ => id) w
  | .read h datalen ans => returning (espWolfsslRead h datalen ans) (fun _ => id) w
  | .write h datalen ans => returning (espWolfsslWrite h datalen ans) (fun _ => id) w
  | .connDelete h => some (recordAt h .deleted (espWolfsslConnDelete h w))
  | .serverSessionDelete h => some (recordAt h .deleted (espWolfsslServerSessionDelete h w))
  | .pskClientCb h identity idMaxLen key keyMaxLen =>
      if b.pskVerification = true ∧ CallbackInstalled w h then
        returning (espWolfsslPskClientCb h identity idMaxLen key keyMaxLen)
          (fun ans w' => w'.record h (.pskAnswered ans.len ans.identity ans.key)) w
      else none
  | .initGlobalCaStore => returning espWolfsslInitGlobalCaStore (fun _ => id) w
  | .setGlobalCaStore cacertPemBuf malloc =>
      returning (espWolfsslSetGlobalCaStore cacertPemBuf malloc) (fun _ => id) w
  | .getGlobalCaStore => returning espWolfsslGetGlobalCaStore (fun _ => id) w
  | .freeGlobalCaStore => some (espWolfsslFreeGlobalCaStore w)

/-- The runs of the backend from boot. -/
abbrev Runs (lockCreated : Bool) (ops : List Op) (w : World b) : Prop :=
  Run step Free (World.boot b lockCreated) ops w

/-- A build with pre-shared keys that also lets clients skip verification. -/
def exampleBuild : Build where
  pskVerification := true
  skipServerCertVerify := true
  haveAlpn := true
  haveOcsp := false
  ocspCheckall := false
  tls13 := true
  haveAesgcm := true
  noDh := true
  haveEcc := true
  haveNullCipher := false
  codes := Codes.idf

def allSucceed : CreateAnswers where
  wolfsslInit := wolfsslSuccess
  ctxNew := true
  loadCa := ⟨true, wolfsslSuccess⟩
  setCipherList := wolfsslSuccess
  loadCert := ⟨true, wolfsslSuccess⟩
  loadKey := ⟨true, wolfsslSuccess⟩
  sslNew := true
  strdup := true
  checkDomainName := wolfsslSuccess
  useSni := wolfsslSuccess
  useAlpn := fun _ => wolfsslSuccess
  ctxEnableOcsp := wolfsslSuccess
  ctxEnableOcspStapling := wolfsslSuccess
  useOcspStapling := wolfsslSuccess

/-- A client without any credentials that checks no host name. -/
def plainClient : ClientCfg where
  crtBundleAttach := false
  useGlobalCaStore := false
  cacertBuf := none
  pskHintKey := none
  clientcertBuf := none
  clientkeyBuf := none
  skipCommonName := true
  commonName := none
  alpnProtos := none

def hintA : CString := ⟨[97], by simp⟩

def hintB : CString := ⟨[98], by simp⟩

def pskClient (hint : CString) (key : UInt8) : ClientCfg :=
  { plainClient with pskHintKey := some ⟨some [key], 1, some hint, by simp⟩ }

/-- One byte that is no PEM. -/
def derBuffer : Buffer := ⟨[0x30], by simp⟩

/-- A PEM with a NUL in front of its header and one at its end. -/
def pemBuffer : Buffer := ⟨0 :: headerCertificate.chars ++ [0], by decide⟩

/-- A server that asks its clients for no certificate. -/
def plainServer : ServerCfg where
  cacertBuf := none
  servercertBuf := some derBuffer
  serverkeyBuf := some derBuffer

end EspWolfssl.BackendSteps
