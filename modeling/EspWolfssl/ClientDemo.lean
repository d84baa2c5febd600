import EspWolfssl.ResourceLedger
import EspWolfssl.Transfers

/-!
The client example that calls wolfSSL itself. It waits until the clock is set, and
then it connects, writes one request and prints the response, round after round.
A round that fails leaves through the labels behind the point it has reached.
-/
namespace EspWolfssl.ClientDemo

open ByteRegions ResourceLedger TaggedLogs Platform ProgramLogic Transfers

/-- The kinds of objects of a round. A socket is named like the others, since the
number of its descriptor is used again after `close`. -/
inductive ObjectKind
  | ctx
  | socket
  | ssl
deriving DecidableEq

inductive TlsMethod
  | wolfTLSv12Client
  | wolfTLSv13Client
deriving DecidableEq

/-- A call of the client, with what it answers. `retryDelay` is the `vTaskDelay`
between two attempts to receive the time. -/
inductive Call
  | sntpInit
  | vTaskDelay (ms : ℕ)
  | gettimeofday (tvSec : ℤ)
  | retryDelay (ms : ℕ)
  | gethostbyname (found : Bool)
  | init (ret : Int32)
  | ctxNew (method : TlsMethod) (ctx : Option ℕ)
  | socket (sockfd : Option ℕ)
  | loadVerifyBuffer (ctx : ℕ) (pem : List UInt8) (ret : Int32)
  | setVerify (ctx : ℕ) (mode : VerifyMode)
  | connect (sockfd : ℕ) (ret : Int32)
  | sslNew (ctx : ℕ) (ssl : Option ℕ)
  | setFd (ssl sockfd : ℕ)
  | sslConnect (ssl : ℕ) (ret : Int32)
  | write (ssl : ℕ) (data : List UInt8) (ret : Int32)
  | read (ssl : ℕ) (data : List UInt8) (ret : Int32)
  | printf (chars : List UInt8)
  | shutdown (ssl : ℕ)
  | sslFree (ssl : ℕ)
  | close (sockfd : ℕ)
  | ctxFree (ctx : ℕ)
  | cleanup

/-- What a call does to the objects. -/
def Call.action : Call → Option (Action ObjectKind)
  | .ctxNew _ (some ctx) => some (.alloc ctx .ctx none)
  | .socket (some sockfd) => some (.alloc sockfd .socket none)
  | .sslNew ctx (some ssl) => some (.alloc ssl .ssl (some ctx))
  | .loadVerifyBuffer ctx _ _ | .setVerify ctx _ | .sslNew ctx none => some (.use [ctx])
  | .connect sockfd _ => some (.use [sockfd])
  | .setFd ssl sockfd => some (.use [ssl, sockfd])
  | .sslConnect ssl _ | .write ssl _ _ | .read ssl _ _ | .shutdown ssl => some (.use [ssl])
  | .sslFree obj | .close obj | .ctxFree obj => some (.free obj)
  | _ => none

/-- What the client is built with. The times of the SNTP client are in milliseconds. -/
structure Settings where
  wolfsslTls13 : Bool
  serverCertVerify : Bool
  serverRootCertPem : List UInt8
  sntpRecvTimeout : ℕ
  sntpRetryTimeoutMax : ℕ

/-- `sizeof(recv_data)` -/
def recvDataSize : ℕ := 1024

structure ClientState where
  log : List (Unit × Call)
  nextObj : ℕ
  recvData : List UInt8

def ClientState.boot : ClientState := ⟨[], 0, List.replicate recvDataSize 0⟩

abbrev Client (α : Type) := Prog ClientState Exit α

def call (e : Call) : Client Unit := Prog.modify fun s => { s with log := s.log ++ [((), e)] }

/-- A call that returns a new object, or NULL or a negative descriptor. -/
def acquire (succeeds : Bool) (e : Option ℕ → Call) : Client (Option ℕ) :=
  if succeeds then do
    let obj ← Prog.read (·.nextObj)
    Prog.modify fun s => { s with nextObj := obj + 1 }
    call (e (some obj))
    pure (some obj)
  else do
    call (e none)
    pure none

/-- The time before which the clock counts as not set. -/
def timeIsSet : ℤ := 1657621503

/-- The `for` loop of an attempt with `n` readings left; it returns `now.tv_sec`. -/
def receiveTime (now : ℤ) : ℕ → List ℤ → Client ℤ
  | 0, _ => pure now
  | n + 1, readings =>
      if now < timeIsSet then do
        call (.vTaskDelay 100)
        match readings with
        | [] => Prog.stop .waiting
        | reading :: rest => do
            call (.gettimeofday reading)
            receiveTime reading n rest
      else pure now

/-- `x << cnt` of type `int`. -/
def shiftLeft (x cnt : ℕ) : Client ℕ :=
  if cnt < 32 ∧ x <<< cnt < 2 ^ 31 then pure (x <<< cnt) else Prog.stop (.fault .signedOverflow)

/-- `sntp_retry_cnt` behind a failed attempt. -/
def nextRetryCnt (cfg : Settings) (sntpRetryCnt : ℕ) : Client ℕ := do
  let next ← shiftLeft cfg.sntpRecvTimeout (sntpRetryCnt + 1)
  if next < cfg.sntpRetryTimeoutMax then pure (sntpRetryCnt + 1) else pure sntpRetryCnt

/-- The attempts to receive the time; each has the readings of its own. -/
def timeLoop (cfg : Settings) (now : ℤ) (sntpRetryCnt : ℕ) : List (List ℤ) → Client Unit
  | [] => Prog.stop .waiting
  | readings :: rest => do
      let now ← receiveTime now (cfg.sntpRecvTimeout / 100) readings
      if now < timeIsSet then do
        let sntpRetryTime ← shiftLeft cfg.sntpRecvTimeout sntpRetryCnt
        let sntpRetryCnt ← nextRetryCnt cfg sntpRetryCnt
        call (.retryDelay sntpRetryTime)
        timeLoop cfg now sntpRetryCnt rest
      else pure ()

def getTime (cfg : Settings) (clock : List (List ℤ)) : Client Unit := do
  call .sntpInit
  timeLoop cfg 0 0 clock

/-- The outcomes of the calls of a round. -/
structure RoundAnswers where
  lookups : List Bool
  init : Int32
  ctxNew : Bool
  socket : Bool
  loadVerifyBuffer : Int32
  connect : Int32
  sslNew : Bool
  sslConnect : Int32
  write : Transfer
  incoming : List UInt8
  reads : List Transfer

/-- `REQUEST`; its size is sent without the terminating NUL. -/
def sendData : CString :=
  CString.concat [.ofAscii "GET https://api.github.com/zen HTTP/1.0\r\n" (by decide),
    .ofAscii "Host: api.github.com\r\n" (by decide),
    .ofAscii "User-Agent: esp-idf/1.0 esp32\r\n" (by decide), .ofAscii "\r\n" (by decide)]

/-- The loop around `gethostbyname`. -/
def lookup : List Bool → Client Unit
  | [] => Prog.stop .waiting
  | found :: rest => do
      call (.gethostbyname found)
      call (.vTaskDelay 500)
      if found then pure () else lookup rest

def countdown : ℕ → Client Unit
  | 0 => call (.vTaskDelay 1000)
  | n + 1 => do
      call (.vTaskDelay 1000)
      countdown n

def failed1 : Client Unit := do
  call .cleanup
  countdown 10

def failed2 (ctx : ℕ) : Client Unit := do
  call (.ctxFree ctx)
  failed1

def failed3 (ctx sockfd : ℕ) : Client Unit := do
  call (.close sockfd)
  failed2 ctx

def failed4 (ctx sockfd ssl : ℕ) : Client Unit := do
  call (.sslFree ssl)
  failed3 ctx sockfd

def failed5 (ctx sockfd ssl : ℕ) : Client Unit := do
  call (.shutdown ssl)
  failed4 ctx sockfd ssl

/-- The loop that prints the response; `incoming` is what the peer still has to say. -/
def readLoop (ssl : ℕ) (incoming : List UInt8) : List Transfer → Client Unit
  | [] => Prog.stop .waiting
  | t :: rest => do
      let data := t.moved incoming (Int32.ofNat recvDataSize)
      let ret := (t.answer incoming (Int32.ofNat recvDataSize)).ret
      call (.read ssl data ret)
      Prog.modify fun s => { s with recvData := data ++ s.recvData.drop data.length }
      if ret ≤ 0 then pure ()
      else do
        let recvData ← Prog.read (·.recvData)
        call (.printf (recvData.take ret.toNatClampNeg ++ [newline]))
        readLoop ssl (incoming.drop data.length) rest

/-- From the handshake on. -/
def exchange (ctx sockfd ssl : ℕ) (ans : RoundAnswers) : Client Unit := do
  call (.setFd ssl sockfd)
  call (.sslConnect ssl ans.sslConnect)
  if ans.sslConnect ≠ wolfsslSuccess then failed4 ctx sockfd ssl
  else do
    let size := Int32.ofNat sendData.length
    let ret := (ans.write.answer sendData.chars size).ret
    call (.write ssl (ans.write.moved sendData.chars size) ret)
    if ret ≤ 0 then failed5 ctx sockfd ssl
    else do
      readLoop ssl ans.incoming ans.reads
      failed5 ctx sockfd ssl

/-- From the connection of the socket on. -/
def connectServer (ctx sockfd : ℕ) (ans : RoundAnswers) : Client Unit := do
  call (.connect sockfd ans.connect)
  if ans.connect ≠ 0 then failed3 ctx sockfd
  else do
    let ssl ← acquire ans.sslNew (.sslNew ctx)
    match ssl with
    | none => failed3 ctx sockfd
    | some ssl => exchange ctx sockfd ssl ans

/-- From the trust of the context on. -/
def trustServer (cfg : Settings) (ctx sockfd : ℕ) (ans : RoundAnswers) : Client Unit :=
  if cfg.serverCertVerify then do
    call (.loadVerifyBuffer ctx cfg.serverRootCertPem ans.loadVerifyBuffer)
    if wolfsslSuccess ≠ ans.loadVerifyBuffer then failed3 ctx sockfd
    else do
      call (.setVerify ctx .peer)
      connectServer ctx sockfd ans
  else do
    call (.setVerify ctx .none)
    connectServer ctx sockfd ans

def Settings.method (cfg : Settings) : TlsMethod :=
  if cfg.wolfsslTls13 then .wolfTLSv13Client else .wolfTLSv12Client

def clientRound (cfg : Settings) (ans : RoundAnswers) : Client Unit := do
  lookup ans.lookups
  call (.init ans.init)
  if ans.init ≠ wolfsslSuccess then failed1
  else do
    let ctx ← acquire ans.ctxNew (.ctxNew cfg.method)
    match ctx with
    | none => failed1
    | some ctx => do
        let sockfd ← acquire ans.socket .socket
        match sockfd with
        | none => failed2 ctx
        | some sockfd => trustServer cfg ctx sockfd ans

/-- As many rounds of the endless loop as there are outcomes for. -/
def clientRounds (cfg : Settings) : List RoundAnswers → Client Unit
  | [] => pure ()
  | ans :: rest => do
      clientRound cfg ans
      clientRounds cfg rest

def wolfsslClient (cfg : Settings) (clock : List (List ℤ)) (rounds : List RoundAnswers) :
    Client Unit := do
  getTime cfg clock
  clientRounds cfg rounds

/-- A build that verifies the server, with the times of the SNTP headers. -/
def exampleSettings : Settings where
  wolfsslTls13 := true
  serverCertVerify := true
  serverRootCertPem := [45]
  sntpRecvTimeout := 15000
  sntpRetryTimeoutMax := 150000

/-- A round whose handshake fails. -/
def handshakeFails : RoundAnswers where
  lookups := [false, true]
  init := wolfsslSuccess
  ctxNew := true
  socket := true
  loadVerifyBuffer := wolfsslSuccess
  connect := 0
  sslNew := true
  sslConnect := -1
  write := ⟨0, 0, 0, by decide⟩
  incoming := []
  reads := []

/-- A round that writes the request and reads one byte before the peer closes. -/
def answersOneByte : RoundAnswers :=
  { handshakeFails with
    sslConnect := wolfsslSuccess
    write := ⟨sendData.length, 0, 0, by decide⟩
    incoming := [65]
    reads := [⟨1, 0, 0, by decide⟩, ⟨0, 0, 0, by decide⟩] }

end EspWolfssl.ClientDemo
