import EspWolfssl.ProgramLogic
import EspWolfssl.ResourceLedger
import Mathlib.Data.Int.Notation

/-!
The clock of the request example. The time comes from SNTP and is given to the
non-volatile storage, from where a device that is powered on sets its clock. What
the storage answers is an input, as what SNTP answers is.
-/
namespace EspWolfssl.TimeSync

open ResourceLedger TaggedLogs ProgramLogic

/-- The codes of `esp_err_t` that the functions tell apart. -/
inductive Err
  | ok
  | fail
  | nvsNotFound
  | other (code : ℕ)
deriving DecidableEq

inductive ObjectKind
  | sntp
  | nvs
deriving DecidableEq

/-- A call, with what it answers. -/
inductive Call
  | sntpInit (client : Option ℕ)
  | sntpSyncWait (client : Option ℕ) (ret : Err)
  | sntpDeinit (client : Option ℕ)
  | time (now : ℤ)
  | nvsOpen (handle : Option ℕ)
  | nvsSetI64 (handle : ℕ) (value : ℤ) (ret : Err)
  | nvsCommit (handle : ℕ) (ret : Err)
  | nvsGetI64 (handle : ℕ) (ret : Err) (value : ℤ)
  | nvsClose (handle : ℕ)
  | settimeofday (tvSec tvUsec : ℤ)
  | espResetReason (powerOn : Bool)
  | xTaskCreate
deriving DecidableEq

/-- What a call does to the objects. A wait uses the client, if there is one. -/
def Call.action : Call → Option (Action ObjectKind)
  | .sntpInit (some client) => some (.alloc client .sntp none)
  | .sntpSyncWait client _ => some (.use client.toList)
  | .sntpDeinit (some client) => some (.free client)
  | .nvsOpen (some handle) => some (.alloc handle .nvs none)
  | .nvsSetI64 handle _ _ | .nvsCommit handle _ | .nvsGetI64 handle _ _ => some (.use [handle])
  | .nvsClose handle => some (.free handle)
  | _ => none

/-- How a run of the device ends: it waits for an answer, or `ESP_ERROR_CHECK` aborts it. -/
inductive Stop
  | waiting
  | abort

/-- `sntp` is the client of esp-netif, while there is one. -/
structure TimeState where
  log : List (Unit × Call)
  nextObj : ℕ
  sntp : Option ℕ

abbrev Sync (α : Type) := Prog TimeState Stop α

def call (e : Call) : Sync Unit := Prog.modify fun s => { s with log := s.log ++ [((), e)] }

def newObject : Sync ℕ := fun s => (.ok s.nextObj, { s with nextObj := s.nextObj + 1 })

/-- The result of `esp_netif_sntp_init` is ignored. -/
def initializeSntp (succeeds : Bool) : Sync Unit :=
  if succeeds then do
    let client ← newObject
    Prog.modify fun s => { s with sntp := some client }
    call (.sntpInit (some client))
  else call (.sntpInit none)

def espNetifSntpSyncWait (ret : Err) : Sync Unit := do
  let sntp ← Prog.read (·.sntp)
  call (.sntpSyncWait sntp ret)

def espNetifSntpDeinit : Sync Unit := do
  let sntp ← Prog.read (·.sntp)
  Prog.modify fun s => { s with sntp := none }
  call (.sntpDeinit sntp)

def retryCount : ℕ := 10

/-- The loop of `obtain_time`, and the check behind it. -/
def obtainTime (retry : ℕ) : List Err → Sync Err
  | [] => Prog.stop .waiting
  | ret :: rest => do
      espNetifSntpSyncWait ret
      if ret = .ok then pure .ok
      else if retry + 1 < retryCount then obtainTime (retry + 1) rest
      else pure .fail

/-- The error, and the handle: it stays zero in the source when the call fails. -/
def nvsOpen (ret : Err) : Sync (Option ℕ) :=
  if ret = .ok then do
    let handle ← newObject
    call (.nvsOpen (some handle))
    pure (some handle)
  else do
    call (.nvsOpen none)
    pure none

def closeHandle (handle : Option ℕ) : Sync Unit :=
  match handle with
  | some handle => call (.nvsClose handle)
  | none => pure ()

/-- The outcomes of the calls of `fetch_and_store_time_in_nvs`. -/
structure FetchAnswers where
  sntpInit : Bool
  waits : List Err
  now : ℤ
  nvsOpen : Err
  nvsSet : Err
  nvsCommit : Err

/-- The label `exit`. -/
def exitFetch (handle : Option ℕ) (err : Err) : Sync Err := do
  closeHandle handle
  espNetifSntpDeinit
  pure err

def fetchAndStoreTimeInNvs (ans : FetchAnswers) : Sync Err := do
  initializeSntp ans.sntpInit
  let ret ← obtainTime 0 ans.waits
  if ret ≠ .ok then exitFetch none .fail
  else do
    call (.time ans.now)
    let handle ← nvsOpen ans.nvsOpen
    match handle with
    | none => exitFetch none ans.nvsOpen
    | some handle => do
        call (.nvsSetI64 handle ans.now ans.nvsSet)
        if ans.nvsSet ≠ .ok then exitFetch (some handle) ans.nvsSet
        else do
          call (.nvsCommit handle ans.nvsCommit)
          exitFetch (some handle) ans.nvsCommit

/-- The outcomes of the calls of `update_time_from_nvs`. `timestamp` is the value that
`nvs_get_i64` delivers, and `tvUsec` is what `get_nvs_time.tv_usec` holds, which is
never written. -/
structure UpdateAnswers where
  nvsOpen : Err
  nvsGet : Err
  timestamp : ℤ
  tvUsec : ℤ
  fetch : FetchAnswers

def exitUpdate (handle : Option ℕ) (err : Err) : Sync Err := do
  closeHandle handle
  pure err

def updateTimeFromNvs (ans : UpdateAnswers) : Sync Err := do
  let handle ← nvsOpen ans.nvsOpen
  match handle with
  | none => exitUpdate none ans.nvsOpen
  | some handle => do
      call (.nvsGetI64 handle ans.nvsGet ans.timestamp)
      if ans.nvsGet = .nvsNotFound then do
        let ret ← fetchAndStoreTimeInNvs ans.fetch
        exitUpdate (some handle) (if ret ≠ .ok then .fail else .ok)
      else if ans.nvsGet = .ok then do
        call (.settimeofday ans.timestamp ans.tvUsec)
        exitUpdate (some handle) .ok
      else exitUpdate (some handle) ans.nvsGet

/-- The periodic timer of the application. -/
def timerTicks : List FetchAnswers → Sync Unit
  | [] => pure ()
  | ans :: rest => do
      let _ ← fetchAndStoreTimeInNvs ans
      timerTicks rest

/-- The outcomes of one boot: whether it is a power-on, the update, and the ticks of
the timer from then on. -/
structure BootAnswers where
  powerOn : Bool
  update : UpdateAnswers
  ticks : List FetchAnswers

/-- `ESP_ERROR_CHECK(update_time_from_nvs())`, behind a power-on only. -/
def updateAtPowerOn (ans : BootAnswers) : Sync Unit := do
  call (.espResetReason ans.powerOn)
  if ans.powerOn then do
    let err ← updateTimeFromNvs ans.update
    Prog.stopIf (err ≠ .ok) .abort
  else pure ()

def appMain (ans : BootAnswers) : Sync Unit := do
  updateAtPowerOn ans
  call .xTaskCreate
  timerTicks ans.ticks

/-- A boot up to a reset that comes behind `calls` of its calls, or later. A call that
the reset interrupts is the last one. -/
def bootUntil (ans : BootAnswers) (calls : ℕ) (s : TimeState) : TimeState :=
  let s' := (appMain ans { s with sntp := none }).2
  { s' with log := s'.log.take (s.log.length + calls) }

/-- The life of a device: boot after boot, each up to its reset. -/
def lifetime (boots : List (BootAnswers × ℕ)) (s : TimeState) : TimeState :=
  boots.foldl (fun s boot => bootUntil boot.1 boot.2 s) s

def TimeState.blank : TimeState := ⟨[], 0, none⟩

end EspWolfssl.TimeSync
