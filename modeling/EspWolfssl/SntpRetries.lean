import EspWolfssl.ClientDemo
import Mathlib.Data.List.Indexes
import Mathlib.Data.Nat.Log

/-!
How the client example waits for the time. It makes attempt after attempt, each with
the same number of readings of the clock, and goes on with the first reading that
counts as set. The delay behind a failed attempt doubles from one to the next as long
as it stays below its maximum.
-/
namespace EspWolfssl.SntpRetries

open Platform ProgramLogic ClientDemo

/-- How often the timeout can be doubled and stay below the maximum. -/
def doublings (cfg : Settings) : ℕ :=
  Nat.log 2 ((cfg.sntpRetryTimeoutMax - 1) / cfg.sntpRecvTimeout)

/-- The delay behind attempt number `k`, counted from zero. -/
def retryTime (cfg : Settings) (k : ℕ) : ℕ := cfg.sntpRecvTimeout * 2 ^ min k (doublings cfg)

def readingsPerAttempt (cfg : Settings) : ℕ := cfg.sntpRecvTimeout / 100

/-- The calls of an attempt with these readings. -/
def attemptCalls (readings : List ℤ) : List Call :=
  readings.flatMap fun tvSec => [.vTaskDelay 100, .gettimeofday tvSec]

/-- The calls of the attempts that failed, each with the delay behind it. -/
def failedCalls (cfg : Settings) (failed : List (List ℤ)) : List Call :=
  (failed.mapIdx fun k readings =>
    attemptCalls readings ++ [.retryDelay (retryTime cfg k)]).flatten

theorem attemptCalls_concat (readings : List ℤ) (tvSec : ℤ) :
    attemptCalls (readings ++ [tvSec]) =
      attemptCalls readings ++ [.vTaskDelay 100, .gettimeofday tvSec] := by
  simp [attemptCalls]

theorem failedCalls_concat (cfg : Settings) (failed : List (List ℤ)) (readings : List ℤ) :
    failedCalls cfg (failed ++ [readings]) = failedCalls cfg failed ++ attemptCalls readings ++
      [.retryDelay (retryTime cfg failed.length)] := by
  simp [failedCalls]

/-- Behind the attempts `failed`, with the readings `last` since then. The calls of
`pending` are the ones behind the last reading. -/
structure Waited (cfg : Settings) (failed : List (List ℤ)) (last : List ℤ) (pending : List Call)
    (s : ClientState) : Prop where
  calls : s.log.map Prod.snd =
    .sntpInit :: (failedCalls cfg failed ++ attemptCalls last ++ pending)
  full : ∀ readings ∈ failed, readings.length = readingsPerAttempt cfg
  within : last.length ≤ readingsPerAttempt cfg
  unset : ∀ readings ∈ failed, ∀ tvSec ∈ readings, tvSec < timeIsSet

/-- The clock says `now`, and no reading before said that it is set. -/
def Says (last : List ℤ) (now : ℤ) : Prop :=
  (now < timeIsSet ∧ ∀ tvSec ∈ last, tvSec < timeIsSet) ∨
    timeIsSet ≤ now ∧ ∃ early, last = early ++ [now] ∧ ∀ tvSec ∈ early, tvSec < timeIsSet

section Delays
variable {cfg : Settings}

theorem shift_lt_max_iff (hrecv : 0 < cfg.sntpRecvTimeout) (cnt : ℕ) :
    cfg.sntpRecvTimeout <<< (cnt + 1) < cfg.sntpRetryTimeoutMax ↔ cnt + 1 ≤ doublings cfg := by
  have hpow : 0 < 2 ^ (cnt + 1) := Nat.pow_pos (by decide)
  have hshift : cfg.sntpRecvTimeout <<< (cnt + 1) < cfg.sntpRetryTimeoutMax ↔
      2 ^ (cnt + 1) ≤ (cfg.sntpRetryTimeoutMax - 1) / cfg.sntpRecvTimeout := by
    rw [Nat.shiftLeft_eq, Nat.le_div_iff_mul_le hrecv, Nat.mul_comm]
    have := Nat.mul_pos hpow hrecv
    omega
  rw [hshift, doublings]
  by_cases hzero : (cfg.sntpRetryTimeoutMax - 1) / cfg.sntpRecvTimeout = 0
  · rw [hzero, Nat.log_zero_right]
    omega
  · exact (Nat.le_log_iff_pow_le (by decide) hzero).symm

theorem retryTime_lt_max (hrecv : 0 < cfg.sntpRecvTimeout)
    (hmax : cfg.sntpRecvTimeout < cfg.sntpRetryTimeoutMax) (k : ℕ) :
    retryTime cfg k < cfg.sntpRetryTimeoutMax := by
  unfold retryTime
  cases hcnt : min k (doublings cfg) with
  | zero => simpa using hmax
  | succ cnt =>
    have hlt := (shift_lt_max_iff hrecv cnt).mpr (by omega)
    rwa [Nat.shiftLeft_eq] at hlt

/-- A delay that is not doubled any more would reach the maximum. -/
theorem retryTime_doubled (hrecv : 0 < cfg.sntpRecvTimeout) (k : ℕ) :
    retryTime cfg k = cfg.sntpRecvTimeout * 2 ^ k ∨
      cfg.sntpRetryTimeoutMax ≤ 2 * retryTime cfg k := by
  unfold retryTime
  by_cases hk : k ≤ doublings cfg
  · exact Or.inl (by rw [Nat.min_eq_left hk])
  · have hge := mt (shift_lt_max_iff hrecv (doublings cfg)).mp (by omega)
    rw [Nat.shiftLeft_eq, Nat.pow_succ', Nat.mul_left_comm] at hge
    rw [Nat.min_eq_right (by omega)]
    exact Or.inr (by omega)

/-- The shifts of the loop stay far below the largest `int`. -/
theorem shiftLeft_eq (hrecv : 0 < cfg.sntpRecvTimeout) {cnt : ℕ}
    (hfit : cfg.sntpRecvTimeout * 2 ^ cnt < 2 ^ 31) (s : ClientState) :
    shiftLeft cfg.sntpRecvTimeout cnt s = (.ok (cfg.sntpRecvTimeout * 2 ^ cnt), s) := by
  have hcnt : cnt < 31 := by
    have hle := Nat.le_mul_of_pos_left (2 ^ cnt) hrecv
    exact (Nat.pow_lt_pow_iff_right (by decide)).mp (hle.trans_lt hfit)
  have hint : cnt < 32 ∧ cfg.sntpRecvTimeout <<< cnt < 2 ^ 31 := by
    rw [Nat.shiftLeft_eq]
    exact ⟨by omega, hfit⟩
  rw [shiftLeft, if_pos hint, Nat.shiftLeft_eq, Prog.pure_apply]

theorem nextRetryCnt_eq (hrecv : 0 < cfg.sntpRecvTimeout)
    (hmax : cfg.sntpRecvTimeout < cfg.sntpRetryTimeoutMax)
    (hint : cfg.sntpRetryTimeoutMax ≤ 2 ^ 30) (k : ℕ) (s : ClientState) :
    nextRetryCnt cfg (min k (doublings cfg)) s = (.ok (min (k + 1) (doublings cfg)), s) := by
  have hbelow := retryTime_lt_max hrecv hmax k
  have hfit : cfg.sntpRecvTimeout * 2 ^ (min k (doublings cfg) + 1) < 2 ^ 31 := by
    rw [retryTime] at hbelow
    rw [Nat.pow_succ', Nat.mul_left_comm]
    omega
  rw [nextRetryCnt, Prog.bind_of_ok (shiftLeft_eq hrecv hfit s), ← Nat.shiftLeft_eq]
  split
  · rename_i hlt
    rw [shift_lt_max_iff hrecv] at hlt
    rw [Prog.pure_apply, Nat.min_eq_left (by omega), Nat.min_eq_left (by omega)]
  · rename_i hge
    rw [shift_lt_max_iff hrecv] at hge
    rw [Prog.pure_apply, Nat.min_eq_right (by omega), Nat.min_eq_right (by omega)]

end Delays

section Loop
variable {cfg : Settings} {failed : List (List ℤ)} {last : List ℤ} {s : ClientState}

theorem Waited.reading (hs : Waited cfg failed last [.vTaskDelay 100] s)
    (hroom : last.length < readingsPerAttempt cfg) (tvSec : ℤ) :
    Waited cfg failed (last ++ [tvSec]) []
      { s with log := s.log ++ [((), .gettimeofday tvSec)] } where
  calls := by
    rw [List.map_append, hs.calls, attemptCalls_concat]
    simp
  full := hs.full
  within := by
    rw [List.length_append, List.length_singleton]
    exact hroom
  unset := hs.unset

theorem Waited.delay (hs : Waited cfg failed last [] s) :
    Waited cfg failed last [.vTaskDelay 100]
      { s with log := s.log ++ [((), .vTaskDelay 100)] } where
  calls := by
    rw [List.map_append, hs.calls]
    simp
  full := hs.full
  within := hs.within
  unset := hs.unset

/-- The delay ends an attempt that failed. -/
theorem Waited.next (hs : Waited cfg failed last [] s)
    (hfull : last.length = readingsPerAttempt cfg) (hunset : ∀ tvSec ∈ last, tvSec < timeIsSet) :
    Waited cfg (failed ++ [last]) [] []
      { s with log := s.log ++ [((), .retryDelay (retryTime cfg failed.length))] } where
  calls := by
    rw [List.map_append, hs.calls, failedCalls_concat]
    simp [attemptCalls]
  full := by
    intro readings hmem
    rcases List.mem_append.mp hmem with hmem | hmem
    · exact hs.full readings hmem
    · exact (List.mem_singleton.mp hmem) ▸ hfull
  within := Nat.zero_le _
  unset := by
    intro readings hmem
    rcases List.mem_append.mp hmem with hmem | hmem
    · exact hs.unset readings hmem
    · exact (List.mem_singleton.mp hmem) ▸ hunset

theorem says_next {now : ℤ} (hsaid : Says last now) (hunset : now < timeIsSet) (reading : ℤ) :
    Says (last ++ [reading]) reading := by
  obtain ⟨_, hlast⟩ | ⟨hset, _⟩ := hsaid
  · by_cases hreading : reading < timeIsSet
    · refine Or.inl ⟨hreading, fun tvSec hmem => ?_⟩
      rcases List.mem_append.mp hmem with hmem | hmem
      · exact hlast tvSec hmem
      · exact (List.mem_singleton.mp hmem) ▸ hreading
    · exact Or.inr ⟨by omega, last, rfl, hlast⟩
  · omega

/-- A run that ends in the wait for the time. -/
def Stuck (cfg : Settings) (e : Exit) (s : ClientState) : Prop :=
  e = .waiting ∧ ∃ failed last pending, Waited cfg failed last pending s ∧
    pending <+: [.vTaskDelay 100] ∧ ∀ tvSec ∈ last, tvSec < timeIsSet

/-- An attempt reads the clock until it is set or `n` more readings were made. -/
theorem receiveTime_waited (n : ℕ) (readings : List ℤ) (now : ℤ)
    (hroom : last.length + n = readingsPerAttempt cfg) (hsaid : Says last now) :
    Prog.Triple (Waited cfg failed last []) (receiveTime now n readings)
      (fun now s => ∃ last, Waited cfg failed last [] s ∧ Says last now ∧
        (now < timeIsSet → last.length = readingsPerAttempt cfg)) (Stuck cfg) := by
  induction n generalizing now last readings with
  | zero => exact .pure fun s hs => ⟨last, hs, hsaid, fun _ => hroom⟩
  | succ n ih =>
    refine .ite (fun hunset s hs => ?_) fun hset => ?_
    · have hlast : ∀ tvSec ∈ last, tvSec < timeIsSet := by
        obtain ⟨_, hlast⟩ | ⟨hset, _⟩ := hsaid
        · exact hlast
        · omega
      cases readings with
      | nil => exact ⟨rfl, failed, last, _, hs.delay, List.prefix_refl _, hlast⟩
      | cons reading rest =>
        have hroom' : (last ++ [reading]).length + n = readingsPerAttempt cfg := by
          rw [List.length_append, List.length_singleton]
          omega
        have hnext := ih rest reading hroom' (says_next hsaid hunset reading)
        exact hnext _ (hs.delay.reading (by omega) reading)
    · exact .pure fun s hs => ⟨last, hs, hsaid, fun hunset => absurd hunset hset⟩

theorem timeLoop_waited (hrecv : 0 < cfg.sntpRecvTimeout)
    (hmax : cfg.sntpRecvTimeout < cfg.sntpRetryTimeoutMax)
    (hint : cfg.sntpRetryTimeoutMax ≤ 2 ^ 30) (clock : List (List ℤ)) {now : ℤ}
    (hunset : now < timeIsSet) :
    Prog.Triple (Waited cfg failed [] [])
      (timeLoop cfg now (min failed.length (doublings cfg)) clock)
      (fun _ s => ∃ failed last now, Waited cfg failed last [] s ∧ Says last now ∧
        timeIsSet ≤ now) (Stuck cfg) := by
  induction clock generalizing now failed with
  | nil =>
    exact .stop fun s hs => ⟨rfl, failed, [], [], hs, List.nil_prefix, by simp⟩
  | cons readings rest ih =>
    have hstart : Says [] now := Or.inl ⟨hunset, by simp⟩
    have hreceive : Prog.Triple (Waited cfg failed [] []) _ _ _ :=
      receiveTime_waited (readingsPerAttempt cfg) readings now (Nat.zero_add _) hstart
    refine Prog.Triple.bind hreceive fun now => ?_
    refine .ite (fun hunset s hs => ?_) fun hset => ?_
    · obtain ⟨last, hs, hsaid, hfull⟩ := hs
      have hlast : ∀ tvSec ∈ last, tvSec < timeIsSet := by
        obtain ⟨_, hlast⟩ | ⟨hset, _⟩ := hsaid
        · exact hlast
        · omega
      have hbelow := retryTime_lt_max hrecv hmax failed.length
      have hshift := shiftLeft_eq hrecv (hbelow.trans_le (hint.trans (by decide))) s
      have hcnt := nextRetryCnt_eq hrecv hmax hint failed.length s
      rw [Prog.bind_of_ok hshift, Prog.bind_of_ok hcnt]
      have hnext : Prog.Triple (Waited cfg (failed ++ [last]) [] []) _ _ _ := ih hunset
      rw [List.length_append, List.length_singleton] at hnext
      exact hnext _ (hs.next (hfull hunset) hlast)
    · refine .pure fun s hs => ?_
      obtain ⟨last, hs, hsaid, _⟩ := hs
      exact ⟨failed, last, now, hs, hsaid, by omega⟩

/-- Every run of `get_time` is a series of attempts. Each one that failed read the clock
exactly as often as the timeout allows, and has a delay behind it that is the timeout
doubled once for every attempt before, or so often that once more would reach the
maximum; it never does. The function returns with the first reading that counts as
set, in an attempt with no more readings than the others, and else it waits. -/
theorem getTime_backs_off (hrecv : 0 < cfg.sntpRecvTimeout)
    (hmax : cfg.sntpRecvTimeout < cfg.sntpRetryTimeoutMax)
    (hint : cfg.sntpRetryTimeoutMax ≤ 2 ^ 30) {clock : List (List ℤ)}
    {r : Except Exit Unit} {s : ClientState} (hrun : getTime cfg clock .boot = (r, s)) :
    (∀ k, retryTime cfg k < cfg.sntpRetryTimeoutMax ∧
      (retryTime cfg k = cfg.sntpRecvTimeout * 2 ^ k ∨
        cfg.sntpRetryTimeoutMax ≤ 2 * retryTime cfg k)) ∧
    ∃ failed last pending, Waited cfg failed last pending s ∧
      (r = .ok () ∧ pending = [] ∧ (∃ early now, last = early ++ [now] ∧ timeIsSet ≤ now ∧
        ∀ tvSec ∈ early, tvSec < timeIsSet) ∨
      r = .error .waiting ∧ pending <+: [.vTaskDelay 100] ∧
        ∀ tvSec ∈ last, tvSec < timeIsSet) := by
  refine ⟨fun k => ⟨retryTime_lt_max hrecv hmax k, retryTime_doubled hrecv k⟩, ?_⟩
  have hstart : Waited cfg [] [] [] { ClientState.boot with log := [((), .sntpInit)] } :=
    ⟨rfl, by simp, Nat.zero_le _, by simp⟩
  have hunset : (0 : ℤ) < timeIsSet := by decide
  have hend := timeLoop_waited hrecv hmax hint clock hunset _ hstart
  have hloop : Prog.Post _ _ (getTime cfg clock .boot) := hend
  rw [hrun] at hloop
  cases r with
  | ok _ =>
    obtain ⟨failed, last, now, hs, hsaid, hset⟩ := hloop
    obtain ⟨hlt, _⟩ | ⟨_, early, hlast, hearly⟩ := hsaid
    · omega
    · exact ⟨failed, last, [], hs, Or.inl ⟨rfl, rfl, early, now, hlast, hset, hearly⟩⟩
  | error e =>
    obtain ⟨rfl, failed, last, pending, hs, hpending, hlast⟩ := hloop
    exact ⟨failed, last, pending, hs, Or.inr ⟨rfl, hpending, hlast⟩⟩

/-- With the times of the SNTP headers, and a clock that is set after a failed attempt. -/
theorem backs_off_once :
    ∃ s, getTime exampleSettings [List.replicate 150 0, [1657621503]] .boot = (.ok (), s) ∧
      ∃ failed last, Waited exampleSettings failed last [] s := by
  obtain ⟨_, s, hrun⟩ : ∃ u s, getTime exampleSettings [List.replicate 150 0, [1657621503]]
      .boot = (.ok u, s) := Prog.exists_of_isOk (by decide +kernel)
  obtain ⟨_, failed, last, pending, hs, hend⟩ :=
    getTime_backs_off (by decide) (by decide) (by decide) hrun
  obtain ⟨_, rfl, _⟩ | ⟨hwait, _⟩ := hend
  · exact ⟨s, hrun, failed, last, hs⟩
  · cases hwait

end Loop

end EspWolfssl.SntpRetries
