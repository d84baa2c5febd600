import EspWolfssl.TimeKeeping

/-!
Where the clock of the device comes from, over boots and resets. A time is stored right
behind the synchronisation that delivered it, so a clock that is set from the storage
is set to such a time.
-/
namespace EspWolfssl.ClockHistory

open TaggedLogs ProgramLogic TimeSync TimeKeeping

/-- The clock was set, from the storage or by SNTP. -/
def ClockSet (calls : List Call) : Prop :=
  (∃ client, .sntpSyncWait client .ok ∈ calls) ∨ ∃ tvSec tvUsec, .settimeofday tvSec tvUsec ∈ calls

/-- Since the last reset, of the kind `powerOn`, the clock was set when `set` says so. -/
def SinceReset (powerOn : Bool) (set : Prop) (calls : List Call) : Prop :=
  ∃ earlier since, calls = earlier ++ .espResetReason powerOn :: since ∧
    (∀ p, .espResetReason p ∉ since) ∧ (set → ClockSet since)

/-- SNTP delivers a time, and the storage is opened for it. -/
def delivery (client : Option ℕ) (value : ℤ) (handle : ℕ) : List Call :=
  [.sntpSyncWait client .ok, .time value, .nvsOpen (some handle)]

/-- A time is stored right behind its delivery, the clock is set right behind the reading
of the time, and the application starts its requests behind a power-on with a clock
that was set. -/
def InOrder (before : List (Unit × Call)) (entry : Unit × Call) : Prop :=
  match entry.2 with
  | .nvsSetI64 handle value _ => ∃ client, delivery client value handle <:+ before.map Prod.snd
  | .settimeofday tvSec _ => ∃ handle, [.nvsGetI64 handle .ok tvSec] <:+ before.map Prod.snd
  | .xTaskCreate => ∃ powerOn, SinceReset powerOn (powerOn = true) (before.map Prod.snd)
  | _ => True

/-- A value was set and committed. -/
def Committed (calls : List Call) : Prop :=
  ∃ handle value, [.nvsSetI64 handle value .ok, .nvsCommit handle .ok].Sublist calls

/-- The value was set, and none was set and committed since. -/
def Stored (value : ℤ) (calls : List Call) : Prop :=
  ∃ earlier handle ret later, calls = earlier ++ .nvsSetI64 handle value ret :: later ∧
    ¬ Committed later

/-- The storage delivers stored values only. -/
def ReadsStored (before : List (Unit × Call)) (entry : Unit × Call) : Prop :=
  ∀ handle value, entry.2 = .nvsGetI64 handle .ok value → Stored value (before.map Prod.snd)

/-- A time that the clock is set to was delivered by SNTP, in this boot or an earlier one,
and none was stored and committed since. -/
def SetToDelivered (before : List (Unit × Call)) (entry : Unit × Call) : Prop :=
  ∀ tvSec tvUsec, entry.2 = .settimeofday tvSec tvUsec →
    ∃ earlier client handle ret later, before.map Prod.snd =
      earlier ++ delivery client tvSec handle ++ .nvsSetI64 handle tvSec ret :: later ∧
        ¬ Committed later

def calls (s : TimeState) : List Call := s.log.map Prod.snd

def Kept (s : TimeState) : Prop := Throughout InOrder s.log

/-- Within a boot, behind the calls of `last`. -/
structure Within (powerOn : Bool) (set : Prop) (last : List Call) (s : TimeState) : Prop where
  kept : Kept s
  since : SinceReset powerOn set (calls s)
  last : last <:+ calls s

variable {α : Type} {powerOn : Bool} {set set' : Prop} {last : List Call} {s s' : TimeState}
  {e : Call}

theorem Within.weaken (hs : Within powerOn set last s) (hset : set' → set) :
    Within powerOn set' [] s := by
  obtain ⟨earlier, since, hcalls, hno, hclock⟩ := hs.since
  exact ⟨hs.kept, ⟨earlier, since, hcalls, hno, fun h => hclock (hset h)⟩, List.nil_suffix⟩

/-- One more call of the boot. -/
theorem Within.snoc (hs : Within powerOn set last s) (he : InOrder s.log ((), e))
    (hreset : ∀ p, e ≠ .espResetReason p) (hset : set' → set ∨ ClockSet [e])
    (hlog : s'.log = s.log ++ [((), e)]) : Within powerOn set' (last ++ [e]) s' := by
  have hcalls : calls s' = calls s ++ [e] := by simp [calls, hlog]
  obtain ⟨earlier, since, hbefore, hno, hclock⟩ := hs.since
  refine ⟨?_, ⟨earlier, since ++ [e], ?_, ?_, fun h => ?_⟩, ?_⟩
  · unfold Kept
    rw [hlog]
    exact (throughout_snoc _ _ _).mpr ⟨hs.kept, he⟩
  · rw [hcalls, hbefore, List.append_assoc, List.cons_append]
  · intro p hp
    rcases List.mem_append.mp hp with hp | hp
    · exact hno p hp
    · exact hreset p (List.mem_singleton.mp hp).symm
  · rcases hset h with h | ⟨client, h⟩ | ⟨tvSec, tvUsec, h⟩
    · exact (hclock h).imp (fun ⟨client, h⟩ => ⟨client, List.mem_append_left _ h⟩)
        fun ⟨tvSec, tvUsec, h⟩ => ⟨tvSec, tvUsec, List.mem_append_left _ h⟩
    · exact .inl ⟨client, List.mem_append_right _ h⟩
    · exact .inr ⟨tvSec, tvUsec, List.mem_append_right _ h⟩
  · obtain ⟨front, hfront⟩ := hs.last
    exact ⟨front, by rw [hcalls, ← hfront, List.append_assoc]⟩

/-- The call has no part in the order of the others. -/
def plain : Call → Bool
  | .nvsSetI64 _ _ _ | .settimeofday _ _ | .espResetReason _ | .xTaskCreate => false
  | _ => true

theorem Within.plain (hs : Within powerOn set last s) (he : plain e = true)
    (hset : set' → set ∨ ClockSet [e]) (hlog : s'.log = s.log ++ [((), e)]) :
    Within powerOn set' (last ++ [e]) s' := by
  have horder : InOrder s.log ((), e) := by cases e <;> trivial
  have hreset : ∀ p, e ≠ .espResetReason p := by
    rintro p rfl
    cases he
  exact hs.snoc horder hreset hset hlog

theorem Within.more (hs : Within powerOn set last s) (he : ClockHistory.plain e = true)
    (hlog : s'.log = s.log ++ [((), e)]) : Within powerOn set [] s' :=
  (hs.plain he .inl hlog).weaken fun h => h

/-- Returning or waiting, the program keeps the order and what is known of the clock. -/
def Continues (powerOn : Bool) (set : Prop) (m : Sync α) (set' : α → Prop) : Prop :=
  Prog.Triple (Within powerOn set []) m (fun a => Within powerOn (set' a) []) (fun _ => Kept)

theorem Continues.bind {β : Type} {m : Sync α} {f : α → Sync β} {known : α → Prop}
    {known' : β → Prop} (hm : Continues powerOn set m known)
    (hf : ∀ a, Continues powerOn (known a) (f a) known') :
    Continues powerOn set (m >>= f) known' :=
  Prog.Triple.bind hm hf

theorem call_plain (he : plain e = true) : Continues powerOn set (call e) fun _ => set :=
  fun _ hs => hs.more he rfl

theorem pure_continues (a : α) {known : α → Prop} (hset : known a → set) :
    Continues powerOn set (pure a) known :=
  fun _ hs => hs.weaken hset

theorem initializeSntp_continues (succeeds : Bool) :
    Continues powerOn set (initializeSntp succeeds) fun _ => set := by
  refine .ite (fun _ s hs => ?_) fun _ => call_plain rfl
  exact hs.more (e := .sntpInit (some s.nextObj)) rfl rfl

theorem espNetifSntpDeinit_continues :
    Continues powerOn set espNetifSntpDeinit fun _ => set := by
  refine Prog.Triple.read_bind fun sntp s hs => ?_
  exact hs.1.more (e := .sntpDeinit sntp) rfl rfl

theorem closeHandle_continues (handle : Option ℕ) :
    Continues powerOn set (closeHandle handle) fun _ => set := by
  cases handle with
  | none => exact pure_continues () fun h => h
  | some handle => exact call_plain rfl

theorem exitFetch_continues (handle : Option ℕ) (err : Err) {known : Err → Prop}
    (hset : known err → set) : Continues powerOn set (exitFetch handle err) known :=
  (closeHandle_continues handle).bind fun _ => espNetifSntpDeinit_continues.bind fun _ =>
    pure_continues err hset

/-- The loop returns `ESP_OK` right behind the wait that succeeded. -/
theorem obtainTime_continues (retry : ℕ) (waits : List Err) :
    Prog.Triple (Within powerOn set []) (obtainTime retry waits)
      (fun ret s => if ret = .ok then ∃ client, Within powerOn True [.sntpSyncWait client .ok] s
        else Within powerOn set [] s) (fun _ => Kept) := by
  induction waits generalizing retry with
  | nil => exact .stop fun _ hs => hs.kept
  | cons ret rest ih =>
    intro s hs
    have hwait : ∀ set', (set' → set ∨ ClockSet [.sntpSyncWait s.sntp ret]) →
        Within powerOn set' [.sntpSyncWait s.sntp ret]
          { s with log := s.log ++ [((), .sntpSyncWait s.sntp ret)] } :=
      fun set' hset => hs.plain (e := .sntpSyncWait s.sntp ret) rfl hset rfl
    change Prog.Post _ _ ((if ret = .ok then pure .ok
      else if retry + 1 < retryCount then obtainTime (retry + 1) rest else pure .fail : Sync Err)
        { s with log := s.log ++ [((), .sntpSyncWait s.sntp ret)] })
    split
    · rename_i hret
      subst hret
      exact ⟨s.sntp, hwait True fun _ => .inr (.inl ⟨s.sntp, by simp⟩)⟩
    · split
      · exact ih _ _ ((hwait set .inl).weaken fun h => h)
      · exact (hwait set .inl).weaken fun h => h

theorem call_behind (he : plain e = true) :
    Prog.Triple (Within powerOn set last) (call e) (fun _ => Within powerOn set (last ++ [e]))
      (fun _ => Kept) :=
  fun _ hs => hs.plain he .inl rfl

theorem nvsOpen_behind (ret : Err) :
    Prog.Triple (Within powerOn set last) (nvsOpen ret)
      (fun handle s => Within powerOn set (last ++ [.nvsOpen handle]) s ∧
        (handle = none → ret ≠ .ok)) (fun _ => Kept) := by
  intro s hs
  unfold nvsOpen
  split
  · exact ⟨hs.plain (e := .nvsOpen (some s.nextObj)) rfl .inl rfl, nofun⟩
  · exact ⟨hs.plain (e := .nvsOpen none) rfl .inl rfl, fun _ => ‹_›⟩

theorem nvsSetI64_behind (client : Option ℕ) (handle : ℕ) (value : ℤ) (ret : Err) :
    Prog.Triple (Within powerOn set (delivery client value handle))
      (call (.nvsSetI64 handle value ret)) (fun _ => Within powerOn set []) (fun _ => Kept) := by
  intro s hs
  have hset : Within powerOn set _ { s with
      log := s.log ++ [((), .nvsSetI64 handle value ret)] } :=
    hs.snoc (e := .nvsSetI64 handle value ret) ⟨client, hs.last⟩ (fun _ => nofun) .inl rfl
  exact hset.weaken fun h => h

/-- Behind a synchronisation. -/
theorem storeTime_continues (ans : FetchAnswers) (client : Option ℕ) :
    Prog.Triple (Within powerOn True [.sntpSyncWait client .ok]) (do
        call (.time ans.now)
        let handle ← nvsOpen ans.nvsOpen
        match handle with
        | none => exitFetch none ans.nvsOpen
        | some handle => do
            call (.nvsSetI64 handle ans.now ans.nvsSet)
            if ans.nvsSet ≠ .ok then exitFetch (some handle) ans.nvsSet
            else do
              call (.nvsCommit handle ans.nvsCommit)
              exitFetch (some handle) ans.nvsCommit : Sync Err)
      (fun ret => Within powerOn (set ∨ ret = .ok) []) (fun _ => Kept) := by
  refine Prog.Triple.bind (call_behind rfl) fun _ => ?_
  refine Prog.Triple.bind (nvsOpen_behind ans.nvsOpen) fun handle => ?_
  cases handle with
  | none =>
    intro s hs
    exact exitFetch_continues none ans.nvsOpen (fun _ => trivial) s (hs.1.weaken fun h => h)
  | some handle =>
    refine Prog.Triple.bind ((nvsSetI64_behind client handle ans.now ans.nvsSet).conseq
      (fun _ hs => hs.1) (fun _ _ hs => hs) fun _ _ hs => hs) fun _ => ?_
    refine .ite (fun _ => exitFetch_continues _ _ fun _ => trivial) fun _ => ?_
    exact (call_plain rfl).bind fun _ => exitFetch_continues _ _ fun _ => trivial

theorem fetchAndStoreTimeInNvs_continues (ans : FetchAnswers) :
    Continues powerOn set (fetchAndStoreTimeInNvs ans) fun ret => set ∨ ret = .ok := by
  refine (initializeSntp_continues _).bind fun _ => ?_
  refine Prog.Triple.bind (obtainTime_continues 0 _) fun ret => .ite (fun hret => ?_) fun hret => ?_
  · simp only [hret, if_false]
    exact exitFetch_continues none .fail (by simp)
  · rw [not_not] at hret
    simp only [hret, if_true]
    rintro s ⟨client, hs⟩
    exact storeTime_continues ans client s hs

theorem settimeofday_continues (handle : ℕ) (tvSec tvUsec : ℤ) :
    Prog.Triple (Within powerOn set [.nvsGetI64 handle .ok tvSec])
      (call (.settimeofday tvSec tvUsec)) (fun _ => Within powerOn True []) (fun _ => Kept) := by
  intro s hs
  have hset : Within powerOn True _ { s with
      log := s.log ++ [((), .settimeofday tvSec tvUsec)] } :=
    hs.snoc (e := .settimeofday tvSec tvUsec) ⟨handle, hs.last⟩ (fun _ => nofun)
      (fun _ => .inr (.inr ⟨tvSec, tvUsec, by simp⟩)) rfl
  exact hset.weaken fun h => h

theorem updateTimeFromNvs_continues (ans : UpdateAnswers) :
    Continues powerOn False (updateTimeFromNvs ans) fun err => err = .ok := by
  have hexit : ∀ {known : Prop} handle err, (err = .ok → known) →
      Continues powerOn known (exitUpdate handle err) fun err => err = .ok :=
    fun handle err hknown => (closeHandle_continues handle).bind fun _ => pure_continues err hknown
  have hstart : Prog.Triple (Within powerOn False []) (nvsOpen ans.nvsOpen) _ (fun _ => Kept) :=
    nvsOpen_behind ans.nvsOpen
  refine Prog.Triple.bind hstart fun handle => ?_
  cases handle with
  | none =>
    rintro s ⟨hs, hfail⟩
    exact hexit none _ (fun hok => absurd hok (hfail rfl)) s (hs.weaken fun h => h)
  | some handle =>
    have hget : Prog.Triple (Within powerOn False [])
        (call (.nvsGetI64 handle ans.nvsGet ans.timestamp)) _ (fun _ => Kept) := call_behind rfl
    refine Prog.Triple.bind (hget.conseq (fun _ hs => hs.1.weaken fun h => h) (fun _ _ hs => hs)
      fun _ _ hs => hs) fun _ => .ite (fun _ s hs => ?_) fun _ => .ite (fun hok => ?_) fun hne => ?_
    · refine ((fetchAndStoreTimeInNvs_continues ans.fetch).bind fun ret => ?_) s
        (hs.weaken fun h => h)
      refine hexit (some handle) _ fun hok => ?_
      by_cases hret : ret = .ok
      · exact .inr hret
      · simp [hret] at hok
    · rw [hok]
      exact (settimeofday_continues handle _ _).bind fun _ =>
        hexit (some handle) .ok fun _ => trivial
    · exact fun s hs => hexit (some handle) _ (fun hok => absurd hok hne) s (hs.weaken fun h => h)

theorem timerTicks_continues (ticks : List FetchAnswers) :
    Continues powerOn set (timerTicks ticks) fun _ => set := by
  induction ticks with
  | nil => exact pure_continues () fun h => h
  | cons ans rest ih =>
    refine Continues.bind (fetchAndStoreTimeInNvs_continues ans) fun _ s hs => ?_
    exact ih s (hs.weaken .inl)

/-- A boot goes on from what an earlier one left in the log. -/
theorem appMain_kept (ans : BootAnswers) : Prog.Preserves Kept (appMain ans) := by
  have hreason : Prog.Triple Kept (call (.espResetReason ans.powerOn))
      (fun _ => Within ans.powerOn False []) (fun _ => Kept) := by
    intro s hs
    have hkept : Kept { s with log := s.log ++ [((), .espResetReason ans.powerOn)] } :=
      (throughout_snoc _ _ _).mpr ⟨hs, trivial⟩
    exact ⟨hkept, ⟨calls s, [], by simp [calls], by simp, nofun⟩, List.nil_suffix⟩
  have hupdate : Prog.Triple Kept (updateAtPowerOn ans)
      (fun _ => Within ans.powerOn (ans.powerOn = true) []) (fun _ => Kept) := by
    refine hreason.bind fun _ => .ite (fun hpower => ?_) fun hpower => ?_
    · refine Prog.Triple.bind (updateTimeFromNvs_continues ans.update) fun err => ?_
      exact .stopIf (fun _ _ hs => hs.kept) fun herr s hs => hs.weaken fun _ => by simpa using herr
    · exact .pure fun _ hs => hs.weaken fun h => absurd h hpower
  have hcreate : Continues ans.powerOn (ans.powerOn = true) (call .xTaskCreate)
      fun _ => ans.powerOn = true := by
    intro s hs
    have hboot : Within ans.powerOn (ans.powerOn = true) [.xTaskCreate]
        { s with log := s.log ++ [((), .xTaskCreate)] } :=
      hs.snoc ⟨ans.powerOn, hs.since⟩ (fun _ => nofun) .inl rfl
    exact hboot.weaken fun h => h
  refine hupdate.bind fun _ => Prog.Triple.bind hcreate fun _ => ?_
  exact (timerTicks_continues ans.ticks).conseq (fun _ hs => hs) (fun _ _ hs => hs.kept)
    fun _ _ hs => hs

/-- A reset cuts the log of a boot, and keeps its order. -/
theorem bootUntil_kept (ans : BootAnswers) (n : ℕ) {s : TimeState} (hs : Kept s) :
    Kept (bootUntil ans n s) := by
  have hboot : Kept (appMain ans { s with sntp := none }).2 := (appMain_kept ans).apply hs
  exact throughout_of_starts hboot (List.take_prefix _ _)

theorem lifetime_kept (boots : List (BootAnswers × ℕ)) {s : TimeState} (hs : Kept s) :
    Kept (lifetime boots s) := by
  induction boots generalizing s with
  | nil => exact hs
  | cons boot rest ih => exact ih (bootUntil_kept boot.1 boot.2 hs)

theorem not_committed_snoc {done : List Call} (hdone : ¬ Committed done)
    (he : ∀ handle ret, e ≠ .nvsCommit handle ret) : ¬ Committed (done ++ [e]) := by
  rintro ⟨handle, value, hsub⟩
  obtain ⟨front, back, hsplit, hfront, hback⟩ := List.sublist_append_iff.mp hsub
  rcases List.sublist_singleton.mp hback with rfl | rfl
  · rw [List.append_nil] at hsplit
    exact hdone ⟨handle, value, hsplit ▸ hfront⟩
  · have hlast : [.nvsSetI64 handle value .ok] ++ [.nvsCommit handle .ok] = front ++ [e] := hsplit
    exact he handle .ok (List.head_eq_of_cons_eq (List.append_inj' hlast rfl).2).symm

/-- A time that is stored was delivered, so one that was read was. -/
theorem setToDelivered_of_stored {log : List (Unit × Call)} (horder : Throughout InOrder log)
    (hreads : Throughout ReadsStored log) : Throughout SetToDelivered log := by
  rintro before ⟨_, e⟩ after hlog tvSec tvUsec rfl
  obtain ⟨handle, front, hget⟩ := horder before _ after hlog
  obtain ⟨pre, ⟨_, e⟩, rfl⟩ : ∃ pre last, before = pre ++ [last] := by
    rcases List.eq_nil_or_concat before with rfl | ⟨pre, last, rfl⟩
    · simp at hget
    · exact ⟨pre, last, List.concat_eq_append⟩
  rw [List.map_append, List.map_singleton] at hget
  obtain ⟨rfl, he⟩ := List.append_inj' hget rfl
  obtain rfl : .nvsGetI64 handle .ok tvSec = e := List.head_eq_of_cons_eq he
  rw [List.append_assoc] at hlog
  obtain ⟨earlier, stored, ret, later, hcalls, hlast⟩ := hreads pre _ _ hlog handle tvSec rfl
  obtain ⟨early, more, rfl, rfl, hmore⟩ := List.map_eq_append_iff.mp hcalls
  obtain ⟨⟨_, c⟩, rest, rfl, rfl, rfl⟩ := List.map_eq_cons_iff.mp hmore
  rw [List.append_assoc, List.cons_append] at hlog
  obtain ⟨client, first, hdelivery⟩ := horder early _ _ hlog
  refine ⟨first, client, stored, ret, rest.map Prod.snd ++ [.nvsGetI64 handle .ok tvSec], ?_,
    not_committed_snoc hlast nofun⟩
  rw [hdelivery]
  simp

/-- In the whole life of a device, over boots that a reset may end behind any call, a time
is stored only right behind its delivery by SNTP, the clock is set from the storage
only right behind the reading of that time, and behind a power-on the requests start
only with a clock that was set since. If the storage delivers only values that were
set and not replaced by a committed one, then every time that the clock is set to was
delivered by SNTP, and no other one was stored and committed since. -/
theorem clock_in_order (boots : List (BootAnswers × ℕ)) :
    Throughout InOrder (lifetime boots .blank).log ∧
      (Throughout ReadsStored (lifetime boots .blank).log →
        Throughout SetToDelivered (lifetime boots .blank).log) := by
  have hkept : Kept (lifetime boots .blank) := lifetime_kept boots (throughout_nil _)
  exact ⟨hkept, setToDelivered_of_stored hkept⟩

/-- A power-on with a time in the storage. -/
def storedBoot : BootAnswers where
  powerOn := true
  update := ⟨.ok, .ok, 1700000000, 7, ⟨false, [], 0, .ok, .ok, .ok⟩⟩
  ticks := []

/-- The calls of both boots up to the reading, with a reset right behind the commit. -/
def untilReading : List Call := [.espResetReason true, .nvsOpen (some 0),
  .nvsGetI64 0 .nvsNotFound 0, .sntpInit (some 1), .sntpSyncWait (some 1) .fail,
  .sntpSyncWait (some 1) .ok, .time 1700000000, .nvsOpen (some 2),
  .nvsSetI64 2 1700000000 .ok, .nvsCommit 2 .ok, .espResetReason true, .nvsOpen (some 4)]

theorem stored_until_reading : Stored 1700000000 untilReading := by
  refine ⟨untilReading.take 8, 2, .ok, untilReading.drop 9, rfl, ?_⟩
  rintro ⟨handle, value, hsub⟩
  simpa [untilReading] using hsub.subset List.mem_cons_self

theorem clock_set_from_storage :
    ∃ before after, (lifetime [(syncedBoot, 10), (storedBoot, 6)] .blank).log =
        before ++ ((), .settimeofday 1700000000 7) :: after ∧
      SetToDelivered before ((), .settimeofday 1700000000 7) := by
  have hlog : (lifetime [(syncedBoot, 10), (storedBoot, 6)] .blank).log =
      (tag () untilReading ++ [((), .nvsGetI64 4 .ok 1700000000)]) ++
        tag () [.settimeofday 1700000000 7, .nvsClose 4, .xTaskCreate] := rfl
  have hreads :
      Throughout ReadsStored (lifetime [(syncedBoot, 10), (storedBoot, 6)] .blank).log := by
    rw [hlog, throughout_append_tag (by simp [ReadsStored]), throughout_snoc,
      ← List.nil_append (tag () _),
      throughout_append_tag (by simp [ReadsStored, untilReading])]
    refine ⟨throughout_nil _, ?_⟩
    rintro handle value ⟨⟩
    exact stored_until_reading
  have hset := (clock_in_order [(syncedBoot, 10), (storedBoot, 6)]).2 hreads
  exact ⟨_, _, hlog, hset _ _ _ hlog⟩

end EspWolfssl.ClockHistory
