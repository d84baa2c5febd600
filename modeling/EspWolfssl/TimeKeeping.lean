import EspWolfssl.ScopedResources
import EspWolfssl.TimeSync

/-!
What the device holds while it keeps its clock. Every handle of the storage and the SNTP
client are closed by the function that opened them, whatever the calls answer and
whichever way it ends.
-/
namespace EspWolfssl.TimeKeeping

open ResourceLedger ScopedResources TaggedLogs ProgramLogic TimeSync

def device : Reader TimeState Call ObjectKind := ⟨(·.log), (·.nextObj), Call.action⟩

def heldSntp (client : Option ℕ) : List (Held ObjectKind) :=
  client.toList.map fun id => ⟨id, .sntp, none⟩

def heldNvs (handle : Option ℕ) : List (Held ObjectKind) :=
  handle.toList.map fun id => ⟨id, .nvs, none⟩

/-- The objects of the stack are held, and the SNTP client is `client`. -/
def Stands (stack : List (Held ObjectKind)) (client : Option ℕ) (s : TimeState) : Prop :=
  device.Holding stack s ∧ s.sntp = client

/-- A run that still waits for an answer. -/
def Waits (e : Stop) (s : TimeState) : Prop := e ≠ .abort ∧ ∃ held, device.Holding held s

/-- From the assertion `P` the program returns with the objects of the stack. -/
def Leaves {α : Type} (P : TimeState → Prop) (m : Sync α) (stack : List (Held ObjectKind))
    (client : Option ℕ) : Prop :=
  Prog.Triple P m (fun _ => Stands stack client) Waits

variable {α β : Type} {stack rest : List (Held ObjectKind)} {client : Option ℕ} {e : Call}

theorem Leaves.bind {P : TimeState → Prop} {m : Sync α} {f : α → Sync β}
    (hm : Leaves P m stack client) (hf : ∀ a, Leaves (Stands stack client) (f a) rest none) :
    Leaves P (m >>= f) rest none :=
  Prog.Triple.bind hm hf

theorem call_other (he : e.action = none) :
    Leaves (Stands stack client) (call e) stack client :=
  fun _ hs => ⟨hs.1.other he rfl rfl, hs.2⟩

theorem call_uses {ids : List ℕ} (he : e.action = some (.use ids))
    (hids : ∀ id ∈ ids, id ∈ stack.map Held.id) :
    Leaves (Stands stack client) (call e) stack client :=
  fun _ hs => ⟨hs.1.uses he hids rfl rfl, hs.2⟩

theorem pure_leaves (a : α) : Leaves (Stands stack client) (pure a) stack client := fun _ hs => hs

theorem initializeSntp_holding (succeeds : Bool) :
    Prog.Triple (Stands stack none) (initializeSntp succeeds)
      (fun _ s => ∃ client, Stands (heldSntp client ++ stack) client s) Waits := by
  rintro s ⟨hs, hnone⟩
  cases succeeds with
  | false => exact ⟨none, hs.other rfl rfl rfl, hnone⟩
  | true => exact ⟨some s.nextObj, hs.acquires rfl (by simp) rfl rfl, rfl⟩

theorem sntp_held : ∀ id ∈ client, id ∈ (heldSntp client ++ stack).map Held.id := by
  intro id hid
  rw [Option.mem_def] at hid
  simp [heldSntp, hid]

theorem espNetifSntpSyncWait_holding (hclient : ∀ id ∈ client, id ∈ stack.map Held.id)
    (ret : Err) : Leaves (Stands stack client) (espNetifSntpSyncWait ret) stack client := by
  refine Prog.Triple.read_bind fun sntp s hs => ?_
  have hsame : sntp = client := hs.2.symm.trans hs.1.2
  have huses : Leaves (Stands stack client) (call (.sntpSyncWait client ret)) stack client :=
    call_uses rfl fun id hid => hclient id (Option.mem_toList.mp hid)
  rw [hsame]
  exact huses s hs.1

theorem obtainTime_holding (hclient : ∀ id ∈ client, id ∈ stack.map Held.id) (retry : ℕ)
    (waits : List Err) : Leaves (Stands stack client) (obtainTime retry waits) stack client := by
  induction waits generalizing retry with
  | nil => exact fun s hs => ⟨nofun, stack, hs.1⟩
  | cons ret rest ih =>
    refine Prog.Triple.bind (espNetifSntpSyncWait_holding hclient ret) fun _ => ?_
    refine .ite (fun _ => pure_leaves _) fun _ => ?_
    exact .ite (fun _ => ih _) fun _ => pure_leaves _

theorem nvsOpen_holding (ret : Err) :
    Prog.Triple (Stands stack client) (nvsOpen ret)
      (fun handle => Stands (heldNvs handle ++ stack) client) Waits := by
  rintro s ⟨hs, hclient⟩
  unfold nvsOpen
  split
  · exact ⟨hs.acquires rfl (by simp) rfl rfl, hclient⟩
  · exact ⟨hs.other rfl rfl rfl, hclient⟩

theorem closeHandle_holding (handle : Option ℕ) :
    Leaves (Stands (heldNvs handle ++ stack) client) (closeHandle handle) stack client := by
  cases handle with
  | none => exact pure_leaves ()
  | some handle => exact fun _ hs => ⟨hs.1.frees rfl rfl rfl, hs.2⟩

theorem espNetifSntpDeinit_holding :
    Leaves (Stands (heldSntp client ++ stack) client) espNetifSntpDeinit stack none := by
  rintro s ⟨hs, hclient⟩
  have hrun : espNetifSntpDeinit s = (.ok (), { s with
      log := s.log ++ [((), .sntpDeinit client)]
      sntp := none }) := by
    simp only [espNetifSntpDeinit, Prog.bind_apply, Prog.read_apply, hclient, Prog.modify_apply,
      call]
  rw [hrun]
  cases client with
  | none => exact ⟨hs.other rfl rfl rfl, rfl⟩
  | some client => exact ⟨hs.frees rfl rfl rfl, rfl⟩

theorem exitFetch_holding (handle : Option ℕ) (err : Err) :
    Leaves (Stands (heldNvs handle ++ (heldSntp client ++ stack)) client) (exitFetch handle err)
      stack none :=
  (closeHandle_holding handle).bind fun _ =>
    espNetifSntpDeinit_holding.bind fun _ => pure_leaves err

theorem fetchAndStoreTimeInNvs_holding (ans : FetchAnswers) :
    Leaves (Stands stack none) (fetchAndStoreTimeInNvs ans) stack none := by
  refine Prog.Triple.bind (initializeSntp_holding _) fun _ s hs => ?_
  obtain ⟨client, hs⟩ := hs
  refine Leaves.bind (obtainTime_holding sntp_held 0 _) (fun ret => ?_) s hs
  refine .ite (fun _ => exitFetch_holding none _) fun _ => ?_
  refine (call_other rfl).bind fun _ => Prog.Triple.bind (nvsOpen_holding _) fun handle => ?_
  cases handle with
  | none => exact exitFetch_holding none _
  | some handle =>
    refine Leaves.bind (call_uses rfl (by simp [heldNvs])) fun _ => ?_
    refine .ite (fun _ => exitFetch_holding _ _) fun _ => ?_
    exact (call_uses rfl (by simp [heldNvs])).bind fun _ => exitFetch_holding _ _

theorem updateTimeFromNvs_holding (ans : UpdateAnswers) :
    Leaves (Stands stack none) (updateTimeFromNvs ans) stack none := by
  have hexit : ∀ handle err, Leaves (Stands (heldNvs handle ++ stack) none)
      (exitUpdate handle err) stack none :=
    fun handle err => (closeHandle_holding handle).bind fun _ => pure_leaves err
  refine Prog.Triple.bind (nvsOpen_holding _) fun handle => ?_
  cases handle with
  | none => exact hexit none _
  | some handle =>
    refine Leaves.bind (call_uses rfl (by simp [heldNvs])) fun _ => ?_
    refine .ite (fun _ => ?_) fun _ => .ite (fun _ => ?_) fun _ => hexit (some handle) _
    · exact (fetchAndStoreTimeInNvs_holding _).bind fun ret => hexit (some handle) _
    · exact (call_other rfl).bind fun _ => hexit (some handle) _

theorem timerTicks_holding (ticks : List FetchAnswers) :
    Leaves (Stands stack none) (timerTicks ticks) stack none := by
  induction ticks with
  | nil => exact pure_leaves ()
  | cons ans rest ih => exact (fetchAndStoreTimeInNvs_holding ans).bind fun _ => ih

/-- A boot that is aborted holds nothing, and one that waits may. -/
def Ends (e : Stop) (s : TimeState) : Prop :=
  (e = .abort → Stands [] none s) ∧ ∃ held, device.Holding held s

theorem ends_of_waits {e : Stop} {s : TimeState} (hs : Waits e s) : Ends e s :=
  ⟨fun habort => absurd habort hs.1, hs.2⟩

theorem updateAtPowerOn_holding (ans : BootAnswers) :
    Prog.Triple (Stands [] none) (updateAtPowerOn ans) (fun _ => Stands [] none) Ends := by
  have hreason : Leaves (Stands [] none) (call (.espResetReason ans.powerOn)) [] none :=
    call_other rfl
  refine Prog.Triple.bind (hreason.conseq (fun _ hs => hs) (fun _ _ hs => hs)
    fun _ _ => ends_of_waits) fun _ => .ite (fun _ => ?_) fun _ => .pure fun _ hs => hs
  refine Prog.Triple.bind ((updateTimeFromNvs_holding ans.update).conseq (fun _ hs => hs)
    (fun _ _ hs => hs) fun _ _ => ends_of_waits) fun err => ?_
  exact .stopIf (fun _ s hs => ⟨fun _ => hs, [], hs.1⟩) fun _ _ hs => hs

/-- Whatever the calls answer in a boot, the handles of the storage and the SNTP client
are used while they are open only, and closed at most once; a wait uses the client, if
its creation succeeded. A boot that does not wait any more, even one that was aborted,
has closed every handle and stopped the client. -/
theorem boot_leaves_nothing (ans : BootAnswers) {r : Except Stop Unit} {s : TimeState}
    (hrun : appMain ans .blank = (r, s)) :
    Ledger.empty.Safe (device.objectLog s) ∧
      (r ≠ .error .waiting → s.sntp = none ∧ ∀ id kind parent,
        Ledger.empty.replay (device.objectLog s) id ≠ .live kind () parent) := by
  have hbehind : Leaves (Stands [] none) (do
      call .xTaskCreate
      timerTicks ans.ticks) [] none :=
    (call_other rfl).bind fun _ => timerTicks_holding _
  have hboot : Prog.Triple (Stands [] none) (appMain ans) (fun _ => Stands [] none) Ends :=
    (updateAtPowerOn_holding ans).bind fun _ => hbehind.conseq (fun _ hs => hs)
      (fun _ _ hs => hs) fun _ _ => ends_of_waits
  have hnothing : ∀ s, Stands [] none s → s.sntp = none ∧ ∀ id kind parent,
      Ledger.empty.replay (device.objectLog s) id ≠ .live kind () parent :=
    fun s hs => ⟨hs.2, fun id kind parent => Holds.not_live hs.1 id kind () parent⟩
  have hend := hboot .blank ⟨Holds.nothing () _, rfl⟩
  rw [hrun] at hend
  cases r with
  | ok _ => exact ⟨hend.1.safe, fun _ => hnothing s hend⟩
  | error e =>
    obtain ⟨habort, held, hheld⟩ : Ends e s := hend
    refine ⟨hheld.safe, fun hwait => ?_⟩
    cases e with
    | waiting => exact absurd rfl hwait
    | abort => exact hnothing s (habort rfl)

/-- A power-on with an empty storage, an hour of a timer that fails to store its time, and
answers that come. -/
def syncedBoot : BootAnswers where
  powerOn := true
  update := ⟨.ok, .nvsNotFound, 0, 0, ⟨true, [.fail, .ok], 1700000000, .ok, .ok, .ok⟩⟩
  ticks := [⟨false, [.ok], 1700003600, .ok, .fail, .ok⟩]

theorem synced_boot_leaves_nothing :
    ∃ s, appMain syncedBoot .blank = (.ok (), s) ∧
      Ledger.empty.Safe (device.objectLog s) ∧ s.sntp = none := by
  have hrun : ∃ s, appMain syncedBoot .blank = (.ok (), s) := ⟨_, rfl⟩
  obtain ⟨s, hrun⟩ := hrun
  obtain ⟨hsafe, hclosed⟩ := boot_leaves_nothing syncedBoot hrun
  exact ⟨s, hrun, hsafe, (hclosed nofun).1⟩

end EspWolfssl.TimeKeeping
