import EspWolfssl.LoadOutcomes
import EspWolfssl.StepEffects
import Mathlib.Data.List.Induction

/-!
The global store as a slot. The slot holds the buffer of the last set that
succeeded, until a failed set or a free empties it; the pointer and the length
of the source encode the slot in every run.
-/
namespace EspWolfssl.StoreRefinement

open ByteRegions MutexOwnership Platform ProgramLogic BackendState PskClient HandleCreation
  GlobalStore BackendSteps OperationFrames CreationFootprints StepEffects GuardedRuns
  CertificateLoading LoadOutcomes

variable {b : Build}

/-- `global_cacert` and `global_cacert_pem_bytes`. -/
def storeOf (w : World b) : Option (List UInt8) × UInt32 :=
  (w.globalCacert, w.globalCacertPemBytes)

/-- The pointer and the length for the content of the slot. -/
def encode : Option Buffer → Option (List UInt8) × UInt32
  | none => (none, 0)
  | some buf => (some (buf.bytes ++ [0]), buf.len)

/-- What an operation does to the slot. -/
def storeMove (slot : Option Buffer) : Op → Option Buffer
  | .setGlobalCaStore (some buf) malloc => if malloc then some buf else none
  | .freeGlobalCaStore => none
  | _ => slot

/-- The buffer of a set that succeeds. -/
def setBy : Op → Option Buffer
  | .setGlobalCaStore (some buf) true => some buf
  | _ => none

/-- The buffer of the latest set that succeeded. -/
def latestSet (ops : List Op) : Option Buffer := (ops.filterMap setBy).getLast?

/-- The buffers that are stored have lengths below the largest `int`. -/
def SmallSets (_ : World b) (op : Op) : Prop :=
  ∀ buf malloc, op = .setGlobalCaStore (some buf) malloc → buf.bytes.length ≤ 2 ^ 31 - 1

theorem latestSet_snoc (ops : List Op) (op : Op) :
    latestSet (ops ++ [op]) = (setBy op).or (latestSet ops) := by
  unfold latestSet
  rw [List.filterMap_append, List.getLast?_append]
  cases hset : setBy op <;> simp [hset]

/-- The slot is empty or holds the latest buffer that was set. -/
theorem slot_latest (ops : List Op) :
    ops.foldl storeMove none = none ∨ ops.foldl storeMove none = latestSet ops := by
  induction ops using List.reverseRecOn with
  | nil => exact Or.inl rfl
  | append_singleton ops op ih =>
    rw [List.foldl_append, latestSet_snoc]
    simp only [List.foldl_cons, List.foldl_nil]
    cases op with
    | setGlobalCaStore cacertPemBuf malloc =>
      cases cacertPemBuf with
      | none => exact ih
      | some buf =>
        cases malloc with
        | false => exact Or.inl rfl
        | true => exact Or.inr rfl
    | freeGlobalCaStore => exact Or.inl rfl
    | _ => exact ih

theorem extends_storeOf {h : Handle} {w w' : World b} (hw : Extends h w w') :
    storeOf w' = storeOf w := by
  have hstatics := hw.statics
  simp only [statics, Statics.mk.injEq] at hstatics
  simp only [storeOf, hstatics]

theorem footprint_storeOf {h : Handle} {reached : Option PskHintKey} {w w' : World b}
    (hw : Footprint h reached w w') : storeOf w' = storeOf w := by
  cases hw with
  | quiet _ work => exact extends_storeOf work
  | @refused _ _ _ w₁ _ _ _ _ before after =>
    have hholding : storeOf (holding h w₁) = storeOf w₁ := rfl
    exact ((extends_storeOf after).trans hholding).trans (extends_storeOf before)
  | @stored _ hint key w₁ _ _ _ hfit before after =>
    have hinstalled : storeOf (installed h hint key hfit w₁) = storeOf w₁ := rfl
    exact ((extends_storeOf after).trans hinstalled).trans (extends_storeOf before)

theorem cleanup_storeOf (h : Handle) (w : World b) :
    storeOf (espWolfsslCleanup h w) = storeOf w := by
  have hrelease : storeOf (releaseConnLock h w) = storeOf w := by
    unfold releaseConnLock
    split
    · rfl
    · rfl
  exact (extends_storeOf (espWolfsslCleanup_extends h w)).trans hrelease

theorem concluded_storeOf {o : Opening} {ok : Bool} {w w₁ w₂ : World b}
    (hend : Concluded o w w₁ w₂ ok) : storeOf w₂ = storeOf w₁ := by
  cases hend with
  | accepted _ _ _ rest => exact extends_storeOf rest
  | rejected _ rest _ => exact (extends_storeOf rest).trans (cleanup_storeOf _ _)

theorem effect_storeOf {w w' : World b} {k : Kind} (heffect : Effect w w' k)
    (hk : k ≠ .store) : storeOf w' = storeOf w := by
  cases heffect with
  | opening print hend hw' =>
    subst hw'
    exact (concluded_storeOf hend).trans (footprint_storeOf print)
  | @deletion h hw' =>
    subst hw'
    exact cleanup_storeOf h w
  | callback _ hrun hw' =>
    subst hw'
    rcases espWolfsslPskClientCb_cases hrun with ⟨_, _, rfl⟩ | ⟨_, _, rfl, _⟩
    · rfl
    · rfl
  | transfer work _ => exact extends_storeOf work
  | store _ => exact absurd rfl hk

/-- The block of the store is the terminated copy of the buffer. -/
theorem storeBlock_toOption (buf : Buffer) :
    storeBlock buf = (terminatedCopy buf.bytes buf.len).toOption := by
  unfold storeBlock terminatedCopy
  rw [buf.len_toNat]
  cases memcpy (List.replicate (buf.len + 1).toNat 0) buf.bytes buf.bytes.length with
  | none => rfl
  | some block =>
    by_cases hroom : buf.bytes.length < block.length
    · simp only [hroom, if_true]
      rfl
    · simp only [hroom, if_false]
      rfl

/-- The block that is stored is the buffer with a NUL behind it. -/
theorem storeBlock_eq {buf : Buffer} (hfit : buf.bytes.length + 1 < 2 ^ 32) :
    storeBlock buf = some (buf.bytes ++ [0]) := by
  rw [storeBlock_toOption, copy_of_fit hfit]
  rfl

theorem storeBlock_wrap {buf : Buffer} (hwrap : ¬ buf.bytes.length + 1 < 2 ^ 32) :
    storeBlock buf = none := by
  rw [storeBlock_toOption, copy_of_wrap hwrap]
  rfl

theorem free_storeOf {slot : Option Buffer} {w : World b} (hw : storeOf w = encode slot) :
    storeOf (espWolfsslFreeGlobalCaStore w) = encode none := by
  unfold espWolfsslFreeGlobalCaStore
  cases slot with
  | none =>
    have hnone : w.globalCacert = none := congrArg Prod.fst hw
    simpa [hnone] using hw
  | some buf =>
    have hsome : w.globalCacert = some (buf.bytes ++ [0]) := congrArg Prod.fst hw
    simp [hsome, storeOf, encode]

theorem set_storeOf {slot : Option Buffer} {buf : Buffer} {malloc : Bool} {w w' : World b}
    {e : EspErr} (hw : storeOf w = encode slot)
    (hrun : espWolfsslSetGlobalCaStore (some buf) malloc w = (.ok e, w')) :
    storeOf w' = encode (if malloc then some buf else none) := by
  have hfree := free_storeOf hw
  cases malloc with
  | false =>
    cases hrun
    have hbytes : (espWolfsslFreeGlobalCaStore w).globalCacertPemBytes = 0 :=
      congrArg Prod.snd hfree
    simp [storeOf, encode, hbytes]
  | true =>
    by_cases hfit : buf.bytes.length + 1 < 2 ^ 32
    · simp only [espWolfsslSetGlobalCaStore, Prog.bind_apply, Prog.modify_apply, if_true,
        storeBlock_eq hfit, Prog.pure_apply, Prod.mk.injEq] at hrun
      obtain ⟨_, rfl⟩ := hrun
      rfl
    · simp only [espWolfsslSetGlobalCaStore, Prog.bind_apply, Prog.modify_apply, if_true,
        storeBlock_wrap hfit, Prog.stop_apply] at hrun
      cases hrun

/-- One step of the backend moves the slot. -/
theorem step_storeOf {slot : Option Buffer} {w w' : World b} {op : Op}
    (hw : storeOf w = encode slot) (hstep : step w op = some w') :
    storeOf w' = encode (storeMove slot op) := by
  have hother : kind op ≠ .store → storeOf w' = encode slot := fun hk =>
    (effect_storeOf (step_effect hstep) hk).trans hw
  cases op with
  | setGlobalCaStore cacertPemBuf malloc =>
    obtain ⟨e, w₁, hrun, rfl⟩ := returning_eq_some.mp hstep
    cases cacertPemBuf with
    | none =>
      cases hrun
      exact hw
    | some buf => exact set_storeOf hw hrun
  | freeGlobalCaStore =>
    cases hstep
    exact free_storeOf hw
  | initGlobalCaStore =>
    cases hstep
    exact hw
  | getGlobalCaStore =>
    cases hstep
    exact hw
  | createSslHandle h role sockfd hostname cfg ans => exact hother (by simp [kind])
  | serverSessionCreate h cfg sockfd ans accepts =>
    obtain ⟨_, _, hrun, hw'⟩ := returning_eq_some.mp hstep
    cases h with
    | none =>
      cases hrun
      cases cfg <;> exact hw' ▸ hw
    | some h =>
      cases cfg with
      | none =>
        cases hrun
        exact hw' ▸ hw
      | some cfg => exact hother (by simp [kind])
  | handshake h cfg ans flags => exact hother (by simp [kind])
  | read h datalen ans => exact hother (by simp [kind])
  | write h datalen ans => exact hother (by simp [kind])
  | connDelete h =>
    cases h with
    | none =>
      cases hstep
      exact hw
    | some h => exact hother (by simp [kind])
  | serverSessionDelete h =>
    cases h with
    | none =>
      cases hstep
      exact hw
    | some h => exact hother (by simp [kind])
  | pskClientCb h identity idMaxLen key keyMaxLen => exact hother (by simp [kind])

/-- The buffer that was set last is as short as the run allows. -/
theorem latestSet_small {s : World b} {ops : List Op} {w : World b} {buf : Buffer}
    (hrun : Run step SmallSets s ops w) (hlatest : latestSet ops = some buf) :
    buf.bytes.length ≤ 2 ^ 31 - 1 := by
  induction hrun with
  | nil => cases hlatest
  | @snoc w₁ _ _ op _ hsmall _ ih =>
    rw [latestSet_snoc] at hlatest
    cases hset : setBy op with
    | none =>
      rw [hset] at hlatest
      exact ih hlatest
    | some stored =>
      rw [hset] at hlatest
      obtain rfl := Option.some.inj hlatest
      unfold setBy at hset
      split at hset
      · cases hset
        exact hsmall _ _ rfl
      · cases hset

/-- In every run the store encodes the slot. -/
theorem run_storeOf {P : World b → Op → Prop} {lockCreated : Bool} {ops : List Op}
    {w : World b} (hrun : Run step P (World.boot b lockCreated) ops w) :
    storeOf w = encode (ops.foldl storeMove none) := by
  induction hrun with
  | nil => rfl
  | snoc _ _ hstep ih =>
    rw [List.foldl_append]
    exact step_storeOf ih hstep

end EspWolfssl.StoreRefinement
