import EspWolfssl.StoreAgreement

/-!
Sets of the global store that fail. A set without a buffer leaves the store as it
was. A set without memory leaves it empty: the old content is freed before the
new block is allocated, so the store is kept exactly when there was no content.
-/
namespace EspWolfssl.StoreReplacement

open TaggedLogs Platform ProgramLogic BackendState HandleCreation GlobalStore BackendSteps
  StoreRefinement StoreAgreement GuardedRuns

variable {b : Build}

/-- The store is the same, for get, for its clients and for all later operations. -/
structure StoreKept (w w' : World b) : Prop where
  contents : w'.globalCacert = w.globalCacert
  bytes : w'.globalCacertPemBytes = w.globalCacertPemBytes
  get : (espWolfsslGetGlobalCaStore w').1 = (espWolfsslGetGlobalCaStore w).1
  clients : ∀ (h : Handle) (sockfd : Int32) (hostname : List UInt8) (cfg : ClientCfg)
    (ans : CreateAnswers), cfg.useGlobalCaStore = true →
      espWolfsslCreateSslHandle h hostname (.client cfg) ans (w'.setEndpoint h .client sockfd) =
        espWolfsslCreateSslHandle h hostname (.client cfg) ans (w.setEndpoint h .client sockfd)
  later : ∀ (more : List Op) (w₁ : World b), Run step Free w' more w₁ ↔ Run step Free w more w₁

/-- The store holds nothing, and its clients are refused before any load. -/
structure StoreEmpty (w : World b) : Prop where
  contents : w.globalCacert = none
  bytes : w.globalCacertPemBytes = 0
  get : (espWolfsslGetGlobalCaStore w).1 = .ok none
  clients : ∀ (h : Handle) (sockfd : Int32) (hostname : List UInt8) (cfg : ClientCfg)
    (ans : CreateAnswers), cfg.useGlobalCaStore = true → cfg.crtBundleAttach = false →
      ans.wolfsslInit = wolfsslSuccess → ans.ctxNew = true →
        ∃ w', espWolfsslCreateSslHandle h hostname (.client cfg) ans
            (w.setEndpoint h .client sockfd) = (.ok .invalidState, w') ∧
          view caLoad w'.log = view caLoad w.log

theorem StoreKept.refl (w : World b) : StoreKept w w where
  contents := rfl
  bytes := rfl
  get := rfl
  clients _ _ _ _ _ _ := rfl
  later _ _ := Iff.rfl

theorem storeEmpty_of_encode {w : World b} (hstore : storeOf w = encode none) :
    StoreEmpty w where
  contents := congrArg Prod.fst hstore
  bytes := congrArg Prod.snd hstore
  get := by
    have hnone : w.globalCacert = none := congrArg Prod.fst hstore
    simp only [espWolfsslGetGlobalCaStore, Prog.read_apply, hnone]
  clients h sockfd hostname cfg ans hcfg hbundle hinit hctx := by
    have hrole := w.setEndpoint_role h .client sockfd
    exact createSslHandle_emptyStore h hostname hstore hrole hcfg hbundle hinit hctx

/-- How a set can fail: it returns before it touches the store, or it has freed
the store when the block is refused. -/
theorem setGlobalCaStore_failure {cacertPemBuf : Option Buffer} {malloc : Bool} {w w' : World b}
    {e : EspErr} (hset : espWolfsslSetGlobalCaStore cacertPemBuf malloc w = (.ok e, w'))
    (he : e ≠ .ok) :
    cacertPemBuf = none ∧ e = .invalidArg ∧ w' = w ∨
      cacertPemBuf ≠ none ∧ malloc = false ∧ e = .noMem ∧
        w' = { espWolfsslFreeGlobalCaStore w with globalCacert := none } := by
  cases cacertPemBuf with
  | none =>
    cases hset
    exact Or.inl ⟨rfl, rfl, rfl⟩
  | some buf =>
    cases malloc with
    | false =>
      cases hset
      exact Or.inr ⟨by simp, rfl, rfl, rfl⟩
    | true =>
      simp only [espWolfsslSetGlobalCaStore, Prog.bind_apply, Prog.modify_apply, if_true] at hset
      cases hblock : storeBlock buf with
      | none =>
        simp only [hblock, Prog.stop_apply] at hset
        cases hset
      | some block =>
        simp only [hblock] at hset
        cases hset
        exact absurd rfl he

theorem free_of_none {w : World b} (hnone : w.globalCacert = none) :
    { espWolfsslFreeGlobalCaStore w with globalCacert := none } = w := by
  have hfree : espWolfsslFreeGlobalCaStore w = w := by
    simp [espWolfsslFreeGlobalCaStore, hnone]
  rw [hfree, ← hnone]

/-- In every reachable state a set that fails either had no buffer and keeps the
store, or had no memory and leaves it empty, whatever it held before. -/
theorem failed_set_keeps_or_empties {lockCreated : Bool} {ops : List Op} {w w' : World b}
    (hrun : Runs lockCreated ops w) {cacertPemBuf : Option Buffer} {malloc : Bool} {e : EspErr}
    (hset : espWolfsslSetGlobalCaStore cacertPemBuf malloc w = (.ok e, w')) (he : e ≠ .ok) :
    cacertPemBuf = none ∧ e = .invalidArg ∧ StoreKept w w' ∨
      cacertPemBuf ≠ none ∧ malloc = false ∧ e = .noMem ∧ StoreEmpty w' ∧
        (StoreKept w w' ↔ w.globalCacert = none) := by
  rcases setGlobalCaStore_failure hset he with ⟨hbuf, herr, rfl⟩ | ⟨hbuf, hmalloc, herr, hw'⟩
  · exact Or.inl ⟨hbuf, herr, .refl _⟩
  · have hfree := free_storeOf (run_storeOf hrun)
    have hempty : StoreEmpty w' := by
      refine storeEmpty_of_encode ?_
      have hbytes : (espWolfsslFreeGlobalCaStore w).globalCacertPemBytes = 0 :=
        congrArg Prod.snd hfree
      rw [hw']
      simp only [storeOf, encode, hbytes]
    refine Or.inr ⟨hbuf, hmalloc, herr, hempty, ?_, ?_⟩
    · intro hkept
      rw [← hkept.contents, hempty.contents]
    · intro hnone
      rw [hw', free_of_none hnone]
      exact .refl w

theorem exists_stored : ∃ w : World exampleBuild,
    Runs true [.setGlobalCaStore (some derBuffer) true] w ∧ w.globalCacert = some [0x30, 0] := by
  have hstep : ∃ w : World exampleBuild, step (World.boot exampleBuild true)
      (.setGlobalCaStore (some derBuffer) true) = some w ∧ w.globalCacert = some [0x30, 0] :=
    ⟨_, rfl, rfl⟩
  obtain ⟨w, hstep, hblock⟩ := hstep
  exact ⟨w, Run.single trivial hstep, hblock⟩

/-- A set without memory empties the store that holds a certificate. -/
theorem failed_set_of_stored :
    ∃ w w' : World exampleBuild,
      espWolfsslSetGlobalCaStore (some derBuffer) false w = (.ok .noMem, w') ∧
      w.globalCacert = some [0x30, 0] ∧ StoreEmpty w' ∧ ¬ StoreKept w w' := by
  obtain ⟨w, hrun, hblock⟩ := exists_stored
  have hset : ∃ w', espWolfsslSetGlobalCaStore (some derBuffer) false w = (.ok .noMem, w') :=
    ⟨_, rfl⟩
  obtain ⟨w', hset⟩ := hset
  rcases failed_set_keeps_or_empties hrun hset (by decide) with
    ⟨_, herr, _⟩ | ⟨_, _, _, hempty, hkept⟩
  · cases herr
  · refine ⟨w, w', hset, hblock, hempty, ?_⟩
    rw [hkept, hblock]
    simp

/-- A set without memory loses the certificate that the store held. -/
theorem failed_set_keeps_fails :
    ¬ ∀ (b : Build) (lockCreated : Bool) (ops : List Op) (w w' : World b)
      (cacertPemBuf : Option Buffer) (malloc : Bool) (e : EspErr), Runs lockCreated ops w →
        espWolfsslSetGlobalCaStore cacertPemBuf malloc w = (.ok e, w') → e ≠ .ok →
          StoreKept w w' := by
  intro hatomic
  obtain ⟨w, hrun, hblock⟩ := exists_stored
  have hkept := hatomic exampleBuild true _ w _ (some derBuffer) false .noMem hrun rfl (by decide)
  have hlost := hkept.contents
  rw [hblock] at hlost
  cases hlost

end EspWolfssl.StoreReplacement
