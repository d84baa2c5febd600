import EspWolfssl.CertificateRegions
import EspWolfssl.StoreRefinement

/-!
A client that takes its authority from the global store is set up exactly as
one that is given the stored buffer, call by call; without a stored buffer it
is refused before anything is loaded.
-/
namespace EspWolfssl.StoreAgreement

open ByteRegions MutexOwnership TaggedLogs Platform ProgramLogic BackendState PemSearch
  CertificateLoading HandleCreation GlobalStore BackendSteps OperationFrames CreationOutcomes
  CreationFootprints CertificateRegions StoreRefinement GuardedRuns

variable {b : Build}

/-- The client takes its authority from the global store. -/
def viaStore (cfg : ClientCfg) : ClientCfg := { cfg with useGlobalCaStore := true }

def viaBuffer (cfg : ClientCfg) (buf : Buffer) : ClientCfg :=
  { cfg with useGlobalCaStore := false, cacertBuf := some buf }

/-- A load of a certificate of an authority. -/
def caLoad : Event → Option (List UInt8)
  | .loadVerifyBuffer _ _ bytes _ _ _ => some bytes
  | _ => none

/-- The stored block starts with the buffer's certificate. -/
theorem sameCert_stored {buf : Buffer} (hsmall : buf.bytes.length ≤ 2 ^ 31 - 1) :
    SameCert (buf.bytes ++ [0]) buf.bytes buf.len := by
  have hlen := buf.len_toNat
  refine ⟨?_, ?_, ?_, ?_⟩
  · simp only [hlen, List.length_append]
    omega
  · omega
  · rw [hlen]
    simp
  · omega

section Agreement
variable {cfg : ClientCfg} {buf : Buffer} (h : Handle) (hostname : List UInt8)
  (ans : CreateAnswers) {w : World b}

theorem clientVerification_agrees (hstore : storeOf w = encode (some buf))
    (hsmall : buf.bytes.length ≤ 2 ^ 31 - 1) :
    clientVerification h (viaStore cfg) ans w =
      clientVerification h (viaBuffer cfg buf) ans w := by
  have hblock : w.globalCacert = some (buf.bytes ++ [0]) := congrArg Prod.fst hstore
  have hbytes : w.globalCacertPemBytes = buf.len := congrArg Prod.snd hstore
  have hload : (loadOrExit h (buf.bytes ++ [0]) buf.len .caCert ans.loadCa : Backend b Unit) =
      loadOrExit h buf.bytes buf.len .caCert ans.loadCa :=
    (sameCert_stored hsmall).loadOrExit_eq h ans.loadCa
  simp only [clientVerification, viaStore, viaBuffer, ↓reduceIte, Bool.false_eq_true,
    Prog.bind_apply, Prog.read_apply, hblock, hbytes, hload]

/-- What follows the verification does not ask where the authority came from. -/
theorem clientFinish_agrees :
    (clientFinish h hostname (viaStore cfg) ans : Backend b Unit) =
      clientFinish h hostname (viaBuffer cfg buf) ans := rfl

theorem setClientConfig_agrees (hstore : storeOf w = encode (some buf))
    (hsmall : buf.bytes.length ≤ 2 ^ 31 - 1) :
    setClientConfig h hostname (viaStore cfg) ans w =
      setClientConfig h hostname (viaBuffer cfg buf) ans w := by
  rw [setClientConfig_eq, setClientConfig_eq]
  refine Prog.bind_congr_on rfl fun _ w₁ hctx => Prog.bind_congr_on rfl fun _ w₂ hstop => ?_
  obtain ⟨_, rfl⟩ := Prog.stopIf_ok_iff.mp hstop
  have hstore₁ : storeOf w₂ = encode (some buf) :=
    (extends_storeOf ((newCtx_quiet h ans.ctxNew).of_ok hctx)).trans hstore
  refine Prog.bind_congr_on (clientVerification_agrees h ans hstore₁ hsmall) fun _ w₃ _ => ?_
  rw [clientFinish_agrees]

theorem createBody_agrees (hstore : storeOf w = encode (some buf))
    (hsmall : buf.bytes.length ≤ 2 ^ 31 - 1) :
    createBody h hostname (.client (viaStore cfg)) ans w =
      createBody h hostname (.client (viaBuffer cfg buf)) ans w := by
  by_cases hinit : ans.wolfsslInit = wolfsslSuccess
  · rw [createBody_init hinit, createBody_init hinit]
    cases (w.tls h).role with
    | client =>
      have hstore₁ : storeOf (w.record h (.wolfsslInit ans.wolfsslInit)) = encode (some buf) :=
        hstore
      exact setClientConfig_agrees h hostname ans hstore₁ hsmall
    | server => rfl
    | invalid => rfl
  · rw [createBody_noInit hinit, createBody_noInit hinit]

/-- The same calls in the same order, and the same result. -/
theorem createSslHandle_agrees (hstore : storeOf w = encode (some buf))
    (hsmall : buf.bytes.length ≤ 2 ^ 31 - 1) :
    espWolfsslCreateSslHandle h hostname (.client (viaStore cfg)) ans w =
      espWolfsslCreateSslHandle h hostname (.client (viaBuffer cfg buf)) ans w := by
  simp only [espWolfsslCreateSslHandle, createBody_agrees h hostname ans hstore hsmall]

end Agreement

theorem cleanup_caLoad (h : Handle) (w : World b) :
    view caLoad (espWolfsslCleanup h w).log = view caLoad w.log := by
  have hrelease : view caLoad (releaseConnLock h w).log = view caLoad w.log := by
    unfold releaseConnLock
    split
    · exact view_snoc_of_none caLoad h w.log rfl
    · rfl
  have hssl : ∀ w₁ : World b, view caLoad (freeSsl h w₁).log = view caLoad w₁.log := by
    intro w₁
    unfold freeSsl
    split
    · rfl
    · exact (view_snoc_of_none caLoad h _ rfl).trans (view_snoc_of_none caLoad h w₁.log rfl)
  have hctx : ∀ w₁ : World b, view caLoad (freeCtx h w₁).log = view caLoad w₁.log := by
    intro w₁
    unfold freeCtx
    split
    · rfl
    · exact view_snoc_of_none caLoad h w₁.log rfl
  exact ((hctx _).trans (hssl _)).trans hrelease

theorem clientVerification_emptyStore (h : Handle) {cfg : ClientCfg} (ans : CreateAnswers)
    {w : World b} (hstore : storeOf w = encode none) (hcfg : cfg.useGlobalCaStore = true) :
    clientVerification h cfg ans w = (.error (.ret .invalidState), w) := by
  have hnone : w.globalCacert = none := congrArg Prod.fst hstore
  simp only [clientVerification, hcfg, ↓reduceIte, Prog.bind_apply, Prog.read_apply, hnone,
    Prog.stop_apply]

/-- With an empty store the client is refused for its state, once the context was
created and unless a bundle was asked for. -/
theorem createSslHandle_emptyStore (h : Handle) (hostname : List UInt8) {cfg : ClientCfg}
    {ans : CreateAnswers} {w : World b} (hstore : storeOf w = encode none)
    (hrole : (w.tls h).role = .client) (hcfg : cfg.useGlobalCaStore = true)
    (hbundle : cfg.crtBundleAttach = false) (hinit : ans.wolfsslInit = wolfsslSuccess)
    (hctx : ans.ctxNew = true) :
    ∃ w', espWolfsslCreateSslHandle h hostname (.client cfg) ans w = (.ok .invalidState, w') ∧
      view caLoad w'.log = view caLoad w.log := by
  have hbody : ∃ w₁, createBody h hostname (.client cfg) ans w =
      (.error (.ret .invalidState), w₁) ∧ view caLoad w₁.log = view caLoad w.log := by
    have hcreated : ∃ w₁, newCtx h true (w.record h (.wolfsslInit ans.wolfsslInit)) =
        (.ok (), w₁) ∧ storeOf w₁ = encode none ∧ view caLoad w₁.log = view caLoad w.log :=
      ⟨_, newCtx_true h _, hstore, (view_snoc_of_none caLoad h _ rfl).trans
        (view_snoc_of_none caLoad h w.log rfl)⟩
    obtain ⟨w₁, hcreated, hstore₁, hview⟩ := hcreated
    refine ⟨w₁, ?_, hview⟩
    rw [createBody_init hinit, hrole]
    simp only [setRoleConfig, setClientConfig_eq, hctx]
    rw [Prog.bind_of_ok hcreated, hbundle, Prog.stopIf_false,
      Prog.bind_of_ok (Prog.pure_apply () w₁),
      Prog.bind_of_error (clientVerification_emptyStore h ans hstore₁ hcfg)]
  obtain ⟨w₁, hbody, hview⟩ := hbody
  exact ⟨espWolfsslCleanup h w₁, by simp only [espWolfsslCreateSslHandle, hbody],
    (cleanup_caLoad h w₁).trans hview⟩

/-- In every run the store is empty or holds the latest buffer that was set; then a
client of the store is created exactly as one of that buffer. With an empty store
a client is refused without a load. -/
theorem global_store_agrees {lockCreated : Bool} {ops : List Op} {w : World b}
    (hrun : Run step SmallSets (World.boot b lockCreated) ops w) :
    (w.globalCacert = none ∧ w.globalCacertPemBytes = 0 ∨
      ∃ buf, latestSet ops = some buf ∧ w.globalCacert = some (buf.bytes ++ [0]) ∧
        w.globalCacertPemBytes = buf.len) ∧
    (∀ buf, latestSet ops = some buf → w.globalCacert ≠ none →
      ∀ (h : Handle) (sockfd : Int32) (hostname : List UInt8) (cfg : ClientCfg)
        (ans : CreateAnswers),
        espWolfsslCreateSslHandle h hostname (.client (viaStore cfg)) ans
            (w.setEndpoint h .client sockfd) =
          espWolfsslCreateSslHandle h hostname (.client (viaBuffer cfg buf)) ans
            (w.setEndpoint h .client sockfd)) ∧
    (w.globalCacert = none → ∀ (h : Handle) (sockfd : Int32) (hostname : List UInt8)
      (cfg : ClientCfg) (ans : CreateAnswers), cfg.useGlobalCaStore = true →
        cfg.crtBundleAttach = false → ans.wolfsslInit = wolfsslSuccess → ans.ctxNew = true →
          ∃ w', espWolfsslCreateSslHandle h hostname (.client cfg) ans
              (w.setEndpoint h .client sockfd) = (.ok .invalidState, w') ∧
            view caLoad w'.log = view caLoad w.log) := by
  have hstore := run_storeOf hrun
  cases hslot : ops.foldl storeMove none with
  | none =>
    rw [hslot] at hstore
    have hnone : w.globalCacert = none := congrArg Prod.fst hstore
    refine ⟨Or.inl ⟨hnone, congrArg Prod.snd hstore⟩, ?_, ?_⟩
    · intro _ _ hsome
      exact absurd hnone hsome
    · intro _ h sockfd hostname cfg ans hcfg hbundle hinit hctx
      exact createSslHandle_emptyStore h hostname hstore (w.setEndpoint_role h .client sockfd)
        hcfg hbundle hinit hctx
  | some buf =>
    have hlatest : latestSet ops = some buf := by
      rcases slot_latest ops with hempty | hlatest
      · rw [hslot] at hempty
        cases hempty
      · rw [← hlatest, hslot]
    rw [hslot] at hstore
    have hblock : w.globalCacert = some (buf.bytes ++ [0]) := congrArg Prod.fst hstore
    refine ⟨Or.inr ⟨buf, hlatest, hblock, congrArg Prod.snd hstore⟩, ?_, ?_⟩
    · intro buf' hlatest' _ h sockfd hostname cfg ans
      obtain rfl := Option.some.inj (hlatest.symm.trans hlatest')
      exact createSslHandle_agrees h hostname ans hstore (latestSet_small hrun hlatest)
    · intro hnone
      rw [hblock] at hnone
      cases hnone

/-- A PEM with a NUL at its end takes the place of a DER, and a client of the store loads
it without that NUL. -/
theorem global_store_agrees_of_set :
    ∃ w w' : World exampleBuild,
      Run step SmallSets (World.boot exampleBuild true)
        [.setGlobalCaStore (some derBuffer) true, .setGlobalCaStore (some pemBuffer) true] w ∧
      espWolfsslCreateSslHandle 0 [] (.client (viaStore plainClient)) allSucceed
        (w.setEndpoint 0 .client 3) = (.ok .ok, w') ∧
      espWolfsslCreateSslHandle 0 [] (.client (viaBuffer plainClient pemBuffer)) allSucceed
        (w.setEndpoint 0 .client 3) = (.ok .ok, w') ∧
      view caLoad w'.log = [(0, 0 :: headerCertificate.chars)] := by
  have hsmall : ∀ buf, buf = derBuffer ∨ buf = pemBuffer → ∀ w : World exampleBuild,
      SmallSets w (.setGlobalCaStore (some buf) true) := by
    rintro buf hbuf w _ malloc heq
    cases heq
    rcases hbuf with rfl | rfl <;> decide
  have hsets : ∃ w₁ w : World exampleBuild,
      step (World.boot exampleBuild true) (.setGlobalCaStore (some derBuffer) true) = some w₁ ∧
      step w₁ (.setGlobalCaStore (some pemBuffer) true) = some w ∧
      w.globalCacert = some (pemBuffer.bytes ++ [0]) := ⟨_, _, rfl, rfl, rfl⟩
  obtain ⟨w₁, w, hfirst, hsecond, hblock⟩ := hsets
  have hrun := (Run.single (hsmall _ (.inl rfl) _) hfirst).snoc (hsmall _ (.inr rfl) w₁) hsecond
  have hagree := (global_store_agrees hrun).2.1 pemBuffer rfl (by simp [hblock]) 0 3 []
    plainClient allSucceed
  have hcreated : ∃ w', espWolfsslCreateSslHandle 0 [] (.client (viaStore plainClient)) allSucceed
      (w.setEndpoint 0 .client 3) = (.ok .ok, w') ∧
      view caLoad w'.log = [(0, 0 :: headerCertificate.chars)] := by
    cases hfirst
    cases hsecond
    exact ⟨_, rfl, rfl⟩
  obtain ⟨w', hcreated, hloaded⟩ := hcreated
  exact ⟨w, w', hrun, hcreated, hagree.symm.trans hcreated, hloaded⟩

end EspWolfssl.StoreAgreement
