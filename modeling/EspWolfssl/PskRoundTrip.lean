import EspWolfssl.LockSimulation
import EspWolfssl.PskStatics

/-!
What a client stores for the callback is what the callback hands out. A branch
that refuses its credentials leaves the statics alone; one that stores them is
answered with exactly these by every callback until another client stores.
-/
namespace EspWolfssl.PskRoundTrip

open ByteRegions MutexOwnership TaggedLogs Platform ProgramLogic BackendState PskClient
  HandleCreation BackendSteps OperationFrames CreationOutcomes CreationFootprints StepEffects
  LockSimulation PskStatics GuardedRuns

variable {b : Build}

/-- A key or a hint is missing, the key is empty, or one of them is too long. -/
def Unusable (b : Build) (psk : PskHintKey) : Prop :=
  psk.key = none ∨ psk.hint = none ∨ psk.keySize = 0 ∨ pskMaxKeyLen < psk.keySize ∨
    ∃ hint, psk.hint = some hint ∧ b.pskMaxIdLen ≤ hint.length

/-- The operation opens a client that stores its credentials in the statics. -/
def Stores (w : World b) (op : Op) : Prop :=
  ∃ o psk, kind op = .opening o ∧ o.reached b = some psk ∧ w.tlsConnLock = .free ∧
    ¬ Unusable b psk

/-- Usable credentials are complete and fit the statics. -/
theorem credentials_of_usable {psk : PskHintKey} (husable : ¬ Unusable b psk) :
    ∃ hint key, psk.hint = some hint ∧ psk.key = some key ∧ psk.keySize = key.length ∧
      credentials psk = some (hint, key) ∧ CredentialsFit b hint key := by
  simp only [Unusable, not_or, not_lt, not_exists, not_and, not_le] at husable
  obtain ⟨hkey, hhint, hzero, hlong, hfit⟩ := husable
  obtain ⟨key, hkey⟩ := Option.ne_none_iff_exists'.mp hkey
  obtain ⟨hint, hhint⟩ := Option.ne_none_iff_exists'.mp hhint
  have hsize : psk.keySize = key.length := (psk.key_length key hkey).symm
  have hne : key ≠ [] := by
    rintro rfl
    exact hzero hsize
  refine ⟨hint, key, hhint, hkey, hsize, ?_, ?_, hfit hint hhint⟩
  · exact credentials_eq_some_iff.mpr ⟨hkey, hhint, hsize, hne⟩
  · rw [← hsize]
    exact hlong

theorem usable_of_credentials {psk : PskHintKey} {hint : CString} {key : List UInt8}
    (hcred : credentials psk = some (hint, key)) (hfit : CredentialsFit b hint key) :
    ¬ Unusable b psk := by
  obtain ⟨hkey, hhint, hsize, hne⟩ := credentials_eq_some_iff.mp hcred
  have hlen : key.length ≤ pskMaxKeyLen := hfit.1
  rintro (hnone | hnone | hzero | hlong | ⟨hint', hhint', hlong⟩)
  · rw [hkey] at hnone
    cases hnone
  · rw [hhint] at hnone
    cases hnone
  · rw [hsize] at hzero
    exact hne (List.length_eq_zero_iff.mp hzero)
  · omega
  · rw [hhint] at hhint'
    cases hhint'
    exact absurd hfit.2 (by omega)

theorem unusable_footprint {h : Handle} {psk : PskHintKey} {w w' : World b}
    (hunusable : Unusable b psk) (hw : Footprint h (some psk) w w') : SameStore w w' := by
  cases hw with
  | quiet _ work => exact .of_extends work
  | @refused _ _ _ w₁ _ _ _ _ before after =>
    exact ((SameStore.of_extends before).trans (.holding h w₁)).trans (.of_extends after)
  | stored hreached hcred _ hfit =>
    obtain rfl := Option.some.inj hreached
    exact absurd hunusable (usable_of_credentials hcred hfit)

/-- Usable credentials are stored by a branch that gets the lock. -/
theorem usable_footprint {h : Handle} {psk : PskHintKey} {hint : CString} {key : List UInt8}
    {w w' : World b} (hcred : credentials psk = some (hint, key))
    (hfit : CredentialsFit b hint key) (hlock : w.tlsConnLock = .free)
    (hw : Footprint h (some psk) w w') : Holds w' hint key := by
  cases hw with
  | quiet htakes _ => simp [takesLock, pskTakes, hcred, hlock] at htakes
  | refused hreached hcred' _ hfit' =>
    obtain rfl := Option.some.inj hreached
    rw [hcred] at hcred'
    cases hcred'
    exact absurd hfit hfit'
  | @stored _ _ _ w₁ hreached hcred' _ hfit' _ after =>
    obtain rfl := Option.some.inj hreached
    rw [hcred] at hcred'
    cases hcred'
    exact (installed_holds h hcred hfit' w₁).2.congr (SameStore.of_extends after).2

/-- A step that does not open a storing client leaves the statics alone. -/
theorem step_pskStatics {w w' : World b} {op : Op} (hop : ¬ Stores w op)
    (hstep : step w op = some w') : pskStatics w' = pskStatics w := by
  have heffect := step_effect hstep
  generalize hk : kind op = k at heffect
  cases heffect with
  | @opening o ok w₁ w₂ print hend hw' =>
    subst hw'
    have hfirst : SameStore w w₁ := by
      cases hreached : o.reached b with
      | none =>
        rw [hreached] at print
        exact .of_extends print.extends_of_none
      | some psk =>
        rw [hreached] at print
        by_cases hlock : w.tlsConnLock = .free
        · have hunusable : Unusable b psk := by
            by_contra husable
            exact hop ⟨o, psk, hk, hreached, hlock, husable⟩
          exact unusable_footprint hunusable print
        · cases print with
          | quiet _ work => exact .of_extends work
          | refused _ _ hfree => exact absurd hfree hlock
          | stored _ _ hfree => exact absurd hfree hlock
    exact ((hfirst.trans (concluded_store hend)).trans (.record rfl _ _)).2
  | @deletion h hw' =>
    subst hw'
    exact ((SameStore.cleanup h w).trans (.record rfl h _)).2
  | @callback h identity key idMaxLen keyMaxLen ans w₁ _ hrun hw' =>
    subst hw'
    rcases espWolfsslPskClientCb_cases hrun with ⟨_, _, rfl⟩ | ⟨_, _, rfl, _⟩
    · rfl
    · rfl
  | transfer work _ => exact (SameStore.of_extends work).2
  | store hw' =>
    subst hw'
    rfl

/-- What later callbacks find of usable credentials: the statics, and the lock. -/
structure Kept (hint : CString) (key : List UInt8) (w : World b) : Prop where
  holds : Holds w hint key
  lock_ne_null : w.tlsConnLock ≠ .null

theorem step_kept (hpsk : b.pskVerification = true) {hint : CString} {key : List UInt8}
    {w w' : World b} {op : Op} (hw : Kept hint key w) (hop : ¬ Stores w op)
    (hstep : step w op = some w') : Kept hint key w' where
  holds := hw.holds.congr (step_pskStatics hop hstep)
  lock_ne_null := effect_lock_ne_null hpsk hw.lock_ne_null (step_effect hstep)

section Callback
variable {hint : CString} {key : List UInt8} {w : World b} {identity keyBuf : List UInt8}
  {idMaxLen keyMaxLen : UInt32}

theorem callback_of_room (hw : Kept hint key w) (x : Handle)
    (hid : idMaxLen.toNat ≤ identity.length) (hkeyBuf : keyMaxLen.toNat ≤ keyBuf.length)
    (hroom : ¬ (idMaxLen.toNat ≤ hint.length ∨ keyMaxLen.toNat < key.length)) :
    espWolfsslPskClientCb x identity idMaxLen keyBuf keyMaxLen w =
      (.ok ⟨UInt32.ofNat key.length, hint.bytes ++ identity.drop (hint.length + 1),
        key ++ keyBuf.drop key.length⟩, giveConnLock x w) := by
  have hlen := hw.holds.keyMaxLen_toNat
  have hret : w.pskKeyMaxLen.toUInt32 = UInt32.ofNat key.length := by
    rw [← hlen]
    exact (UInt32.ofNat_uInt8ToNat _).symm
  have hidRoom : hint.length + 1 ≤ identity.length := by omega
  have hkeyRoom : key.length ≤ keyBuf.length := by omega
  have hidSrc : hint.length + 1 ≤ w.pskIdStr.bytes.length := by
    rw [w.pskIdStr.length_eq]
    exact hw.holds.fit.2
  have hkeySrc : key.length ≤ w.pskKeyArray.bytes.length := by
    rw [w.pskKeyArray.length_eq]
    exact hw.holds.fit.1
  unfold espWolfsslPskClientCb
  simp only [hw.holds.strlen_eq, hlen]
  rw [if_neg hroom, memcpy_of_fit hidRoom hidSrc, memcpy_of_fit hkeyRoom hkeySrc]
  simp only [hw.lock_ne_null, if_false, hw.holds.idStr_take, hw.holds.keyArray_take, hret]

theorem callback_of_small (hw : Kept hint key w) (x : Handle)
    (hsmall : idMaxLen.toNat ≤ hint.length ∨ keyMaxLen.toNat < key.length) :
    espWolfsslPskClientCb x identity idMaxLen keyBuf keyMaxLen w =
      (.ok ⟨0, identity, keyBuf⟩, w) := by
  unfold espWolfsslPskClientCb
  simp only [hw.holds.strlen_eq, hw.holds.keyMaxLen_toNat]
  rw [if_pos hsmall]

/-- The key is not empty, so an answer is never mistaken for a refusal. -/
theorem answer_ne_zero (hw : Kept hint key w) : UInt32.ofNat key.length ≠ 0 := by
  intro hzero
  have hfit : key.length ≤ 64 := hw.holds.fit.1
  have hshort : key.length < 2 ^ 32 := by omega
  have hnil := congrArg UInt32.toNat hzero
  rw [UInt32.toNat_ofNat_of_lt' hshort] at hnil
  exact hw.holds.key_ne (List.length_eq_zero_iff.mp hnil)

theorem callback_refuses_iff (hw : Kept hint key w) (x : Handle)
    (hid : idMaxLen.toNat ≤ identity.length) (hkeyBuf : keyMaxLen.toNat ≤ keyBuf.length) :
    espWolfsslPskClientCb x identity idMaxLen keyBuf keyMaxLen w =
        (.ok ⟨0, identity, keyBuf⟩, w) ↔
      idMaxLen.toNat ≤ hint.length ∨ keyMaxLen.toNat < key.length := by
  refine ⟨?_, callback_of_small hw x⟩
  intro hrefused
  by_contra hroom
  rw [callback_of_room hw x hid hkeyBuf hroom] at hrefused
  simp only [Prod.mk.injEq, Except.ok.injEq, PskAnswer.mk.injEq] at hrefused
  exact answer_ne_zero hw hrefused.1.1

end Callback

section Creation
variable {h : Handle} {hostname : List UInt8} {cfg : ClientCfg} {ans : CreateAnswers}
  {psk : PskHintKey} {w w₁ : World b} {e : EspErr}

/-- What follows the branch, a cleanup included, stores nothing. -/
theorem created_footprint (hrole : (w.tls h).role = .client)
    (hreached : pskReached b .client (.client cfg) ans = some psk)
    (hrun : espWolfsslCreateSslHandle h hostname (.client cfg) ans w = (.ok e, w₁)) :
    ∃ w₀, Footprint h (some psk) w w₀ ∧ SameStore w₀ w₁ ∧
      (e = .ok → pskAccepted b psk w.tlsConnLock ans.setCipherList = true) := by
  obtain ⟨w₀, hprint, hend⟩ := createSslHandle_cases hrun
  rw [hrole] at hprint hend
  rw [hreached] at hprint
  refine ⟨w₀, hprint, ?_⟩
  rcases hend with ⟨_, haccept, rfl, _⟩ | ⟨hrefused, _, rfl⟩
  · exact ⟨⟨rfl, rfl⟩, fun _ => pskAccepted_of_reached hreached haccept⟩
  · refine ⟨SameStore.cleanup h w₀, ?_⟩
    rintro rfl
    exact absurd rfl hrefused.1

theorem refused_of_unusable (hrole : (w.tls h).role = .client)
    (hreached : pskReached b .client (.client cfg) ans = some psk)
    (hrun : espWolfsslCreateSslHandle h hostname (.client cfg) ans w = (.ok e, w₁))
    (hunusable : Unusable b psk) : e ≠ .ok ∧ pskStatics w₁ = pskStatics w := by
  obtain ⟨w₀, hprint, hrest, haccepted⟩ := created_footprint hrole hreached hrun
  refine ⟨?_, ((unusable_footprint hunusable hprint).trans hrest).2⟩
  intro hok
  have haccepted := haccepted hok
  unfold pskAccepted at haccepted
  split at haccepted
  · cases haccepted
  · rename_i hint key hcred
    simp only [Bool.and_eq_true, decide_eq_true_eq] at haccepted
    exact usable_of_credentials hcred haccepted.1.2 hunusable

theorem stored_of_usable (hrole : (w.tls h).role = .client)
    (hreached : pskReached b .client (.client cfg) ans = some psk)
    (hlock : w.tlsConnLock = .free)
    (hrun : espWolfsslCreateSslHandle h hostname (.client cfg) ans w = (.ok e, w₁))
    {hint : CString} {key : List UInt8} (hcred : credentials psk = some (hint, key))
    (hfit : CredentialsFit b hint key) : Holds w₁ hint key := by
  obtain ⟨w₀, hprint, hrest, _⟩ := created_footprint hrole hreached hrun
  exact (usable_footprint hcred hfit hlock hprint).congr hrest.2

end Creation

/-- A creation whose branch gets the lock refuses unusable credentials and leaves
the statics alone. It stores usable ones, with the NUL of the hint and the whole
length of the key, and until another client stores, callbacks refuse exactly the
buffers that are too small and hand out exactly these credentials to the others. -/
theorem psk_round_trip {h : Handle} {sockfd : Int32} {hostname : List UInt8}
    {cfg : ClientCfg} {ans : CreateAnswers} {psk : PskHintKey} {w w₁ : World b} {e : EspErr}
    (hreached : pskReached b .client (.client cfg) ans = some psk)
    (hlock : w.tlsConnLock = .free)
    (hrun : espWolfsslCreateSslHandle h hostname (.client cfg) ans
      (w.setEndpoint h .client sockfd) = (.ok e, w₁)) :
    (Unusable b psk → e ≠ .ok ∧ pskStatics w₁ = pskStatics w) ∧
      (¬ Unusable b psk → ∃ hint key, psk.hint = some hint ∧ psk.key = some key ∧
        strlen w₁.pskIdStr.bytes = some hint.length ∧ w₁.pskKeyMaxLen.toNat = psk.keySize ∧
        ∀ ops w₂, Run step (fun v op => ¬ Stores v op)
            (w₁.record h (.opened (.client cfg) (e == .ok))) ops w₂ →
          ∀ (x : Handle) (identity keyBuf : List UInt8) (idMaxLen keyMaxLen : UInt32),
            idMaxLen.toNat ≤ identity.length → keyMaxLen.toNat ≤ keyBuf.length →
            (espWolfsslPskClientCb x identity idMaxLen keyBuf keyMaxLen w₂ =
                (.ok ⟨0, identity, keyBuf⟩, w₂) ↔
              idMaxLen.toNat ≤ hint.length ∨ keyMaxLen.toNat < psk.keySize) ∧
            (¬ (idMaxLen.toNat ≤ hint.length ∨ keyMaxLen.toNat < psk.keySize) →
              espWolfsslPskClientCb x identity idMaxLen keyBuf keyMaxLen w₂ =
                (.ok ⟨UInt32.ofNat psk.keySize,
                  hint.bytes ++ identity.drop (hint.length + 1),
                  key ++ keyBuf.drop psk.keySize⟩, giveConnLock x w₂))) := by
  have hpsk : b.pskVerification = true := pskVerification_of_reached hreached
  have hrole := w.setEndpoint_role h .client sockfd
  have hlock₀ : (w.setEndpoint h .client sockfd).tlsConnLock = .free := hlock
  constructor
  · intro hunusable
    obtain ⟨hfail, hsame⟩ := refused_of_unusable hrole hreached hrun hunusable
    exact ⟨hfail, hsame⟩
  · intro husable
    obtain ⟨hint, key, hhint, hkey, hsize, hcred, hfit⟩ := credentials_of_usable husable
    have hholds := stored_of_usable hrole hreached hlock₀ hrun hcred hfit
    have hcreated : (w₁.record h (.opened (.client cfg) (e == .ok))).tlsConnLock ≠ .null :=
      effect_lock_ne_null hpsk (by simp [hlock]) (createSslHandle_effect hrun)
    rw [hsize]
    refine ⟨hint, key, hhint, hkey, hholds.strlen_eq, hholds.keyMaxLen_toNat, ?_⟩
    intro ops w₂ hlater x identity keyBuf idMaxLen keyMaxLen hid hkeyBuf
    have hkept : Kept hint key w₂ := hlater.invariant (I := Kept hint key)
      ⟨hholds.congr rfl, hcreated⟩ fun _ _ _ hw hop hstep => step_kept hpsk hw hop hstep
    exact ⟨callback_refuses_iff hkept x hid hkeyBuf, callback_of_room hkept x hid hkeyBuf⟩

/-- The hint "a" and the key 7, stored, and asked for in buffers that just fit. -/
theorem psk_round_trip_of_opened_client :
    ∃ w₁ : World exampleBuild,
      strlen w₁.pskIdStr.bytes = some hintA.length ∧
        espWolfsslPskClientCb 0 [1, 2] 2 [3] 1
            (w₁.record 0 (.opened (.client (pskClient hintA 7)) true)) =
          (.ok ⟨1, [97, 0], [7]⟩,
            giveConnLock 0 (w₁.record 0 (.opened (.client (pskClient hintA 7)) true))) := by
  have hopen : ∃ w₁ : World exampleBuild,
      espWolfsslCreateSslHandle 0 [] (.client (pskClient hintA 7)) allSucceed
        ((World.boot exampleBuild true).setEndpoint 0 .client 3) = (.ok .ok, w₁) := ⟨_, rfl⟩
  obtain ⟨w₁, hrun⟩ := hopen
  have husable : ¬ Unusable exampleBuild ⟨some [7], 1, some hintA, by simp⟩ :=
    @usable_of_credentials _ _ hintA [7] rfl (by decide)
  obtain ⟨hint, key, hhint, hkey, hnul, _, hlater⟩ := (psk_round_trip rfl rfl hrun).2 husable
  cases hhint
  cases hkey
  obtain ⟨_, hwrites⟩ := hlater [] _ (Run.nil _) 0 [1, 2] [3] 2 1 (by simp) (by simp)
  exact ⟨w₁, hnul, hwrites (by decide)⟩

end EspWolfssl.PskRoundTrip
