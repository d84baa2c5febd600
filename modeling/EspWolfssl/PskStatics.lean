import EspWolfssl.StepEffects

/-!
The statics of pre-shared keys. They hold the credentials that were stored
last, whoever stored them, and whenever wolfSSL has the callback for a
connection, that connection was created with credentials and some were stored.
-/
namespace EspWolfssl.PskStatics

open ByteRegions MutexOwnership TaggedLogs Platform ProgramLogic BackendState PskClient
  HandleCreation BackendSteps OperationFrames CreationOutcomes CreationFootprints StepEffects
  GuardedRuns

variable {b : Build}

/-- The statics that the branch of the pre-shared key stores. -/
def pskStatics (w : World b) : CArray b.pskMaxIdLen × CArray pskMaxKeyLen × UInt8 :=
  (w.pskIdStr, w.pskKeyArray, w.pskKeyMaxLen)

/-- The statics hold the credentials of one client and nothing else. -/
structure Holds (w : World b) (hint : CString) (key : List UInt8) : Prop where
  fit : CredentialsFit b hint key
  key_ne : key ≠ []
  keyMaxLen : w.pskKeyMaxLen = UInt8.ofNat key.length
  keyArray : w.pskKeyArray = CArray.padded key fit.1
  idStr : w.pskIdStr = CArray.padded hint.chars (Nat.le_of_lt fit.2)

/-- What a callback hands to wolfSSL for some credentials: the length of the key,
the identity with its NUL, and the key. -/
structure Answers (hint : CString) (key : List UInt8) (len : UInt32)
    (identity keyOut : List UInt8) : Prop where
  len_eq : len.toNat = key.length
  identity_prefix : hint.bytes <+: identity
  key_prefix : key <+: keyOut

/-- An answer is one for at most one pair of credentials. -/
theorem Answers.unique {hint hint' : CString} {key key' : List UInt8} {len : UInt32}
    {identity keyOut : List UInt8} (h : Answers hint key len identity keyOut)
    (h' : Answers hint' key' len identity keyOut) : (hint, key) = (hint', key') := by
  have hhint : hint = hint' := CString.eq_of_prefix h.identity_prefix h'.identity_prefix
  have hlen : key.length = key'.length := h.len_eq.symm.trans h'.len_eq
  have hkey : key = key' := by
    calc
      key = keyOut.take key.length := List.prefix_iff_eq_take.mp h.key_prefix
      _ = keyOut.take key'.length := by rw [hlen]
      _ = key' := (List.prefix_iff_eq_take.mp h'.key_prefix).symm
  rw [hhint, hkey]

namespace Holds

variable {w w' : World b} {hint : CString} {key : List UInt8}

theorem congr (hw : Holds w hint key) (hsame : pskStatics w' = pskStatics w) :
    Holds w' hint key := by
  simp only [pskStatics, Prod.mk.injEq] at hsame
  obtain ⟨hid, hkey, hlen⟩ := hsame
  exact ⟨hw.fit, hw.key_ne, hlen ▸ hw.keyMaxLen, hkey ▸ hw.keyArray, hid ▸ hw.idStr⟩

theorem strlen_eq (hw : Holds w hint key) : strlen w.pskIdStr.bytes = some hint.length := by
  rw [hw.idStr]
  exact CArray.strlen_padded hint hw.fit.2

theorem keyMaxLen_toNat (hw : Holds w hint key) : w.pskKeyMaxLen.toNat = key.length := by
  rw [hw.keyMaxLen]
  exact PskClient.keyMaxLen_toNat hw.fit.1

theorem idStr_take (hw : Holds w hint key) :
    w.pskIdStr.bytes.take (hint.length + 1) = hint.bytes := by
  rw [hw.idStr]
  exact CArray.take_padded hint hw.fit.2

theorem keyArray_take (hw : Holds w hint key) : w.pskKeyArray.bytes.take key.length = key := by
  rw [hw.keyArray]
  simp [CArray.padded]

/-- What a callback writes while the statics hold credentials that fit. -/
theorem callback_writes (hw : Holds w hint key) {h : Handle} {identity keyBuf : List UInt8}
    {idMaxLen keyMaxLen : UInt32} {ans : PskAnswer}
    (hrun : espWolfsslPskClientCb h identity idMaxLen keyBuf keyMaxLen w = (.ok ans, w'))
    (hfits : callbackFits w idMaxLen keyMaxLen = true) :
    ans.len.toNat = key.length ∧
      ans.identity = hint.bytes ++ identity.drop (hint.length + 1) ∧
      ans.key = key ++ keyBuf.drop key.length := by
  rcases espWolfsslPskClientCb_cases hrun with ⟨hno, _⟩ | ⟨_, _, _, idLen, hlen, hret, hid, hkey⟩
  · rw [hfits] at hno
    cases hno
  · rw [hw.strlen_eq] at hlen
    obtain rfl := Option.some.inj hlen
    rw [hw.keyMaxLen_toNat] at hkey
    refine ⟨?_, ?_, ?_⟩
    · rw [hret, UInt8.toNat_toUInt32, hw.keyMaxLen_toNat]
    · rw [(memcpy_eq hid).2, hw.idStr_take]
    · rw [(memcpy_eq hkey).2, hw.keyArray_take]

theorem callback_answers (hw : Holds w hint key) {h : Handle} {identity keyBuf : List UInt8}
    {idMaxLen keyMaxLen : UInt32} {ans : PskAnswer}
    (hrun : espWolfsslPskClientCb h identity idMaxLen keyBuf keyMaxLen w = (.ok ans, w'))
    (hfits : callbackFits w idMaxLen keyMaxLen = true) :
    Answers hint key ans.len ans.identity ans.key := by
  obtain ⟨hlen, hid, hkey⟩ := hw.callback_writes hrun hfits
  refine ⟨hlen, ?_, ?_⟩
  · rw [hid]
    exact List.prefix_append _ _
  · rw [hkey]
    exact List.prefix_append _ _

end Holds

def storedBy : Event → Option (CString × List UInt8)
  | .pskStored hint key => some (hint, key)
  | _ => none

/-- The credentials stored last, by whichever connection. -/
def lastStored (log : List (Handle × Event)) : Option (CString × List UInt8) :=
  lastOf storedBy log

def openedWith : Event → Option Cfg
  | .opened cfg _ => some cfg
  | _ => none

/-- The credentials of the `psk_hint_key` that `x` was created with last. -/
def ownCredentials (log : List (Handle × Event)) (x : Handle) :
    Option (CString × List UInt8) :=
  match latest openedWith x log with
  | some (.client cfg) => cfg.pskHintKey.bind credentials
  | _ => none

/-- Nothing was stored on the way from `w` to `w'`. -/
def SameStore (w w' : World b) : Prop :=
  lastStored w'.log = lastStored w.log ∧ pskStatics w' = pskStatics w

namespace SameStore

variable {h : Handle} {w w' w'' : World b}

theorem trans (first : SameStore w w') (second : SameStore w' w'') : SameStore w w'' :=
  ⟨second.1.trans first.1, second.2.trans first.2⟩

theorem of_extends (hw : Extends h w w') : SameStore w w' := by
  refine ⟨hw.toGrows.lastOf_eq fun e he => ?_, ?_⟩
  · cases e <;> first | rfl | exact he.elim
  · have hstatics := hw.statics
    simp only [statics, Statics.mk.injEq] at hstatics
    simp only [pskStatics, hstatics]

theorem record {e : Event} (he : storedBy e = none) (h : Handle) (w : World b) :
    SameStore w (w.record h e) := by
  refine ⟨?_, rfl⟩
  rw [World.record_log, lastStored, lastOf_append, lastOf_single, he]
  rfl

theorem holding (h : Handle) (w : World b) : SameStore w (holding h w) :=
  ⟨(record rfl h w : SameStore w (w.record h .semTake)).1, rfl⟩

theorem giveConnLock (h : Handle) (w : World b) : SameStore w (giveConnLock h w) :=
  ⟨(record rfl h w : SameStore w (w.record h .semGive)).1, rfl⟩

theorem cleanup (h : Handle) (w : World b) : SameStore w (espWolfsslCleanup h w) := by
  refine SameStore.trans ?_ (of_extends (espWolfsslCleanup_extends h w))
  unfold releaseConnLock
  split
  · exact giveConnLock h w
  · exact ⟨rfl, rfl⟩

end SameStore

/-- After the branch stored credentials the statics hold them. -/
theorem installed_holds (h : Handle) {psk : PskHintKey} {hint : CString} {key : List UInt8}
    (hcred : credentials psk = some (hint, key)) (hfit : CredentialsFit b hint key)
    (w : World b) :
    lastStored (installed h hint key hfit w).log = some (hint, key) ∧
      Holds (installed h hint key hfit w) hint key := by
  refine ⟨?_, hfit, (credentials_eq_some_iff.mp hcred).2.2.2, rfl, rfl, rfl⟩
  have hlog : (installed h hint key hfit w).log =
      w.log ++ [(h, .semTake), (h, .pskStored hint key),
        (h, .setPskClientCallback (w.tls h).privCtx)] := by
    simp [installed, stored, holding]
  rw [hlog, lastStored, lastOf_append]
  rfl

/-- A creation stores nothing, or it leaves its own credentials in the statics. -/
theorem footprint_store {h : Handle} {reached : Option PskHintKey} {w w' : World b}
    (hw : Footprint h reached w w') :
    SameStore w w' ∨
      ∃ hint key, lastStored w'.log = some (hint, key) ∧ Holds w' hint key := by
  cases hw with
  | quiet _ work => exact Or.inl (.of_extends work)
  | @refused _ _ _ w₁ _ _ _ _ before after =>
    exact Or.inl (((SameStore.of_extends before).trans (.holding h w₁)).trans
      (.of_extends after))
  | @stored psk hint key w₁ _ hcred _ hfit before after =>
    obtain ⟨hlast, hholds⟩ := installed_holds h hcred hfit w₁
    have hafter := SameStore.of_extends after
    exact Or.inr ⟨hint, key, hafter.1.trans hlast, hholds.congr hafter.2⟩

theorem concluded_store {o : Opening} {ok : Bool} {w w₁ w₂ : World b}
    (hend : Concluded o w w₁ w₂ ok) : SameStore w₁ w₂ := by
  cases hend with
  | accepted _ _ _ rest => exact .of_extends rest
  | rejected _ rest _ => exact (SameStore.cleanup o.handle w₁).trans (.of_extends rest)

end EspWolfssl.PskStatics
