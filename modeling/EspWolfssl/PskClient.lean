import EspWolfssl.BackendState

/-!
Pre-shared keys: a client that uses one takes the connection lock, stores its
credentials in the statics and installs the callback; the callback copies them
into wolfSSL's buffers and gives the lock.
-/
namespace EspWolfssl.PskClient

open ByteRegions MutexOwnership Platform ProgramLogic BackendState

variable {b : Build}

/-- `xSemaphoreTake` with a timeout: it gets a free mutex, and no operation runs
that could free a taken one while it waits. A NULL handle asserts. -/
def xSemaphoreTake (h : Handle) : Backend b Bool := fun w =>
  match w.tlsConnLock with
  | .null => (.error (.fault .nullSemaphore), w)
  | .free => (.ok true, { w.record h .semTake with tlsConnLock := .taken })
  | .taken => (.ok false, w)

def espWolfsslSetCipherList (h : Handle) (ret : Int32) : Backend b EspErr := do
  let ctx ← Prog.read fun w => (w.tls h).privCtx
  call h (.setCipherList ctx b.defaultCipherList ret)
  pure (if ret = wolfsslSuccess then .ok else .fail)

/-- The stores to `psk_key_max_len`, `psk_key_array` and `psk_id_str`, in the
order of the source. The length is narrowed to eight bits before it is used. -/
def storePsk (h : Handle) (key : List UInt8) (keySize : ℕ) (hint : CString) :
    Backend b Unit := fun w =>
  let keyMaxLen := UInt8.ofNat keySize
  match (CArray.zeros pskMaxKeyLen).write key keyMaxLen.toNat,
      (CArray.zeros b.pskMaxIdLen).write hint.chars hint.length with
  | some keyArray, some idStr =>
      (.ok (), { w.record h (.pskStored hint key) with
        pskKeyMaxLen := keyMaxLen, pskKeyArray := keyArray, pskIdStr := idStr })
  | _, _ => (.error (.fault .outOfBounds), w)

/-- From the check of `tls_conn_lock` to the store to the flag. -/
def takeConnLock (h : Handle) : Backend b Unit := do
  let lock ← Prog.read (·.tlsConnLock)
  Prog.stopIf (lock == .null) (.ret .invalidState)
  let taken ← xSemaphoreTake h
  Prog.stopIf (!taken) (.ret .timeout)
  Prog.modify fun w => { w with tlsConnLockHeld := true }

/-- From the check of the lengths to the cipher list. -/
def installPsk (h : Handle) (key : List UInt8) (keySize : ℕ) (hint : CString)
    (cipherListRet : Int32) : Backend b Unit := do
  Prog.stopIf (decide (pskMaxKeyLen < keySize) || decide (b.pskMaxIdLen ≤ hint.length))
    (.ret .invalidArg)
  storePsk h key keySize hint
  let ctx ← Prog.read fun w => (w.tls h).privCtx
  call h (.setPskClientCallback ctx)
  let ret ← espWolfsslSetCipherList h cipherListRet
  Prog.stopIf (ret != .ok) (.ret .fail)

/-- The `psk_hint_key` branch of `set_client_config`. -/
def configurePsk (h : Handle) (psk : PskHintKey) (cipherListRet : Int32) : Backend b Unit :=
  match psk.key, psk.hint with
  | some key, some hint => do
      Prog.stopIf (psk.keySize == 0) (.ret .fail)
      takeConnLock h
      installPsk h key psk.keySize hint cipherListRet
  | _, _ => Prog.stop (.ret .fail)

/-- What the callback returns: the key length, and the two buffers of wolfSSL. -/
structure PskAnswer where
  len : UInt32
  identity : List UInt8
  key : List UInt8
deriving DecidableEq

/-- `xSemaphoreGive` after the flag was cleared. -/
def giveConnLock (h : Handle) (w : World b) : World b :=
  { w.record h .semGive with tlsConnLockHeld := false, tlsConnLock := w.tlsConnLock.give }

/-- Runs for the SSL object of `h`. The source ignores that object and the
server's hint; `identity` and `key` are the buffers before the call. -/
def espWolfsslPskClientCb (h : Handle) (identity : List UInt8) (idMaxLen : UInt32)
    (key : List UInt8) (keyMaxLen : UInt32) : Backend b PskAnswer := fun w =>
  match strlen w.pskIdStr.bytes with
  | none => (.error (.fault .outOfBounds), w)
  | some idLen =>
      if idMaxLen.toNat ≤ idLen ∨ keyMaxLen.toNat < w.pskKeyMaxLen.toNat then
        (.ok ⟨0, identity, key⟩, w)
      else
        match memcpy identity w.pskIdStr.bytes (idLen + 1),
            memcpy key w.pskKeyArray.bytes w.pskKeyMaxLen.toNat with
        | some identity', some key' =>
            if w.tlsConnLock = .null then (.error (.fault .nullSemaphore), w)
            else (.ok ⟨w.pskKeyMaxLen.toUInt32, identity', key'⟩, giveConnLock h w)
        | _, _ => (.error (.fault .outOfBounds), w)

/-- The stored credentials fit wolfSSL's buffers. -/
def callbackFits (w : World b) (idMaxLen keyMaxLen : UInt32) : Bool :=
  match strlen w.pskIdStr.bytes with
  | none => false
  | some idLen => decide (idLen < idMaxLen.toNat ∧ w.pskKeyMaxLen.toNat ≤ keyMaxLen.toNat)

/-- The two ways a callback returns. -/
theorem espWolfsslPskClientCb_cases {h : Handle} {identity key : List UInt8}
    {idMaxLen keyMaxLen : UInt32} {ans : PskAnswer} {w w' : World b}
    (hrun : espWolfsslPskClientCb h identity idMaxLen key keyMaxLen w = (.ok ans, w')) :
    (callbackFits w idMaxLen keyMaxLen = false ∧ ans = ⟨0, identity, key⟩ ∧ w' = w) ∨
      (callbackFits w idMaxLen keyMaxLen = true ∧ w.tlsConnLock ≠ .null ∧
        w' = giveConnLock h w ∧ ∃ idLen, strlen w.pskIdStr.bytes = some idLen ∧
          ans.len = w.pskKeyMaxLen.toUInt32 ∧
          memcpy identity w.pskIdStr.bytes (idLen + 1) = some ans.identity ∧
          memcpy key w.pskKeyArray.bytes w.pskKeyMaxLen.toNat = some ans.key) := by
  unfold espWolfsslPskClientCb at hrun
  unfold callbackFits
  cases hlen : strlen w.pskIdStr.bytes with
  | none => simp [hlen] at hrun
  | some idLen =>
    simp only [hlen] at hrun
    split at hrun
    · rename_i hlong
      cases hrun
      exact Or.inl ⟨by simp only [decide_eq_false_iff_not]; omega, rfl, rfl⟩
    · rename_i hshort
      split at hrun
      · rename_i identity' key' hid hkey
        split at hrun
        · cases hrun
        · rename_i hlock
          cases hrun
          refine Or.inr ⟨?_, hlock, rfl, idLen, rfl, rfl, hid, hkey⟩
          simp only [decide_eq_true_eq]
          omega
      · cases hrun

/-- The hint and the key of a structure that has both, when the key is not
empty. -/
def credentials (psk : PskHintKey) : Option (CString × List UInt8) :=
  match psk.key, psk.hint with
  | some key, some hint => if psk.keySize = 0 then none else some (hint, key)
  | _, _ => none

/-- The credentials fit the statics: the hint with its NUL, the key exactly. -/
def CredentialsFit (b : Build) (hint : CString) (key : List UInt8) : Prop :=
  key.length ≤ pskMaxKeyLen ∧ hint.length < b.pskMaxIdLen

instance (hint : CString) (key : List UInt8) : Decidable (CredentialsFit b hint key) := by
  unfold CredentialsFit
  infer_instance

theorem credentials_eq_some_iff {psk : PskHintKey} {hint : CString} {key : List UInt8} :
    credentials psk = some (hint, key) ↔
      psk.key = some key ∧ psk.hint = some hint ∧ psk.keySize = key.length ∧ key ≠ [] := by
  have hkey := psk.key_length
  unfold credentials
  cases hk : psk.key with
  | none => simp
  | some k =>
    have hlen := hkey k hk
    cases hh : psk.hint with
    | none => simp
    | some i =>
      by_cases hzero : psk.keySize = 0
      · have hnil : k = [] := List.length_eq_zero_iff.mp (hlen.trans hzero)
        subst hnil
        simp only [hzero, if_true, Option.some.injEq]
        constructor
        · rintro h
          cases h
        · rintro ⟨rfl, _, _, hne⟩
          exact absurd rfl hne
      · simp only [hzero, if_false, Option.some.injEq, Prod.mk.injEq]
        constructor
        · rintro ⟨rfl, rfl⟩
          refine ⟨rfl, rfl, hlen.symm, ?_⟩
          rintro rfl
          exact hzero hlen.symm
        · rintro ⟨rfl, rfl, _, _⟩
          exact ⟨rfl, rfl⟩

/-- After the take and the store to the flag. -/
def holding (h : Handle) (w : World b) : World b :=
  { w.record h .semTake with tlsConnLock := .taken, tlsConnLockHeld := true }

/-- After the stores to the statics, from credentials that fit. -/
def stored (h : Handle) (hint : CString) (key : List UInt8)
    (hfit : CredentialsFit b hint key) (w : World b) : World b :=
  { w.record h (.pskStored hint key) with
    pskKeyMaxLen := UInt8.ofNat key.length
    pskKeyArray := CArray.padded key hfit.1
    pskIdStr := CArray.padded hint.chars (Nat.le_of_lt hfit.2) }

theorem keyMaxLen_toNat {key : List UInt8} (h : key.length ≤ pskMaxKeyLen) :
    (UInt8.ofNat key.length).toNat = key.length := by
  have hlt : key.length < 256 := by
    unfold pskMaxKeyLen at h
    omega
  exact UInt8.toNat_ofNat_of_lt' hlt

theorem storePsk_of_fit (h : Handle) (hint : CString) (key : List UInt8)
    (hfit : CredentialsFit b hint key) (w : World b) :
    storePsk h key key.length hint w = (.ok (), stored h hint key hfit w) := by
  have hkey := CArray.write_zeros key hfit.1
  have hhint := CArray.write_zeros hint.chars (Nat.le_of_lt hfit.2)
  change (CArray.zeros b.pskMaxIdLen).write hint.chars hint.length = _ at hhint
  simp only [storePsk, keyMaxLen_toNat hfit.1, hkey, hhint]
  rfl

theorem takeConnLock_free (h : Handle) {w : World b} (hlock : w.tlsConnLock = .free) :
    takeConnLock h w = (.ok (), holding h w) := by
  simp [takeConnLock, Prog.bind_apply, Prog.stopIf, xSemaphoreTake, hlock, holding]

/-- What the branch reports without a free mutex. -/
def busyError (lock : Mutex) : EspErr := if lock = .null then .invalidState else .timeout

/-- Without a free mutex the branch stops before it changes anything. -/
theorem takeConnLock_busy (h : Handle) {w : World b} (hlock : w.tlsConnLock ≠ .free) :
    takeConnLock h w = (.error (.ret (busyError w.tlsConnLock)), w) := by
  cases hmutex : w.tlsConnLock with
  | null => simp [takeConnLock, Prog.bind_apply, Prog.stopIf, hmutex, busyError]
  | free => exact absurd hmutex hlock
  | taken =>
    simp [takeConnLock, Prog.bind_apply, Prog.stopIf, xSemaphoreTake, hmutex, busyError]

theorem installPsk_tooLong (h : Handle) (hint : CString) (key : List UInt8) (ret : Int32)
    (w : World b) (hfit : ¬ CredentialsFit b hint key) :
    installPsk h key key.length hint ret w = (.error (.ret .invalidArg), w) := by
  have hlong : (decide (pskMaxKeyLen < key.length) ||
      decide (b.pskMaxIdLen ≤ hint.length)) = true := by
    simp only [CredentialsFit, not_and_or, not_le, not_lt] at hfit
    simpa using hfit
  exact Prog.bind_of_error (by rw [hlong]; rfl)

/-- Credentials that fit are stored, whatever the cipher list call answers. -/
theorem installPsk_fit (h : Handle) (hint : CString) (key : List UInt8) (ret : Int32)
    (w : World b) (hfit : CredentialsFit b hint key) :
    installPsk h key key.length hint ret w =
      (if ret = wolfsslSuccess then .ok () else .error (.ret .fail),
        ((stored h hint key hfit w).record h (.setPskClientCallback (w.tls h).privCtx)).record h
          (.setCipherList (w.tls h).privCtx b.defaultCipherList ret)) := by
  have hshort : (decide (pskMaxKeyLen < key.length) ||
      decide (b.pskMaxIdLen ≤ hint.length)) = false := by
    have hkey := hfit.1
    have hhint := hfit.2
    simp only [Bool.or_eq_false_iff, decide_eq_false_iff_not, not_lt, not_le]
    exact ⟨hkey, hhint⟩
  unfold installPsk
  rw [hshort, Prog.bind_of_ok (rfl : (Prog.stopIf false _ : Backend b Unit) w = (.ok (), w)),
    Prog.bind_of_ok (storePsk_of_fit h hint key hfit w)]
  by_cases hret : ret = wolfsslSuccess <;>
    simp [Prog.bind_apply, Prog.stopIf, espWolfsslSetCipherList, call, hret, stored]

section Runs
variable {h : Handle} {psk : PskHintKey} {ret : Int32} {w : World b}
variable {hint : CString} {key : List UInt8}

theorem configurePsk_incomplete (hnone : credentials psk = none) :
    configurePsk h psk ret w = (.error (.ret .fail), w) := by
  unfold configurePsk
  unfold credentials at hnone
  cases hk : psk.key with
  | none => rfl
  | some k =>
    cases hi : psk.hint with
    | none => rfl
    | some i =>
      have hzero : psk.keySize = 0 := by
        by_contra hne
        simp [hk, hi, hne] at hnone
      simp [Prog.bind_apply, hzero, Prog.stopIf_true]

/-- With complete credentials the branch takes the lock and installs them. -/
theorem configurePsk_eq (hcred : credentials psk = some (hint, key)) :
    configurePsk h psk ret w =
      (takeConnLock h >>= fun _ => installPsk h key key.length hint ret) w := by
  obtain ⟨hk, hi, hsize, hne⟩ := credentials_eq_some_iff.mp hcred
  have hzero : (psk.keySize == 0) = false := by simpa [hsize] using hne
  unfold configurePsk
  rw [hk, hi, hzero, hsize]
  rfl

theorem configurePsk_busy (hcred : credentials psk = some (hint, key))
    (hlock : w.tlsConnLock ≠ .free) :
    configurePsk h psk ret w = (.error (.ret (busyError w.tlsConnLock)), w) := by
  rw [configurePsk_eq hcred, Prog.bind_of_error (takeConnLock_busy h hlock)]

theorem configurePsk_tooLong (hcred : credentials psk = some (hint, key))
    (hlock : w.tlsConnLock = .free) (hfit : ¬ CredentialsFit b hint key) :
    configurePsk h psk ret w = (.error (.ret .invalidArg), holding h w) := by
  rw [configurePsk_eq hcred, Prog.bind_of_ok (takeConnLock_free h hlock),
    installPsk_tooLong h hint key ret _ hfit]

theorem configurePsk_fit (hcred : credentials psk = some (hint, key))
    (hlock : w.tlsConnLock = .free) (hfit : CredentialsFit b hint key) :
    configurePsk h psk ret w =
      (if ret = wolfsslSuccess then .ok () else .error (.ret .fail),
        ((stored h hint key hfit (holding h w)).record h
          (.setPskClientCallback (w.tls h).privCtx)).record h
          (.setCipherList (w.tls h).privCtx b.defaultCipherList ret)) := by
  rw [configurePsk_eq hcred, Prog.bind_of_ok (takeConnLock_free h hlock),
    installPsk_fit h hint key ret _ hfit]
  rfl

end Runs

end EspWolfssl.PskClient
