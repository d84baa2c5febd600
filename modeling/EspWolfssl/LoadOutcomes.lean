import EspWolfssl.CertificateLoading
import EspWolfssl.HeaderSearch
import EspWolfssl.TaggedLogs

/-!
What a load comes to, by its type and the shape of the buffer. Below the largest
length a load makes one call of wolfSSL with the buffer's bytes, or has no memory
for the copy of an unterminated PEM.
-/
namespace EspWolfssl.LoadOutcomes

open ByteRegions TaggedLogs Platform ProgramLogic BackendState PemSearch CertificateLoading
  HeaderSearch WordLengths

variable {b : Build}

/-- The header that marks a file of the type as PEM. -/
def headerOf : X509FileType → CString
  | .caCert | .selfCert => headerCertificate
  | .selfKey => headerAny

theorem headerOf_length (type : X509FileType) : (headerOf type).length < 2 ^ 32 := by
  cases type <;> decide

section Regions
variable {mem : List UInt8} {len : UInt32}

/-- The terminator is looked for in the last byte of the buffer. -/
theorem hasNullTerm_spec (hmem : len.toNat ≤ mem.length) :
    ∃ terminated, hasNullTerm mem len = .ok terminated ∧
      (terminated = true ↔ (mem.take len.toNat).getLast? = some 0) := by
  unfold hasNullTerm
  by_cases hlen : len = 0
  · rw [if_pos hlen]
    exact ⟨false, rfl, by simp [hlen]⟩
  · have hne := toNat_ne_zero hlen
    have hpred := pred_toNat hlen
    have hin : (len - 1).toNat < mem.length := by omega
    have hlast : (mem.take len.toNat).getLast? = mem[(len - 1).toNat]? := by
      rw [List.getLast?_take, if_neg hne, ← hpred, List.getElem?_eq_getElem hin, Option.some_or]
    rw [if_neg hlen, hlast, List.getElem?_eq_getElem hin]
    exact ⟨_, rfl, by simp⟩

/-- The copy is the buffer with a NUL behind it. -/
theorem terminatedCopy_of_fit (hmem : len.toNat ≤ mem.length) (hfit : len.toNat + 1 < 2 ^ 32) :
    terminatedCopy mem len = .ok (mem.take len.toNat ++ [0]) := by
  have hsize : (len + 1).toNat = len.toNat + 1 := succ_toNat_iff.mpr hfit
  have hlength : (mem.take len.toNat).length = len.toNat := by
    rw [List.length_take, Nat.min_eq_left hmem]
  have hcopy : memcpy (List.replicate (len + 1).toNat 0) mem len.toNat =
      some (mem.take len.toNat ++ [0]) := by
    rw [hsize, memcpy_of_fit (by simp) hmem]
    simp
  have hroom : len.toNat < (mem.take len.toNat ++ [0]).length := by
    rw [List.length_append, hlength, List.length_singleton]
    omega
  unfold terminatedCopy
  rw [hcopy]
  simp only [hroom, if_true]
  rw [List.set_append_right _ _ (by omega), hlength, Nat.sub_self]
  rfl

/-- The one length whose successor wraps gets a block without room. -/
theorem terminatedCopy_wrap (hwrap : ¬ len.toNat + 1 < 2 ^ 32) :
    terminatedCopy mem len = .error .outOfBounds := by
  have hsize : (len + 1).toNat = 0 := succ_toNat_of_wrap hwrap
  have hcopy : memcpy (List.replicate (len + 1).toNat 0) mem len.toNat = none := by
    rw [hsize, List.replicate_zero]
    refine if_neg fun hfit => ?_
    have hempty : len.toNat ≤ 0 := hfit.1
    omega
  unfold terminatedCopy
  rw [hcopy]

end Regions

section Buffers
variable (buf : Buffer)

theorem take_len : buf.bytes.take buf.len.toNat = buf.bytes := by
  rw [buf.len_toNat, List.take_length]

theorem len_le : buf.len.toNat ≤ buf.bytes.length := Nat.le_of_eq buf.len_toNat

/-- The search is decided by the bytes of the buffer, or it reads past the end of a
buffer of the largest length. -/
theorem search_total {header : CString} (hheader : header.length < 2 ^ 32) :
    (∃ pem, espWolfsslBufHasPemHeader (some buf.bytes) buf.len header = .ok pem ∧
      (pem = true ↔ Occurs header.chars buf.bytes)) ∨
    (¬ buf.bytes.length + 1 < 2 ^ 32 ∧ ¬ Occurs header.chars buf.bytes ∧
      espWolfsslBufHasPemHeader (some buf.bytes) buf.len header = .error .outOfBounds) := by
  have hlen := buf.len_toNat
  by_cases hlong : buf.len < UInt32.ofNat header.length
  · obtain ⟨hrun, habsent⟩ := search_short (len_le buf) hheader hlong
    rw [take_len] at habsent
    exact Or.inl ⟨false, hrun, iff_of_false (by simp) habsent⟩
  · have hexact := sumsExact_iff (len_le buf) (length_le_of_long hheader hlong)
    rw [take_len, hlen] at hexact
    by_cases hfit : buf.bytes.length + 1 < 2 ^ 32 ∨ Occurs header.chars buf.bytes
    · have hsearch := search_of_exact (len_le buf) hlong (hexact.mpr hfit)
      rw [take_len] at hsearch
      exact Or.inl hsearch
    · rw [not_or] at hfit
      have hwrap : ¬ buf.len.toNat + 1 < 2 ^ 32 := by
        rw [hlen]
        exact hfit.1
      exact Or.inr ⟨hfit.1, hfit.2, search_outside hlen hwrap hheader hfit.2⟩

theorem hasNullTerm_true {buf : Buffer} (hlast : buf.bytes.getLast? = some 0) :
    hasNullTerm buf.bytes buf.len = .ok true := by
  obtain ⟨terminated, hterm, hnul⟩ := hasNullTerm_spec (len_le buf)
  rw [take_len] at hnul
  rw [hterm, hnul.mpr hlast]

theorem hasNullTerm_false {buf : Buffer} (hlast : buf.bytes.getLast? ≠ some 0) :
    hasNullTerm buf.bytes buf.len = .ok false := by
  obtain ⟨terminated, hterm, hnul⟩ := hasNullTerm_spec (len_le buf)
  rw [take_len] at hnul
  have hfalse : terminated = false := by
    rw [← Bool.not_eq_true, hnul]
    exact hlast
  rw [hterm, hfalse]

/-- The length of a terminated buffer without its NUL. -/
theorem len_pred {buf : Buffer} (hlast : buf.bytes.getLast? = some 0) :
    (buf.len - 1).toNat = buf.bytes.length - 1 := by
  have hlen := buf.len_toNat
  have hne : buf.len ≠ 0 := by
    intro hzero
    rw [hzero, UInt32.toNat_zero] at hlen
    have hnil : buf.bytes = [] := List.eq_nil_of_length_eq_zero hlen.symm
    rw [hnil] at hlast
    cases hlast
  rw [pred_toNat hne, hlen]

theorem copy_of_fit {buf : Buffer} (hfit : buf.bytes.length + 1 < 2 ^ 32) :
    terminatedCopy buf.bytes buf.len = .ok (buf.bytes ++ [0]) := by
  have hlen := buf.len_toNat
  have hcopy := terminatedCopy_of_fit (len_le buf) (by omega)
  rwa [take_len] at hcopy

theorem copy_of_wrap {buf : Buffer} (hwrap : ¬ buf.bytes.length + 1 < 2 ^ 32) :
    terminatedCopy buf.bytes buf.len = .error .outOfBounds := by
  rw [← buf.len_toNat] at hwrap
  exact terminatedCopy_wrap hwrap

end Buffers

section Loads
variable (h : Handle) {mem : List UInt8} {len : UInt32} (ans : LoadAnswers) (w : World b)

/-- A load whose search ended goes on with the format that was found. -/
theorem load_of_search {type : X509FileType} {pem : Bool}
    (hsearch : espWolfsslBufHasPemHeader (some mem) len (headerOf type) = .ok pem) :
    espLoadWolfsslVerifyBuffer h mem len type ans w =
      match type with
      | .caCert => loadCaCert h mem len (formatOf pem) ans w
      | .selfCert => (.ok (loadResult ans.ret), w.record h (.useCertificateChainBuffer
          (w.tls h).privCtx (mem.take len.toNat) len.toInt32 (formatOf pem) ans.ret))
      | .selfKey => (.ok (loadResult ans.ret), w.record h (.usePrivateKeyBuffer
          (w.tls h).privCtx (mem.take len.toNat) len.toInt32 (formatOf pem) ans.ret)) := by
  cases type <;>
    simp only [headerOf] at hsearch <;>
    simp [espLoadWolfsslVerifyBuffer, call, Prog.bind_apply, hsearch, Except.mapError]

/-- A load whose search faults goes no further. -/
theorem load_of_searchFault {type : X509FileType} {f : Fault}
    (hsearch : espWolfsslBufHasPemHeader (some mem) len (headerOf type) = .error f) :
    espLoadWolfsslVerifyBuffer h mem len type ans w = (.error (.fault f), w) := by
  cases type <;>
    simp only [headerOf] at hsearch <;>
    simp [espLoadWolfsslVerifyBuffer, Prog.bind_apply, hsearch, Except.mapError]

/-- The log of a load that copies its buffer. -/
theorem copied_log (size : UInt32) (load : Event) :
    ((({ w with nextObj := w.nextObj + 1 }.record h (.malloc (some w.nextObj) size)).record h
      load).record h (.free w.nextObj)).log =
        w.log ++ tag h [.malloc (some w.nextObj) size, load, .free w.nextObj] := by
  simp only [World.record_log, tag_cons, tag_nil, List.append_assoc, List.cons_append,
    List.nil_append]

end Loads
end EspWolfssl.LoadOutcomes
