import EspWolfssl.HandleCreation
import EspWolfssl.HeaderSearch

/-!
A load of a CA certificate depends on the bytes of the certificate only, not on
what follows them in their memory object.
-/
namespace EspWolfssl.CertificateRegions

open ByteRegions Platform ProgramLogic BackendState PemSearch CertificateLoading HandleCreation
  HeaderSearch WordLengths

variable {b : Build}

/-- Two memory objects that start with the same certificate of `len` bytes. -/
structure SameCert (mem mem' : List UInt8) (len : UInt32) : Prop where
  inside : len.toNat ≤ mem.length
  inside' : len.toNat ≤ mem'.length
  take_eq : mem.take len.toNat = mem'.take len.toNat
  short : len.toNat + 1 < 2 ^ 32

namespace SameCert

variable {mem mem' : List UInt8} {len : UInt32}

theorem header_eq (hsame : SameCert mem mem' len) {header : CString}
    (hheader : header.length < 2 ^ 32) :
    espWolfsslBufHasPemHeader (some mem) len header =
      espWolfsslBufHasPemHeader (some mem') len header := by
  obtain ⟨found, hrun, hfound⟩ :=
    espWolfsslBufHasPemHeader_spec mem len header hsame.inside hsame.short hheader
  obtain ⟨found', hrun', hfound'⟩ :=
    espWolfsslBufHasPemHeader_spec mem' len header hsame.inside' hsame.short hheader
  rw [← hsame.take_eq, ← hfound] at hfound'
  rw [hrun, hrun', Bool.eq_iff_iff.mpr hfound']

theorem take_of_le (hsame : SameCert mem mem' len) {n : ℕ} (hn : n ≤ len.toNat) :
    mem.take n = mem'.take n := by
  calc
    mem.take n = (mem.take len.toNat).take n := by rw [List.take_take, Nat.min_eq_left hn]
    _ = (mem'.take len.toNat).take n := by rw [hsame.take_eq]
    _ = mem'.take n := by rw [List.take_take, Nat.min_eq_left hn]

theorem getElem?_eq (hsame : SameCert mem mem' len) {i : ℕ} (hi : i < len.toNat) :
    mem[i]? = mem'[i]? := by
  rw [← List.getElem?_take_of_lt hi, hsame.take_eq, List.getElem?_take_of_lt hi]

theorem hasNullTerm_eq (hsame : SameCert mem mem' len) :
    hasNullTerm mem len = hasNullTerm mem' len := by
  unfold hasNullTerm
  by_cases hlen : len = 0
  · rw [if_pos hlen, if_pos hlen]
  · have hpred := pred_toNat hlen
    have hne := toNat_ne_zero hlen
    rw [if_neg hlen, if_neg hlen, hsame.getElem?_eq (by omega)]

theorem terminatedCopy_eq (hsame : SameCert mem mem' len) :
    terminatedCopy mem len = terminatedCopy mem' len := by
  have hcopy : ∀ dst, memcpy dst mem len.toNat = memcpy dst mem' len.toNat := by
    intro dst
    simp only [memcpy, hsame.inside, hsame.inside', hsame.take_eq]
  unfold terminatedCopy
  rw [hcopy]

theorem loadCaCert_eq (hsame : SameCert mem mem' len) (h : Handle) (format : FileFormat)
    (ans : LoadAnswers) :
    (loadCaCert h mem len format ans : Backend b (EspErr × Int32)) =
      loadCaCert h mem' len format ans := by
  have hterm := hsame.hasNullTerm_eq
  have hcopy := hsame.terminatedCopy_eq
  funext w
  cases format with
  | asn1 => rw [loadCaCert_asn1, loadCaCert_asn1, hsame.take_eq]
  | pem =>
    cases hread : hasNullTerm mem len with
    | error f =>
      have hread' := hterm ▸ hread
      simp [loadCaCert, caHandover, Prog.bind_apply, hread, hread', Except.mapError]
    | ok terminated =>
      have hread' := hterm ▸ hread
      cases terminated with
      | true =>
        have hpred : (len - 1).toNat ≤ len.toNat := by
          by_cases hlen : len = 0
          · simp [hasNullTerm, hlen] at hread
          · rw [pred_toNat hlen]
            omega
        rw [loadCaCert_inPlace h mem len ans w hread, loadCaCert_inPlace h mem' len ans w hread',
          hsame.take_of_le hpred]
      | false =>
        cases hmalloc : ans.malloc with
        | false =>
          rw [loadCaCert_noMem h mem len ans w hread hmalloc,
            loadCaCert_noMem h mem' len ans w hread' hmalloc]
        | true =>
          cases hblock : terminatedCopy mem len with
          | error f =>
            have hblock' := hcopy ▸ hblock
            simp [loadCaCert, caHandover, allocate, newObject, call, Prog.bind_apply, hread,
              hread', hmalloc, hblock, hblock', Except.mapError]
          | ok copy =>
            rw [loadCaCert_copy h mem len ans w hread hmalloc hblock,
              loadCaCert_copy h mem' len ans w hread' hmalloc (hcopy ▸ hblock)]

theorem loadOrExit_eq (hsame : SameCert mem mem' len) (h : Handle) (ans : LoadAnswers) :
    (loadOrExit h mem len .caCert ans : Backend b Unit) =
      loadOrExit h mem' len .caCert ans := by
  have hheader := @header_eq _ _ _ hsame headerCertificate (by decide)
  have hload : ∀ format, (loadCaCert h mem len format ans : Backend b (EspErr × Int32)) =
      loadCaCert h mem' len format ans := fun format => hsame.loadCaCert_eq h format ans
  simp only [loadOrExit, espLoadWolfsslVerifyBuffer, hheader, hload]

end SameCert
end EspWolfssl.CertificateRegions
