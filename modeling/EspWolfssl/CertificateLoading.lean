import EspWolfssl.BackendState
import EspWolfssl.PemSearch

/-!
Loading certificates and keys into a context: the format is detected, and a
PEM certificate of an authority is handed over with a NUL behind it, in the
caller's buffer or in a temporary copy. Lengths are 32-bit and wrap.
-/
namespace EspWolfssl.CertificateLoading

open ByteRegions Platform ProgramLogic BackendState PemSearch

variable {b : Build}

/-- The answers one load may get. -/
structure LoadAnswers where
  malloc : Bool
  ret : Int32
deriving DecidableEq

/-- What is handed to wolfSSL: a memory object, from the pointer on, and the
number of its bytes that belong to the certificate. -/
structure Handover where
  temp : Option ℕ
  mem : List UInt8
  len : UInt32
deriving DecidableEq

/-- `cert_len > 0 && cert_buf[cert_len - 1] == '\0'` -/
def hasNullTerm (mem : List UInt8) (len : UInt32) : Except Fault Bool :=
  if len = 0 then .ok false
  else match mem[(len - 1).toNat]? with
    | none => .error .outOfBounds
    | some c => .ok (c == 0)

/-- The copy into a block of `cert_len + 1` bytes, and the NUL behind it. -/
def terminatedCopy (mem : List UInt8) (len : UInt32) : Except Fault (List UInt8) :=
  match memcpy (List.replicate (len + 1).toNat 0) mem len.toNat with
  | none => .error .outOfBounds
  | some block =>
      if len.toNat < block.length then .ok (block.set len.toNat 0)
      else .error .outOfBounds

theorem terminatedCopy_take {mem copy : List UInt8} {len : UInt32}
    (hcopy : terminatedCopy mem len = .ok copy) : copy.take len.toNat = mem.take len.toNat := by
  unfold terminatedCopy at hcopy
  split at hcopy
  · cases hcopy
  · rename_i block hblock
    obtain ⟨⟨_, hsrc⟩, rfl⟩ := memcpy_eq hblock
    split at hcopy
    · obtain rfl := Except.ok.inj hcopy
      rw [List.take_set_of_le (Nat.le_refl _), List.take_append_of_le_length (by simp [hsrc]),
        List.take_take, Nat.min_self]
    · cases hcopy

/-- The region of a CA certificate, or nothing when the copy has no memory. -/
def caHandover (h : Handle) (mem : List UInt8) (len : UInt32) (format : FileFormat)
    (malloc : Bool) : Backend b (Option Handover) :=
  match format with
  | .asn1 => pure (some ⟨none, mem, len⟩)
  | .pem => do
      let terminated ← Prog.liftExcept ((hasNullTerm mem len).mapError .fault)
      if terminated then pure (some ⟨none, mem, len - 1⟩)
      else do
        let nullTermBuf ← allocate h malloc (.malloc · (len + 1))
        match nullTermBuf with
        | none => pure none
        | some temp => do
            let copy ← Prog.liftExcept ((terminatedCopy mem len).mapError .fault)
            pure (some ⟨some temp, copy, len⟩)

def formatOf (pem : Bool) : FileFormat := if pem then .pem else .asn1

/-- `ESP_OK` for a load that succeeded, and the code for `err_ret`. -/
def loadResult (ret : Int32) : EspErr × Int32 :=
  (if ret = wolfsslSuccess then .ok else .fail, ret)

/-- `if (null_term_buf) { free(null_term_buf); }` -/
def freeTemp (h : Handle) (temp : Option ℕ) : Backend b Unit :=
  match temp with
  | none => pure ()
  | some buf => call h (.free buf)

def loadCaCert (h : Handle) (mem : List UInt8) (len : UInt32) (format : FileFormat)
    (ans : LoadAnswers) : Backend b (EspErr × Int32) := do
  let ctx ← Prog.read fun w => (w.tls h).privCtx
  let handover ← caHandover h mem len format ans.malloc
  match handover with
  | none => pure (.noMem, wolfsslFailure)
  | some r => do
      call h (.loadVerifyBuffer ctx r.temp (r.mem.take r.len.toNat) r.len.toInt32 format ans.ret)
      freeTemp h r.temp
      pure (loadResult ans.ret)

/-- Returns the code and the value left in `*err_ret`. The callers pass no NULL
buffer; `certBuf` is the memory object from the buffer's start on. -/
def espLoadWolfsslVerifyBuffer (h : Handle) (certBuf : List UInt8) (certLen : UInt32)
    (type : X509FileType) (ans : LoadAnswers) : Backend b (EspErr × Int32) :=
  match type with
  | .selfKey => do
      let pem ← Prog.liftExcept
        ((espWolfsslBufHasPemHeader (some certBuf) certLen headerAny).mapError .fault)
      let ctx ← Prog.read fun w => (w.tls h).privCtx
      call h (.usePrivateKeyBuffer ctx (certBuf.take certLen.toNat) certLen.toInt32
        (formatOf pem) ans.ret)
      pure (loadResult ans.ret)
  | .selfCert => do
      let pem ← Prog.liftExcept
        ((espWolfsslBufHasPemHeader (some certBuf) certLen headerCertificate).mapError .fault)
      let ctx ← Prog.read fun w => (w.tls h).privCtx
      call h (.useCertificateChainBuffer ctx (certBuf.take certLen.toNat) certLen.toInt32
        (formatOf pem) ans.ret)
      pure (loadResult ans.ret)
  | .caCert => do
      let pem ← Prog.liftExcept
        ((espWolfsslBufHasPemHeader (some certBuf) certLen headerCertificate).mapError .fault)
      loadCaCert h certBuf certLen (formatOf pem) ans

section CaRuns
variable (h : Handle) (mem : List UInt8) (len : UInt32) (ans : LoadAnswers) (w : World b)

theorem loadCaCert_asn1 :
    loadCaCert h mem len .asn1 ans w = (.ok (loadResult ans.ret),
      w.record h (.loadVerifyBuffer (w.tls h).privCtx none (mem.take len.toNat)
        len.toInt32 .asn1 ans.ret)) := rfl

theorem loadCaCert_inPlace (hterm : hasNullTerm mem len = .ok true) :
    loadCaCert h mem len .pem ans w = (.ok (loadResult ans.ret),
      w.record h (.loadVerifyBuffer (w.tls h).privCtx none (mem.take (len - 1).toNat)
        (len - 1).toInt32 .pem ans.ret)) := by
  simp [loadCaCert, caHandover, freeTemp, call, Prog.bind_apply, hterm, Except.mapError]

theorem loadCaCert_noMem (hterm : hasNullTerm mem len = .ok false)
    (hmalloc : ans.malloc = false) :
    loadCaCert h mem len .pem ans w = (.ok (.noMem, wolfsslFailure),
      w.record h (.malloc none (len + 1))) := by
  simp [loadCaCert, caHandover, allocate, call, Prog.bind_apply, hterm, hmalloc,
    Except.mapError]

theorem loadCaCert_copy {copy : List UInt8} (hterm : hasNullTerm mem len = .ok false)
    (hmalloc : ans.malloc = true) (hcopy : terminatedCopy mem len = .ok copy) :
    loadCaCert h mem len .pem ans w = (.ok (loadResult ans.ret),
      ((({ w with nextObj := w.nextObj + 1 }.record h
        (.malloc (some w.nextObj) (len + 1))).record h
        (.loadVerifyBuffer (w.tls h).privCtx (some w.nextObj) (copy.take len.toNat)
          len.toInt32 .pem ans.ret)).record h (.free w.nextObj))) := by
  simp [loadCaCert, caHandover, allocate, newObject, freeTemp, call, Prog.bind_apply, hterm,
    hmalloc, hcopy, Except.mapError]

/-- A run that faults: the terminator is read, or the copy written, outside its
block. -/
theorem loadCaCert_fault (hterm : hasNullTerm mem len ≠ .ok true)
    (hmalloc : hasNullTerm mem len = .ok false → ans.malloc = true ∧
      ∃ f, terminatedCopy mem len = .error f) :
    ∃ f w', loadCaCert h mem len .pem ans w = (.error (.fault f), w') := by
  cases hread : hasNullTerm mem len with
  | error f =>
    exact ⟨f, w, by simp [loadCaCert, caHandover, Prog.bind_apply, hread, Except.mapError]⟩
  | ok terminated =>
    cases terminated with
    | true => exact absurd hread hterm
    | false =>
      obtain ⟨hmalloc, f, hcopy⟩ := hmalloc hread
      exact ⟨f, _, by
        simp [loadCaCert, caHandover, allocate, newObject, call, Prog.bind_apply, hread,
          hmalloc, hcopy, Except.mapError]
        rfl⟩

/-- How a CA load can run, by the shape of the buffer and the answer of malloc. -/
inductive CaRun : FileFormat → Except Exit (EspErr × Int32) × World b → Prop
  | asn1 : CaRun .asn1 (.ok (loadResult ans.ret),
      w.record h (.loadVerifyBuffer (w.tls h).privCtx none (mem.take len.toNat)
        len.toInt32 .asn1 ans.ret))
  | inPlace (hterm : hasNullTerm mem len = .ok true) : CaRun .pem (.ok (loadResult ans.ret),
      w.record h (.loadVerifyBuffer (w.tls h).privCtx none (mem.take (len - 1).toNat)
        (len - 1).toInt32 .pem ans.ret))
  | noMem (hterm : hasNullTerm mem len = .ok false) (hmalloc : ans.malloc = false) :
      CaRun .pem (.ok (.noMem, wolfsslFailure), w.record h (.malloc none (len + 1)))
  | copied {copy : List UInt8} (hterm : hasNullTerm mem len = .ok false)
      (hmalloc : ans.malloc = true) (hcopy : terminatedCopy mem len = .ok copy) :
      CaRun .pem (.ok (loadResult ans.ret),
        ((({ w with nextObj := w.nextObj + 1 }.record h
          (.malloc (some w.nextObj) (len + 1))).record h
          (.loadVerifyBuffer (w.tls h).privCtx (some w.nextObj) (copy.take len.toNat)
            len.toInt32 .pem ans.ret)).record h (.free w.nextObj)))
  | fault {f : Fault} {w' : World b} (hterm : hasNullTerm mem len ≠ .ok true)
      (hmalloc : hasNullTerm mem len = .ok false → ans.malloc = true ∧
        ∃ f, terminatedCopy mem len = .error f) : CaRun .pem (.error (.fault f), w')

theorem loadCaCert_run (format : FileFormat) :
    CaRun h mem len ans w format (loadCaCert h mem len format ans w) := by
  have hfault : hasNullTerm mem len ≠ .ok true → (hasNullTerm mem len = .ok false →
      ans.malloc = true ∧ ∃ f, terminatedCopy mem len = .error f) →
      CaRun h mem len ans w .pem (loadCaCert h mem len .pem ans w) := by
    intro hterm hmalloc
    obtain ⟨f, w', hrun⟩ := loadCaCert_fault h mem len ans w hterm hmalloc
    rw [hrun]
    exact .fault hterm hmalloc
  cases format with
  | asn1 => exact .asn1
  | pem =>
    cases hterm : hasNullTerm mem len with
    | error f => exact hfault (by simp [hterm]) (by simp [hterm])
    | ok terminated =>
      cases terminated with
      | true =>
        rw [loadCaCert_inPlace h mem len ans w hterm]
        exact .inPlace hterm
      | false =>
        cases hmalloc : ans.malloc with
        | false =>
          rw [loadCaCert_noMem h mem len ans w hterm hmalloc]
          exact .noMem hterm hmalloc
        | true =>
          cases hcopy : terminatedCopy mem len with
          | error f => exact hfault (by simp [hterm]) fun _ => ⟨hmalloc, f, hcopy⟩
          | ok copy =>
            rw [loadCaCert_copy h mem len ans w hterm hmalloc hcopy]
            exact .copied hterm hmalloc hcopy

end CaRuns

end EspWolfssl.CertificateLoading
