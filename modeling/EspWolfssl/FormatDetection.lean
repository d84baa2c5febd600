import EspWolfssl.BackendSteps
import EspWolfssl.HeaderSearch
import EspWolfssl.LoadOutcomes

/-!
The format a load passes on. The search for the header of the file type is exact
on the bytes of the buffer and reads no others, so the format is PEM exactly where
the header occurs.
-/
namespace EspWolfssl.FormatDetection

open ByteRegions TaggedLogs Platform ProgramLogic BackendState PemSearch CertificateLoading
  BackendSteps HeaderSearch LoadOutcomes

variable {b : Build}

/-- The format given to wolfSSL in a load. -/
def passedFormat : Event → Option FileFormat
  | .loadVerifyBuffer _ _ _ _ format _ | .useCertificateChainBuffer _ _ _ format _
  | .usePrivateKeyBuffer _ _ _ format _ => some format
  | _ => none

/-- The copy that an unterminated PEM of an authority needs gets no memory. -/
structure CopyRefused (mem : List UInt8) (len : UInt32) (type : X509FileType) (ans : LoadAnswers)
    (format : FileFormat) : Prop where
  authority : type = .caCert
  pem : format = .pem
  unterminated : (mem.take len.toNat).getLast? ≠ some 0
  malloc : ans.malloc = false

/-- A load passes one format on, unless its copy is refused. Then it returns
`ESP_ERR_NO_MEM` and passes nothing on. -/
def Passes (h : Handle) (mem : List UInt8) (len : UInt32) (type : X509FileType)
    (ans : LoadAnswers) (w : World b) (format : FileFormat) : Prop :=
  ∃ r w', espLoadWolfsslVerifyBuffer h mem len type ans w = (.ok r, w') ∧
    (¬ CopyRefused mem len type ans format →
      view passedFormat w'.log = view passedFormat w.log ++ [(h, format)]) ∧
    (CopyRefused mem len type ans format →
      r.1 = .noMem ∧ view passedFormat w'.log = view passedFormat w.log)

section Loads
variable {mem : List UInt8} {len : UInt32} (h : Handle) (ans : LoadAnswers) (w : World b)

theorem loadCaCert_passes (hmem : len.toNat ≤ mem.length) (hfit : len.toNat + 1 < 2 ^ 32)
    (format : FileFormat) :
    ∃ r w', loadCaCert h mem len format ans w = (.ok r, w') ∧
      (¬ CopyRefused mem len .caCert ans format →
        view passedFormat w'.log = view passedFormat w.log ++ [(h, format)]) ∧
      (CopyRefused mem len .caCert ans format →
        r.1 = .noMem ∧ view passedFormat w'.log = view passedFormat w.log) := by
  obtain ⟨terminated, hterm, hnul⟩ := hasNullTerm_spec hmem
  have hcopy := terminatedCopy_of_fit hmem hfit
  have hrun := loadCaCert_run h mem len ans w format
  generalize loadCaCert h mem len format ans w = out at hrun
  cases hrun with
  | asn1 =>
    refine ⟨_, _, rfl, fun _ => view_snoc_of_some passedFormat h w.log rfl, fun hrefused => ?_⟩
    cases hrefused.pem
  | inPlace hread =>
    refine ⟨_, _, rfl, fun _ => view_snoc_of_some passedFormat h w.log rfl, fun hrefused => ?_⟩
    cases hterm.symm.trans hread
    exact absurd (hnul.mp rfl) hrefused.unterminated
  | noMem hread hmalloc =>
    cases hterm.symm.trans hread
    have hlast : (mem.take len.toNat).getLast? ≠ some 0 := fun hzero => by
      simpa using hnul.mpr hzero
    refine ⟨_, _, rfl, fun hgranted => absurd ⟨rfl, rfl, hlast, hmalloc⟩ hgranted, fun _ => ?_⟩
    exact ⟨rfl, view_snoc_of_none passedFormat h w.log rfl⟩
  | copied _ hmalloc _ =>
    refine ⟨_, _, rfl, fun _ => ?_, fun hrefused => ?_⟩
    · rw [copied_log, view_append, view_tag]
      rfl
    · cases hmalloc.symm.trans hrefused.malloc
  | fault hread hfault =>
    have hfalse : hasNullTerm mem len = .ok false := by
      rw [hterm] at hread ⊢
      simpa using hread
    obtain ⟨_, f, hwrong⟩ := hfault hfalse
    rw [hcopy] at hwrong
    cases hwrong

theorem load_passes (hmem : len.toNat ≤ mem.length) (hfit : len.toNat + 1 < 2 ^ 32)
    {type : X509FileType} {pem : Bool}
    (hsearch : espWolfsslBufHasPemHeader (some mem) len (headerOf type) = .ok pem) :
    Passes h mem len type ans w (formatOf pem) := by
  have hown : type ≠ .caCert → ∀ format, ¬ CopyRefused mem len type ans format :=
    fun htype _ hrefused => htype hrefused.authority
  unfold Passes
  rw [load_of_search h ans w hsearch]
  cases type with
  | caCert => exact loadCaCert_passes h ans w hmem hfit (formatOf pem)
  | selfCert =>
    exact ⟨_, _, rfl, fun _ => view_snoc_of_some passedFormat h w.log rfl,
      fun hrefused => absurd hrefused (hown (by simp) _)⟩
  | selfKey =>
    exact ⟨_, _, rfl, fun _ => view_snoc_of_some passedFormat h w.log rfl,
      fun hrefused => absurd hrefused (hown (by simp) _)⟩

theorem formatOf_pem_iff (pem : Bool) : formatOf pem = .pem ↔ pem = true := by
  cases pem <;> simp [formatOf]

end Loads

/-- For a buffer of at most 2^31 - 1 bytes, in whatever memory object, the search
returns and is exact for every header, every byte it compares lies in the buffer, and
each type of load passes on PEM exactly when its header occurs. -/
theorem pem_detection_exact {mem : List UInt8} {len : UInt32} (hmem : len.toNat ≤ mem.length)
    (hmax : len.toNat ≤ 2 ^ 31 - 1) :
    (∀ header : CString, header.length < 2 ^ 32 →
      ∃ found, espWolfsslBufHasPemHeader (some mem) len header = .ok found ∧
        (found = true ↔ Occurs header.chars (mem.take len.toNat)) ∧
        ∀ k, Reads mem len header.chars k → k < len.toNat) ∧
    ∀ (h : Handle) (type : X509FileType) (ans : LoadAnswers) (w : World b),
      ∃ format, Passes h mem len type ans w format ∧
        (format = .pem ↔ Occurs (headerOf type).chars (mem.take len.toNat)) ∧
        (format = .asn1 ↔ ¬ Occurs (headerOf type).chars (mem.take len.toNat)) := by
  have hfit : len.toNat + 1 < 2 ^ 32 := by omega
  constructor
  · intro header hheader
    obtain ⟨found, hrun, hfound⟩ :=
      espWolfsslBufHasPemHeader_spec mem len header hmem hfit hheader
    exact ⟨found, hrun, hfound, fun k hread => reads_lt_of_fit hfit hheader hread⟩
  · intro h type ans w
    obtain ⟨pem, hrun, hpem⟩ :=
      espWolfsslBufHasPemHeader_spec mem len (headerOf type) hmem hfit (headerOf_length type)
    refine ⟨formatOf pem, load_passes h ans w hmem hfit hrun, ?_, ?_⟩
    · rw [formatOf_pem_iff, hpem]
    · rw [← hpem]
      cases pem <;> simp [formatOf]

/-- The private key header at the very end of its buffer, which is not the end of the
memory object. The load passes PEM on. -/
theorem pem_detection_of_key :
    ∃ r, ∃ w : World exampleBuild,
      espLoadWolfsslVerifyBuffer 0 (0 :: headerAny.chars ++ [45]) 12 .selfKey ⟨true, 1⟩
        (World.boot exampleBuild true) = (.ok r, w) ∧ view passedFormat w.log = [(0, .pem)] := by
  have hmem : (12 : UInt32).toNat ≤ (0 :: headerAny.chars ++ [45]).length := by decide
  obtain ⟨format, ⟨r, w, hrun, hpasses, _⟩, hpem, _⟩ :=
    (pem_detection_exact hmem (by decide)).2 0 .selfKey ⟨true, 1⟩ (World.boot exampleBuild true)
  obtain rfl : format = .pem := hpem.mpr ⟨[0], [], by decide⟩
  exact ⟨r, w, hrun, hpasses fun hrefused => nomatch hrefused.authority⟩

end EspWolfssl.FormatDetection
