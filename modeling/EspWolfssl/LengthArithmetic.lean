import EspWolfssl.BackendSteps
import EspWolfssl.HeaderSearch
import EspWolfssl.LoadOutcomes
import EspWolfssl.StoreRefinement

/-!
The lengths that are computed from a caller's length. No function bounds it, so each
computation has the bound of its own type: a sum and a successor wrap at the largest
`unsigned int`, and a `long` is negative in the upper half.
-/
namespace EspWolfssl.LengthArithmetic

open ByteRegions TaggedLogs Platform ProgramLogic BackendState PemSearch CertificateLoading
  GlobalStore BackendSteps StoreRefinement HeaderSearch LoadOutcomes WordLengths

variable {b : Build}

/-- The search computes exact sums and ends within a comparison for each byte, or
rejects the header before it reads. -/
structure SearchExact (buf : Buffer) (header : CString) : Prop where
  sums : ¬ buf.len < UInt32.ofNat header.length → SumsExact buf.bytes buf.len header.chars
  ends : ¬ buf.len < UInt32.ofNat header.length →
    ∃ found, headerLoop buf.bytes buf.len header.chars (buf.bytes.length + 1) 0 = .ok found

/-- The lengths of one call: a block has room for the `n` bytes of the buffer and a NUL,
and a `long` is the number of bytes handed over. -/
def LengthExact (n : ℕ) : Event → Prop
  | .malloc _ size => size.toNat = n + 1
  | .loadVerifyBuffer _ _ bytes len _ _ | .useCertificateChainBuffer _ bytes len _ _
  | .usePrivateKeyBuffer _ bytes len _ _ => len.toInt = bytes.length
  | _ => True

/-- The run returns, and the lengths of all its calls are exact. -/
def RunExact (n : ℕ) (w : World b) (out : Except Exit (EspErr × Int32) × World b) : Prop :=
  ∃ r w', out = (.ok r, w') ∧ ∀ entry ∈ w'.log.drop w.log.length, LengthExact n entry.2

def LoadExact (h : Handle) (w : World b) (buf : Buffer) (type : X509FileType)
    (ans : LoadAnswers) : Prop :=
  RunExact buf.bytes.length w (espLoadWolfsslVerifyBuffer h buf.bytes buf.len type ans w)

/-- The block of a set has room for the buffer and a NUL, and the set returns; or the
set is rejected before any memory is touched. -/
def SetExact (w : World b) (buf : Buffer) (malloc : Bool) : Prop :=
  ((buf.len + 1).toNat = buf.bytes.length + 1 ∧
    ∃ e w', espWolfsslSetGlobalCaStore (some buf) malloc w = (.ok e, w')) ∨
  ∃ e, e ≠ .ok ∧ espWolfsslSetGlobalCaStore (some buf) malloc w = (.ok e, w)

/-- All lengths computed from the length of a buffer are exact. -/
structure LengthsExact (buf : Buffer) : Prop where
  search : ∀ header : CString, header.length < 2 ^ 32 → SearchExact buf header
  load : ∀ (b : Build) (h : Handle) (w : World b) (type : X509FileType) (ans : LoadAnswers),
    LoadExact h w buf type ans
  set : ∀ (b : Build) (w : World b) (malloc : Bool), SetExact w buf malloc

/-- The length fits in a `long`; the NUL of a terminated PEM of an authority does not
count, and a PEM that is refused for lack of memory needs its successor only. -/
def LoadFits (buf : Buffer) (type : X509FileType) (ans : LoadAnswers) : Prop :=
  buf.bytes.length ≤ 2 ^ 31 - 1 ∨
    type = .caCert ∧ Occurs headerCertificate.chars buf.bytes ∧
      (buf.bytes.getLast? = some 0 ∧ buf.bytes.length ≤ 2 ^ 31 ∨
        buf.bytes.getLast? ≠ some 0 ∧ ans.malloc = false ∧ buf.bytes.length + 1 < 2 ^ 32)

/-- The successor of the length does not wrap, or there is no memory and no old block. -/
def SetFits (w : World b) (buf : Buffer) (malloc : Bool) : Prop :=
  buf.bytes.length + 1 < 2 ^ 32 ∨ malloc = false ∧ w.globalCacert = none

section Search
variable (buf : Buffer) {header : CString}

theorem searchExact_iff (hheader : header.length < 2 ^ 32) :
    SearchExact buf header ↔
      buf.bytes.length + 1 < 2 ^ 32 ∨ Occurs header.chars buf.bytes := by
  have hlen := buf.len_toNat
  have hsums : header.chars.length ≤ buf.len.toNat →
      (SumsExact buf.bytes buf.len header.chars ↔
        buf.bytes.length + 1 < 2 ^ 32 ∨ Occurs header.chars buf.bytes) := by
    intro hfit
    rw [sumsExact_iff (len_le buf) hfit, take_len, hlen]
  constructor
  · intro hexact
    by_cases hmax : buf.bytes.length + 1 < 2 ^ 32
    · exact Or.inl hmax
    · have hlong : ¬ buf.len < UInt32.ofNat header.length := by
        rw [UInt32.lt_iff_toNat_lt, ofNat_toNat hheader]
        omega
      exact (hsums (length_le_of_long hheader hlong)).mp (hexact.sums hlong)
  · intro hfit
    have hsum : ¬ buf.len < UInt32.ofNat header.length →
        SumsExact buf.bytes buf.len header.chars := fun hlong =>
      (hsums (length_le_of_long hheader hlong)).mpr hfit
    refine ⟨hsum, fun hlong => ?_⟩
    refine headerLoop_ends (hsum hlong) (len_le buf) .start (by omega) ?_
    rw [UInt32.toNat_zero]
    omega

end Search

section Loads
variable (h : Handle) (w : World b) (buf : Buffer) (ans : LoadAnswers)

theorem not_runExact_error {n : ℕ} {e : Exit} {w' : World b} :
    ¬ RunExact n w (.error e, w') := by
  rintro ⟨r, w'', hout, _⟩
  cases hout

theorem runExact_iff {n : ℕ} {r : EspErr × Int32} {w' : World b} {events : List Event}
    (hlog : w'.log = w.log ++ tag h events) :
    RunExact n w (.ok r, w') ↔ ∀ e ∈ events, LengthExact n e := by
  have hdrop : w'.log.drop w.log.length = tag h events := by
    rw [hlog, List.drop_left]
  constructor
  · rintro ⟨r', w'', hout, hexact⟩ e he
    cases hout
    rw [hdrop] at hexact
    exact hexact (h, e) (List.mem_map_of_mem he)
  · intro hexact
    refine ⟨r, w', rfl, ?_⟩
    rw [hdrop]
    intro entry hentry
    obtain ⟨e, he, rfl⟩ := List.mem_map.mp hentry
    exact hexact e he

theorem runExact_record {n : ℕ} {r : EspErr × Int32} (e : Event) :
    RunExact n w (.ok r, w.record h e) ↔ LengthExact n e := by
  have hlog : (w.record h e).log = w.log ++ tag h [e] := rfl
  rw [runExact_iff h w hlog]
  simp

/-- The whole buffer is handed over with its exact length in the lower half. -/
theorem handed_iff : buf.len.toInt32.toInt = (buf.bytes.take buf.len.toNat).length ↔
    buf.bytes.length ≤ 2 ^ 31 - 1 := by
  rw [take_len, ← buf.len_toNat]
  exact toInt32_exact_iff buf.len

theorem block_iff : (buf.len + 1).toNat = buf.bytes.length + 1 ↔
    buf.bytes.length + 1 < 2 ^ 32 := by
  rw [← buf.len_toNat]
  exact succ_toNat_iff

theorem handed_pred_iff (hlast : buf.bytes.getLast? = some 0) :
    (buf.len - 1).toInt32.toInt = (buf.bytes.take (buf.len - 1).toNat).length ↔
      buf.bytes.length ≤ 2 ^ 31 := by
  have hpred := len_pred hlast
  have htake : (buf.bytes.take (buf.len - 1).toNat).length = (buf.len - 1).toNat := by
    rw [List.length_take, Nat.min_eq_left (by omega)]
  rw [htake, toInt32_exact_iff, hpred]
  omega

theorem inPlace_exact (hlast : buf.bytes.getLast? = some 0) :
    RunExact buf.bytes.length w (loadCaCert h buf.bytes buf.len .pem ans w) ↔
      buf.bytes.length ≤ 2 ^ 31 := by
  rw [loadCaCert_inPlace h _ _ ans w (hasNullTerm_true hlast), runExact_record]
  exact handed_pred_iff buf hlast

theorem refused_exact (hlast : buf.bytes.getLast? ≠ some 0) (hmalloc : ans.malloc = false) :
    RunExact buf.bytes.length w (loadCaCert h buf.bytes buf.len .pem ans w) ↔
      buf.bytes.length + 1 < 2 ^ 32 := by
  rw [loadCaCert_noMem h _ _ ans w (hasNullTerm_false hlast) hmalloc, runExact_record]
  exact block_iff buf

/-- A copy needs the successor of the length and the length itself. -/
theorem copied_exact (hlast : buf.bytes.getLast? ≠ some 0) (hmalloc : ans.malloc = true) :
    RunExact buf.bytes.length w (loadCaCert h buf.bytes buf.len .pem ans w) ↔
      buf.bytes.length ≤ 2 ^ 31 - 1 := by
  have hterm := hasNullTerm_false hlast
  by_cases hfit : buf.bytes.length + 1 < 2 ^ 32
  · rw [loadCaCert_copy h _ _ ans w hterm hmalloc (copy_of_fit hfit),
      runExact_iff h w (copied_log h w _ _)]
    have htake : (buf.bytes ++ [0]).take buf.len.toNat = buf.bytes.take buf.len.toNat := by
      rw [take_len, buf.len_toNat, List.take_left]
    simp only [List.mem_cons, List.not_mem_nil, or_false, forall_eq_or_imp, forall_eq,
      LengthExact, htake, block_iff, handed_iff, and_true]
    omega
  · obtain ⟨f, w', hrun⟩ := loadCaCert_fault h buf.bytes buf.len ans w (by simp [hterm])
      fun _ => ⟨hmalloc, _, copy_of_wrap hfit⟩
    rw [hrun]
    exact iff_of_false (not_runExact_error w) (by omega)

/-- The lengths of a PEM load, by the shape of the buffer. -/
theorem loadCaCert_pem_exact :
    RunExact buf.bytes.length w (loadCaCert h buf.bytes buf.len .pem ans w) ↔
      buf.bytes.length ≤ 2 ^ 31 - 1 ∨ buf.bytes.getLast? = some 0 ∧ buf.bytes.length ≤ 2 ^ 31 ∨
        buf.bytes.getLast? ≠ some 0 ∧ ans.malloc = false ∧ buf.bytes.length + 1 < 2 ^ 32 := by
  by_cases hlast : buf.bytes.getLast? = some 0
  · rw [inPlace_exact h w buf ans hlast]
    simp only [hlast, ne_eq, not_true, true_and, false_and, or_false]
    omega
  · by_cases hmalloc : ans.malloc = true
    · rw [copied_exact h w buf ans hlast hmalloc]
      simp only [hlast, hmalloc, false_and, Bool.true_eq_false, and_false, or_false]
    · rw [Bool.not_eq_true] at hmalloc
      rw [refused_exact h w buf ans hlast hmalloc]
      simp only [hlast, hmalloc, ne_eq, not_false_eq_true, true_and, false_and, false_or]
      omega

theorem loadExact_iff (type : X509FileType) :
    LoadExact h w buf type ans ↔ LoadFits buf type ans := by
  unfold LoadExact LoadFits
  rcases search_total buf (headerOf_length type) with
    ⟨pem, hsearch, hpem⟩ | ⟨hmax, habsent, hsearch⟩
  · rw [load_of_search h ans w hsearch]
    cases type with
    | selfCert =>
      rw [runExact_record]
      refine (handed_iff buf).trans ?_
      simp
    | selfKey =>
      rw [runExact_record]
      refine (handed_iff buf).trans ?_
      simp
    | caCert =>
      have hoccurs : pem = true ↔ Occurs headerCertificate.chars buf.bytes := hpem
      rw [← hoccurs]
      cases pem with
      | false =>
        refine (runExact_record h w _).trans ((handed_iff buf).trans ?_)
        simp
      | true =>
        refine (loadCaCert_pem_exact h w buf ans).trans ?_
        simp
  · rw [load_of_searchFault h ans w hsearch]
    refine iff_of_false (not_runExact_error w) ?_
    rintro (hsmall | ⟨rfl, hoccurs, _⟩)
    · omega
    · exact habsent hoccurs

end Loads

section Store
variable (w : World b) (buf : Buffer) (malloc : Bool)

theorem set_returns (hfit : buf.bytes.length + 1 < 2 ^ 32) :
    ∃ e w', espWolfsslSetGlobalCaStore (some buf) malloc w = (.ok e, w') := by
  cases malloc with
  | false => exact ⟨_, _, rfl⟩
  | true =>
    simp only [espWolfsslSetGlobalCaStore, Prog.bind_apply, Prog.modify_apply, if_true,
      storeBlock_eq hfit, Prog.pure_apply]
    exact ⟨_, _, rfl⟩

/-- A set whose length does not fit leaves the state alone only without memory for the
new block and without an old one. -/
theorem set_untouched_iff (hwrap : ¬ buf.bytes.length + 1 < 2 ^ 32) :
    (∃ e, e ≠ .ok ∧ espWolfsslSetGlobalCaStore (some buf) malloc w = (.ok e, w)) ↔
      malloc = false ∧ w.globalCacert = none := by
  cases malloc with
  | true =>
    refine iff_of_false ?_ (by simp)
    rintro ⟨e, _, hrun⟩
    simp only [espWolfsslSetGlobalCaStore, Prog.bind_apply, Prog.modify_apply, if_true,
      storeBlock_wrap hwrap, Prog.stop_apply] at hrun
    cases hrun
  | false =>
    have hrun : espWolfsslSetGlobalCaStore (some buf) false w =
        (.ok .noMem, { espWolfsslFreeGlobalCaStore w with globalCacert := none }) := rfl
    rw [hrun]
    constructor
    · rintro ⟨e, _, hsame⟩
      have hworld := congrArg World.globalCacert (congrArg Prod.snd hsame)
      exact ⟨rfl, hworld.symm⟩
    · rintro ⟨_, hempty⟩
      refine ⟨.noMem, by simp, ?_⟩
      have hfree : espWolfsslFreeGlobalCaStore w = w := by
        simp [espWolfsslFreeGlobalCaStore, hempty]
      rw [hfree, ← hempty]

theorem setExact_iff : SetExact w buf malloc ↔ SetFits w buf malloc := by
  unfold SetExact SetFits
  rw [block_iff]
  by_cases hfit : buf.bytes.length + 1 < 2 ^ 32
  · exact iff_of_true (Or.inl ⟨hfit, set_returns w buf malloc hfit⟩) (Or.inl hfit)
  · rw [set_untouched_iff w buf malloc hfit]
    simp only [hfit, false_and, false_or]

end Store

theorem all_lengths_iff (buf : Buffer) :
    LengthsExact buf ↔ buf.bytes.length ≤ 2 ^ 31 - 1 := by
  constructor
  · intro hexact
    have hload := hexact.load exampleBuild 0 (World.boot exampleBuild true) .selfKey ⟨true, 1⟩
    rw [loadExact_iff] at hload
    rcases hload with hsmall | ⟨htype, _⟩
    · exact hsmall
    · cases htype
  · intro hsmall
    have hfit : buf.bytes.length + 1 < 2 ^ 32 := by omega
    refine ⟨?_, ?_, ?_⟩
    · intro header hheader
      exact (searchExact_iff buf hheader).mpr (Or.inl hfit)
    · intro b h w type ans
      exact (loadExact_iff h w buf ans type).mpr (Or.inl hsmall)
    · intro b w malloc
      exact (setExact_iff w buf malloc).mpr (Or.inl hfit)

/-- For every buffer, each computation of a length is exact in exactly these cases, and
all of them are exactly up to 2^31 - 1 bytes. -/
theorem lengths_exact_iff (buf : Buffer) :
    (∀ header : CString, header.length < 2 ^ 32 →
      (SearchExact buf header ↔
        buf.bytes.length + 1 < 2 ^ 32 ∨ Occurs header.chars buf.bytes)) ∧
    (∀ (b : Build) (h : Handle) (w : World b) (type : X509FileType) (ans : LoadAnswers),
      LoadExact h w buf type ans ↔ LoadFits buf type ans) ∧
    (∀ (b : Build) (w : World b) (malloc : Bool),
      SetExact w buf malloc ↔ SetFits w buf malloc) ∧
    (LengthsExact buf ↔ buf.bytes.length ≤ 2 ^ 31 - 1) := by
  refine ⟨?_, ?_, ?_, all_lengths_iff buf⟩
  · intro header hheader
    exact searchExact_iff buf hheader
  · intro b h w type ans
    exact loadExact_iff h w buf ans type
  · intro b w malloc
    exact setExact_iff w buf malloc

/-- A PEM is searched for its header, loaded and stored. -/
theorem lengths_exact_of_pem :
    SearchExact pemBuffer headerCertificate ∧
      LoadExact 0 (World.boot exampleBuild true) pemBuffer .caCert ⟨true, 1⟩ ∧
      SetExact (World.boot exampleBuild true) pemBuffer true := by
  obtain ⟨hsearch, hload, hset, _⟩ := lengths_exact_iff pemBuffer
  have hfit : pemBuffer.bytes.length + 1 < 2 ^ 32 := by decide
  have hsmall : pemBuffer.bytes.length ≤ 2 ^ 31 - 1 := by decide
  exact ⟨(hsearch headerCertificate (by decide)).mpr (Or.inl hfit),
    (hload _ 0 _ .caCert ⟨true, 1⟩).mpr (Or.inl hsmall), (hset _ _ true).mpr (Or.inl hfit)⟩

theorem exists_buffer {n : ℕ} (hn : n < 2 ^ 32) : ∃ buf : Buffer, buf.bytes.length = n := by
  have hlength : (List.replicate n (0x30 : UInt8)).length = n := List.length_replicate
  exact ⟨⟨List.replicate n 0x30, hlength.trans_lt hn⟩, hlength⟩

/-- The store's block for a buffer of the largest length has no bytes at all. -/
theorem lengths_exact_fails : ¬ ∀ buf : Buffer, LengthsExact buf := by
  intro hexact
  have hmax : 2 ^ 32 - 1 < 2 ^ 32 := by decide
  obtain ⟨buf, hbuf⟩ := exists_buffer hmax
  have hset := (hexact buf).set exampleBuild (World.boot exampleBuild true) true
  rw [setExact_iff] at hset
  rcases hset with hfit | ⟨hmalloc, _⟩
  · omega
  · cases hmalloc

end EspWolfssl.LengthArithmetic
