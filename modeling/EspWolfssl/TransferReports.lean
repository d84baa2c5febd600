import EspWolfssl.BackendSteps
import EspWolfssl.IoOutcomes
import EspWolfssl.WordLengths

/-!
What the callers of reading and writing are told. A read that failed with zero
is passed on as a clean end of the stream, and a call that wolfSSL rejects
without recording an error is reported as zero by both.
-/
namespace EspWolfssl.TransferReports

open Platform ProgramLogic BackendState ConnectionIo BackendSteps IoOutcomes
  WordLengths

variable {b : Build}

/-- What `wolfSSL_read` and `wolfSSL_write` may answer for a size: a count of at
most that size or a failure with any code, and for a negative size a rejection
that records no error. -/
structure Answers (size : Int32) (ans : CallAnswer) : Prop where
  count_le : 0 < ans.ret → ans.ret ≤ size
  rejected : size < 0 → ans.ret < 0 ∧ ans.err = 0

/-- The report `r` of a transfer is true: zero means the end of the stream, a
positive value is the count of a call that succeeded, and a failure is negative
unless it is the end of the stream. -/
structure Truthful (endOfStream : Prop) (datalen : UInt32) (ans : CallAnswer) (r : Int32) :
    Prop where
  zero : r = 0 → endOfStream
  positive : 0 < r → 0 < ans.ret ∧ r = ans.ret ∧ r.toInt ≤ datalen.toNat
  failure : ans.ret ≤ 0 → r < 0 ∨ r = 0 ∧ endOfStream

/-- The read failed with a negative value and an error, or at the end of the
stream, or did not fail. -/
def ReadSignalled (c : Codes) (ans : CallAnswer) : Prop :=
  ans.ret ≤ 0 → ans.err = c.zeroReturn ∨ ans.ret < 0 ∧ ans.err ≠ 0

/-- The write failed with an error or did not fail. -/
def WriteSignalled (ans : CallAnswer) : Prop := ans.ret ≤ 0 → ans.err ≠ 0

theorem truthful_success {endOfStream : Prop} {datalen : UInt32} {ans : CallAnswer}
    (hans : Answers datalen.toInt32 ans) (hret : 0 < ans.ret) :
    Truthful endOfStream datalen ans ans.ret where
  zero hzero := by grind
  positive _ := by
    have hle := hans.count_le hret
    have hsize : 0 ≤ datalen.toInt32 := by grind
    rw [Int32.le_iff_toInt_le, toInt32_of_nonneg hsize] at hle
    exact ⟨hret, rfl, hle⟩
  failure hfail := by grind

theorem truthful_failure_iff {endOfStream : Prop} {datalen : UInt32} {ans : CallAnswer}
    {r : Int32} (hret : ans.ret ≤ 0) :
    Truthful endOfStream datalen ans r ↔ r < 0 ∨ r = 0 ∧ endOfStream := by
  constructor
  · intro h
    exact h.failure hret
  · intro h
    refine ⟨?_, ?_, fun _ => h⟩
    · intro hzero
      rcases h with hneg | ⟨_, hend⟩
      · grind
      · exact hend
    · intro hpos
      grind

theorem read_truthful_iff (h : Handle) {datalen : UInt32} {ans : CallAnswer}
    (hans : Answers datalen.toInt32 ans) (w : World b) :
    ∃ r w', espWolfsslRead h datalen ans w = (.ok r, w') ∧
      (Truthful (ans.err = b.codes.zeroReturn) datalen ans r ↔ ReadSignalled b.codes ans) := by
  unfold ReadSignalled
  by_cases hneg : ans.ret < 0
  · have hfail : ans.ret ≤ 0 := by grind
    by_cases hclosed : ans.err = b.codes.zeroReturn
    · obtain ⟨w', hrun, _⟩ := read_closed h datalen ans w hneg hclosed
      refine ⟨0, w', hrun, ?_⟩
      rw [truthful_failure_iff hfail]
      simp [hclosed]
    · obtain ⟨w', hrun, _⟩ := read_failure h datalen ans w hneg hclosed
      refine ⟨_, w', hrun, ?_⟩
      rw [truthful_failure_iff hfail, convert_neg_iff]
      simp [hclosed, hneg, hfail]
  · have hnonneg : 0 ≤ ans.ret := by grind
    obtain ⟨w', hrun, _⟩ := read_success h datalen ans w hnonneg
    refine ⟨ans.ret, w', hrun, ?_⟩
    by_cases hpos : 0 < ans.ret
    · have hnot : ¬ ans.ret ≤ 0 := by grind
      simp [truthful_success hans hpos, hnot]
    · have hzero : ans.ret = 0 := by grind
      rw [truthful_failure_iff (by grind)]
      simp [hzero]

theorem write_truthful_iff (h : Handle) {datalen : UInt32} {ans : CallAnswer}
    (hans : Answers datalen.toInt32 ans) (w : World b) :
    ∃ r w', espWolfsslWrite h datalen ans w = (.ok r, w') ∧
      (Truthful False datalen ans r ↔ WriteSignalled ans) := by
  unfold WriteSignalled
  by_cases hfail : ans.ret ≤ 0
  · obtain ⟨w', hrun, _⟩ := write_failure h datalen ans w hfail
    refine ⟨_, w', hrun, ?_⟩
    rw [truthful_failure_iff hfail, convert_neg_iff]
    simp [hfail]
  · have hpos : 0 < ans.ret := by grind
    obtain ⟨w', hrun, _⟩ := write_success h datalen ans w hpos
    refine ⟨ans.ret, w', hrun, ?_⟩
    simp [truthful_success hans hpos, hfail]

/-- Both transfers return, and each is reported truthfully exactly when wolfSSL
signals its failure in the value that the backend tests and with a code. -/
theorem transfers_truthful_iff (h : Handle) {datalen : UInt32}
    {ans : CallAnswer} (hans : Answers datalen.toInt32 ans) (w : World b) :
    (∃ r w', espWolfsslRead h datalen ans w = (.ok r, w') ∧
      (Truthful (ans.err = b.codes.zeroReturn) datalen ans r ↔ ReadSignalled b.codes ans)) ∧
    (∃ r w', espWolfsslWrite h datalen ans w = (.ok r, w') ∧
      (Truthful False datalen ans r ↔ WriteSignalled ans)) :=
  ⟨read_truthful_iff h hans w, write_truthful_iff h hans w⟩

theorem transfers_truthful_of_count :
    (∃ r w', espWolfsslRead 0 4 ⟨2, 0⟩ (World.boot exampleBuild true) = (.ok r, w') ∧
      (Truthful ((0 : Int32) = Codes.idf.zeroReturn) 4 ⟨2, 0⟩ r ↔
        ReadSignalled Codes.idf ⟨2, 0⟩)) ∧
    (∃ r w', espWolfsslWrite 0 4 ⟨2, 0⟩ (World.boot exampleBuild true) = (.ok r, w') ∧
      (Truthful False 4 ⟨2, 0⟩ r ↔ WriteSignalled ⟨2, 0⟩)) :=
  transfers_truthful_iff 0 ⟨fun _ => by decide, fun hneg => absurd hneg (by decide)⟩ _

/-- The peer dropped the connection, which `wolfSSL_read` answers with zero and
`SOCKET_PEER_CLOSED_E`. -/
theorem transfers_truthful_fails :
    ¬ ∀ (b : Build) (h : Handle) (datalen : UInt32) (ans : CallAnswer) (w : World b),
      0 < datalen → Answers datalen.toInt32 ans →
        (∀ r w', espWolfsslRead h datalen ans w = (.ok r, w') →
          Truthful (ans.err = b.codes.zeroReturn) datalen ans r) ∧
        (∀ r w', espWolfsslWrite h datalen ans w = (.ok r, w') →
          Truthful False datalen ans r) := by
  intro htruthful
  have hans : Answers (1 : UInt32).toInt32 ⟨0, -397⟩ :=
    ⟨fun _ => by decide, fun hneg => absurd hneg (by decide)⟩
  have hread := (htruthful exampleBuild 0 1 ⟨0, -397⟩ (World.boot exampleBuild true)
    (by decide) hans).1
  have hclosed : (-397 : Int32) = 6 := (hread 0 _ rfl).zero rfl
  exact absurd hclosed (by decide)

end EspWolfssl.TransferReports
