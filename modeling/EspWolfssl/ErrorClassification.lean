import EspWolfssl.BackendSteps
import EspWolfssl.IoOutcomes

/-!
The four connection operations agree on which error codes are retries. A retry
leaves the handle alone and is reported as one; any other code fails the
operation. A server session goes on accepting until the first answer that is
not a retry, however many come before it.
-/
namespace EspWolfssl.ErrorClassification

open TaggedLogs Platform ProgramLogic BackendState HandleCreation ConnectionIo BackendSteps
  IoOutcomes

variable {b : Build}

/-- The retry codes of esp-tls are neither the code nor its negation. -/
def Apart (c : Codes) (err : Int32) : Prop :=
  (err ≠ c.espWantRead ∧ -err ≠ c.espWantRead) ∧ err ≠ c.espWantWrite ∧ -err ≠ c.espWantWrite

instance (c : Codes) (err : Int32) : Decidable (Apart c err) := by
  unfold Apart
  infer_instance

/-- The value reports the retry that the code stands for. -/
def ReportsRetry (c : Codes) (err r : Int32) : Prop :=
  (err = c.wantRead → r = c.espWantRead) ∧ (err = c.wantWrite → r = c.espWantWrite)

/-- The value reports no retry. -/
def NoRetry (c : Codes) (r : Int32) : Prop := r ≠ c.espWantRead ∧ r ≠ c.espWantWrite

/-- A failing call with the code is tried again: the handle stays as it was. -/
structure Retried (h : Handle) (w : World b) (err : Int32) : Prop where
  handshake : ∀ (cfg : ClientCfg) (flags ret : Int32), ret ≠ wolfsslSuccess →
    Comes h (espWolfsslHandshake h cfg ⟨ret, err⟩ flags) w 0 (w.tls h)
  read : ∀ (datalen : UInt32) (ret : Int32), ret < 0 →
    ∃ r, Comes h (espWolfsslRead h datalen ⟨ret, err⟩) w r (w.tls h) ∧
      ReportsRetry b.codes err r
  write : ∀ (datalen : UInt32) (ret : Int32), ret ≤ 0 →
    ∃ r, Comes h (espWolfsslWrite h datalen ⟨ret, err⟩) w r (w.tls h) ∧
      ReportsRetry b.codes err r
  accept : ∀ (rest : List CallAnswer) (ret : Int32), ret ≠ wolfsslSuccess →
    ∃ w', acceptLoop h (⟨ret, err⟩ :: rest) w = acceptLoop h rest w' ∧ w'.tls = w.tls

/-- A failing call with the code fails the operation, and the clients record the
code unless it is the end of the stream on a read. -/
structure Fails (h : Handle) (w : World b) (err : Int32) : Prop where
  handshake : ∀ (cfg : ClientCfg) (flags ret : Int32), ret ≠ wolfsslSuccess →
    ∃ entries, Comes h (espWolfsslHandshake h cfg ⟨ret, err⟩ flags) w (-1)
      { noting (.customStack (-err) :: entries) (w.tls h) with connState := .fail }
  read : ∀ (datalen : UInt32) (ret : Int32), ret < 0 →
    ∃ r, Comes h (espWolfsslRead h datalen ⟨ret, err⟩) w r
        (if err = b.codes.zeroReturn then w.tls h else noting [.customStack (-err)] (w.tls h)) ∧
      NoRetry b.codes r ∧ (err = b.codes.zeroReturn → r = 0)
  write : ∀ (datalen : UInt32) (ret : Int32), ret ≤ 0 →
    ∃ r, Comes h (espWolfsslWrite h datalen ⟨ret, err⟩) w r
        (noting [.customStack (-err)] (w.tls h)) ∧ NoRetry b.codes r
  accept : ∀ (rest : List CallAnswer) (ret : Int32), ret ≠ wolfsslSuccess →
    Comes h (acceptLoop h (⟨ret, err⟩ :: rest)) w (-1) { w.tls h with connState := .fail }

/-- The handle of a server session while it accepts, behind its creation. -/
def accepting (h : Handle) (w₁ : World b) : Tls := { w₁.tls h with customStackIo := true }

/-- After the given retries the session waits, and the next answer that is not a
retry ends it. It makes one call of accept for each of these answers. -/
structure Serves (h : Handle) (cfg : ServerCfg) (sockfd : Int32) (ans : CreateAnswers)
    (w w₁ : World b) (retries : List CallAnswer) : Prop where
  waits : ∃ w₂, espWolfsslServerSessionCreate (some h) (some cfg) sockfd ans retries w =
      (.error .waiting, w₂) ∧ w₂.tls h = accepting h w₁
  ends : ∀ (final : CallAnswer) (rest : List CallAnswer), ¬ AcceptRetry b.codes final →
    ∃ w₂, espWolfsslServerSessionCreate (some h) (some cfg) sockfd ans
        (retries ++ final :: rest) w =
          (.ok (if final.ret = wolfsslSuccess then 0 else -1), w₂) ∧
      w₂.tls h = (if final.ret = wolfsslSuccess then accepting h w₁
        else { accepting h w₁ with connState := .fail }) ∧
      w₂.log = w₁.log ++ tag h ((retries ++ [final]).flatMap (acceptCalls (w₁.tls h).privSsl))

theorem convert_reportsRetry (c : Codes) (err : Int32) :
    ReportsRetry c err (espTlsConvertWolfsslErrToSsize c err) := by
  constructor
  · rintro rfl
    exact convert_wantRead c
  · rintro rfl
    exact convert_wantWrite c

theorem convert_noRetry {c : Codes} {err : Int32} (hapart : Apart c err) (herr : ¬ Retry c err) :
    NoRetry c (espTlsConvertWolfsslErrToSsize c err) := by
  obtain ⟨⟨hread, hread'⟩, hwrite, hwrite'⟩ := hapart
  rw [convert_other c herr]
  split
  · exact ⟨hread', hwrite'⟩
  · exact ⟨hread, hwrite⟩

theorem zero_noRetry (c : Codes) : NoRetry c 0 := by
  have hread := c.espWantRead_neg
  have hwrite := c.espWantWrite_neg
  constructor
  · grind
  · grind

theorem retried_of_retry (h : Handle) (w : World b) {err : Int32} (herr : Retry b.codes err) :
    Retried h w err where
  handshake cfg flags ret hret := handshake_retry h cfg ⟨ret, err⟩ flags w hret herr
  read datalen ret hret := by
    have hopen : err ≠ b.codes.zeroReturn := by
      rintro rfl
      exact zeroReturn_not_retry b.codes herr
    have hcomes := read_failure h datalen ⟨ret, err⟩ w hret hopen
    simp only [herr, if_true] at hcomes
    exact ⟨_, hcomes, convert_reportsRetry b.codes err⟩
  write datalen ret hret := by
    have hcomes := write_failure h datalen ⟨ret, err⟩ w hret
    simp only [herr, if_true] at hcomes
    exact ⟨_, hcomes, convert_reportsRetry b.codes err⟩
  accept rest ret hret := ⟨_, acceptLoop_retry h w rest ⟨hret, herr⟩, rfl⟩

theorem fails_of_other (h : Handle) (w : World b) {err : Int32} (hapart : Apart b.codes err)
    (herr : ¬ Retry b.codes err) : Fails h w err where
  handshake cfg flags ret hret :=
    ⟨_, handshake_failure h cfg ⟨ret, err⟩ flags w hret herr⟩
  read datalen ret hret := by
    by_cases hclosed : err = b.codes.zeroReturn
    · rw [if_pos hclosed]
      exact ⟨0, read_closed h datalen ⟨ret, err⟩ w hret hclosed, zero_noRetry b.codes,
        fun _ => rfl⟩
    · have hcomes := read_failure h datalen ⟨ret, err⟩ w hret hclosed
      simp only [herr, if_false] at hcomes
      rw [if_neg hclosed]
      exact ⟨_, hcomes, convert_noRetry hapart herr, fun heq => absurd heq hclosed⟩
  write datalen ret hret := by
    have hcomes := write_failure h datalen ⟨ret, err⟩ w hret
    simp only [herr, if_false] at hcomes
    exact ⟨_, hcomes, convert_noRetry hapart herr⟩
  accept rest ret hret := by
    have hfinal : ¬ AcceptRetry b.codes ⟨ret, err⟩ := fun hretry => herr hretry.2
    have hrun := acceptLoop_final h w rest hfinal
    rw [if_neg hret] at hrun
    exact ⟨_, hrun, by simp [logging]⟩

/-- Behind an accepted creation the session is the accept loop. -/
theorem serverSessionCreate_accepts {h : Handle} {cfg : ServerCfg} {sockfd : Int32}
    {ans : CreateAnswers} {w w₁ : World b} (accepts : List CallAnswer)
    (hcreate : espWolfsslCreateSslHandle h [] (.server cfg) ans
      (w.setEndpoint h .server sockfd) = (.ok .ok, w₁)) :
    espWolfsslServerSessionCreate (some h) (some cfg) sockfd ans accepts w =
      acceptLoop h accepts (w₁.updateTls h fun t => { t with customStackIo := true }) := by
  simp only [espWolfsslServerSessionCreate, Prog.bind_apply, Prog.modify_apply, hcreate,
    if_true]

theorem serves_of_created {h : Handle} {cfg : ServerCfg} {sockfd : Int32}
    {ans : CreateAnswers} {w w₁ : World b} {retries : List CallAnswer}
    (hcreate : espWolfsslCreateSslHandle h [] (.server cfg) ans
      (w.setEndpoint h .server sockfd) = (.ok .ok, w₁))
    (hretries : ∀ ans ∈ retries, AcceptRetry b.codes ans) :
    Serves h cfg sockfd ans w w₁ retries where
  waits := by
    have hloop := acceptLoop_retries h
      (w₁.updateTls h fun t => { t with customStackIo := true }) retries [] hretries
    rw [List.append_nil, ← serverSessionCreate_accepts retries hcreate] at hloop
    exact ⟨_, hloop, by simp [logging, accepting]⟩
  ends final rest hfinal := by
    have hloop := acceptLoop_retries h
      (w₁.updateTls h fun t => { t with customStackIo := true }) retries (final :: rest) hretries
    rw [acceptLoop_final h _ rest hfinal,
      ← serverSessionCreate_accepts (retries ++ final :: rest) hcreate] at hloop
    by_cases hret : final.ret = wolfsslSuccess
    · rw [if_pos hret] at hloop
      refine ⟨_, by rw [hloop, if_pos hret], ?_, ?_⟩
      · simp [logging, accepting, hret]
      · simp [logging, List.append_assoc]
    · rw [if_neg hret] at hloop
      refine ⟨_, by rw [hloop, if_neg hret], ?_, ?_⟩
      · simp [logging, accepting, hret]
      · simp [logging, List.append_assoc]

/-- In every state the operations classify every code of a failing call alike,
and a server session accepts until the first answer that is not a retry. -/
theorem errors_classified (h : Handle) (w : World b) :
    (∀ err, Apart b.codes err → (Retry b.codes err → Retried h w err) ∧
      (¬ Retry b.codes err → Fails h w err)) ∧
    ∀ (cfg : ServerCfg) (sockfd : Int32) (ans : CreateAnswers) (w₁ : World b),
      espWolfsslCreateSslHandle h [] (.server cfg) ans (w.setEndpoint h .server sockfd) =
          (.ok .ok, w₁) →
        ∀ retries : List CallAnswer, (∀ ans ∈ retries, AcceptRetry b.codes ans) →
          Serves h cfg sockfd ans w w₁ retries := by
  constructor
  · intro err hapart
    exact ⟨retried_of_retry h w, fails_of_other h w hapart⟩
  · intro cfg sockfd ans w₁ hcreate retries hretries
    exact serves_of_created hcreate hretries

/-- A retry, a fatal alert, and a session whose client needs three calls. -/
theorem errors_classified_at_boot :
    Retried 0 (World.boot exampleBuild true) 2 ∧
      Fails 0 (World.boot exampleBuild true) (-313) ∧
      ∃ w₁, Serves 0 plainServer 3 allSucceed (World.boot exampleBuild true) w₁
        [⟨-1, 2⟩, ⟨-1, 3⟩] := by
  have hcreate : ∃ w₁, espWolfsslCreateSslHandle 0 [] (.server plainServer) allSucceed
      ((World.boot exampleBuild true).setEndpoint 0 .server 3) = (.ok .ok, w₁) := ⟨_, rfl⟩
  obtain ⟨w₁, hcreate⟩ := hcreate
  obtain ⟨hcodes, hsession⟩ := errors_classified 0 (World.boot exampleBuild true)
  refine ⟨(hcodes 2 (by decide)).1 (by decide), (hcodes (-313) (by decide)).2 (by decide), w₁, ?_⟩
  apply hsession plainServer 3 allSucceed w₁ hcreate
  intro ans hans
  simp only [List.mem_cons, List.not_mem_nil, or_false] at hans
  rcases hans with rfl | rfl
  · exact ⟨by decide, Or.inl rfl⟩
  · exact ⟨by decide, Or.inr rfl⟩

end EspWolfssl.ErrorClassification
