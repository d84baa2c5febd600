import EspWolfssl.BackendSteps
import EspWolfssl.IoOutcomes
import EspWolfssl.WordLengths

/-!
The code that a failed operation records beside the one it returns. What is
recorded is the negation of the code wolfSSL gives, whatever its sign, while the
returned value is made negative: the two reports agree on negative codes only.
-/
namespace EspWolfssl.RecordedErrors

open Platform ProgramLogic BackendState ConnectionIo BackendSteps IoOutcomes WordLengths

variable {b : Build}

/-- The codes of type `ESP_TLS_ERR_TYPE_CUSTOM_STACK` that a handle has recorded. -/
def stackCodes (t : Tls) : List Int32 :=
  t.errorHandle.filterMap fun
    | .customStack code => some code
    | _ => none

/-- The operation returns `r` and records one code of the stack. -/
def Records (h : Handle) (m : Backend b Int32) (w : World b) (code r : Int32) : Prop :=
  ∃ w', m w = (.ok r, w') ∧ stackCodes (w'.tls h) = stackCodes (w.tls h) ++ [code]

/-- The recorded code is the positive magnitude of the error. -/
def Magnitude (err code : Int32) : Prop := 0 < code.toInt ∧ code.toInt = err.toInt.natAbs

/-- A handshake that fails records the magnitude of the error. -/
def HandshakeAgrees (h : Handle) (m : Backend b Int32) (w : World b) (err : Int32) : Prop :=
  ∃ code r, Records h m w code r ∧ Magnitude err code

/-- A transfer that fails records the magnitude of the error and returns exactly its
negation. -/
def TransferAgrees (h : Handle) (m : Backend b Int32) (w : World b) (err : Int32) : Prop :=
  ∃ code r, Records h m w code r ∧ Magnitude err code ∧ code.toInt = -r.toInt

theorem stackCodes_noting (entries : List Capture) (t : Tls) (code : Int32)
    (hentries : entries.filterMap
      (fun | .customStack code => some code | _ => none) = [code]) :
    stackCodes (noting entries t) = stackCodes t ++ [code] := by
  unfold stackCodes noting
  rw [List.filterMap_append, hentries]

theorem records_of_comes {h : Handle} {m : Backend b Int32} {w : World b} {r : Int32} {t : Tls}
    {code : Int32} (hcomes : Comes h m w r t)
    (ht : stackCodes t = stackCodes (w.tls h) ++ [code]) : Records h m w code r := by
  obtain ⟨w', hrun, htls⟩ := hcomes
  exact ⟨w', hrun, by rw [htls, ht]⟩

/-- An operation has one result and records one code. -/
theorem Records.unique {h : Handle} {m : Backend b Int32} {w : World b} {code code' r r' : Int32}
    (hrec : Records h m w code r) (hrec' : Records h m w code' r') : code = code' ∧ r = r' := by
  obtain ⟨w₁, hrun, hcodes⟩ := hrec
  obtain ⟨w₂, hrun', hcodes'⟩ := hrec'
  rw [hrun] at hrun'
  cases hrun'
  rw [hcodes] at hcodes'
  exact ⟨List.singleton_inj.mp (List.append_cancel_left hcodes'), rfl⟩

/-- The negation of an error is its positive magnitude when the error is negative. -/
theorem magnitude_neg_iff {err : Int32} (hmin : err ≠ Int32.minValue) :
    Magnitude err (-err) ↔ err < 0 := by
  unfold Magnitude
  rw [neg_toInt hmin, Int32.lt_iff_toInt_lt, Int32.toInt_zero]
  constructor
  · rintro ⟨hpos, _⟩
    omega
  · intro hneg
    omega

section Agreement
variable {h : Handle} {m : Backend b Int32} {w : World b} {err r : Int32}

theorem handshakeAgrees_iff (hmin : err ≠ Int32.minValue) (hrec : Records h m w (-err) r) :
    HandshakeAgrees h m w err ↔ err < 0 := by
  rw [← magnitude_neg_iff hmin]
  constructor
  · rintro ⟨code, r', hrec', hcode⟩
    obtain ⟨rfl, _⟩ := hrec.unique hrec'
    exact hcode
  · intro hcode
    exact ⟨-err, r, hrec, hcode⟩

theorem transferAgrees_iff (hmin : err ≠ Int32.minValue) (hfatal : ¬ Retry b.codes err)
    (hrec : Records h m w (-err) (espTlsConvertWolfsslErrToSsize b.codes err)) :
    TransferAgrees h m w err ↔ err < 0 := by
  rw [← magnitude_neg_iff hmin]
  constructor
  · rintro ⟨code, r', hrec', hcode, _⟩
    obtain ⟨rfl, _⟩ := hrec.unique hrec'
    exact hcode
  · intro hcode
    have hneg : err < 0 := (magnitude_neg_iff hmin).mp hcode
    have hnot : ¬ 0 < err := by grind
    refine ⟨-err, _, hrec, hcode, ?_⟩
    rw [convert_other b.codes hfatal, if_neg hnot, neg_toInt hmin]

end Agreement

section Operations
variable (h : Handle) (w : World b) {err : Int32}

theorem handshake_records (cfg : ClientCfg) (flags : Int32) {ret : Int32}
    (hret : ret ≠ wolfsslSuccess) (hfatal : ¬ Retry b.codes err) :
    Records h (espWolfsslHandshake h cfg ⟨ret, err⟩ flags) w (-err) (-1) := by
  refine records_of_comes (handshake_failure h cfg ⟨ret, err⟩ flags w hret hfatal) ?_
  refine stackCodes_noting _ (w.tls h) (-err) ?_
  unfold flagCaptures
  split
  · rfl
  · rfl

theorem read_records (datalen : UInt32) {ret : Int32} (hret : ret < 0)
    (hopen : err ≠ b.codes.zeroReturn) (hfatal : ¬ Retry b.codes err) :
    Records h (espWolfsslRead h datalen ⟨ret, err⟩) w (-err)
      (espTlsConvertWolfsslErrToSsize b.codes err) := by
  refine records_of_comes (read_failure h datalen ⟨ret, err⟩ w hret hopen) ?_
  rw [if_neg hfatal]
  exact stackCodes_noting _ (w.tls h) (-err) rfl

theorem write_records (datalen : UInt32) {ret : Int32} (hret : ret ≤ 0)
    (hfatal : ¬ Retry b.codes err) :
    Records h (espWolfsslWrite h datalen ⟨ret, err⟩) w (-err)
      (espTlsConvertWolfsslErrToSsize b.codes err) := by
  refine records_of_comes (write_failure h datalen ⟨ret, err⟩ w hret) ?_
  rw [if_neg hfatal]
  exact stackCodes_noting _ (w.tls h) (-err) rfl

end Operations

/-- In every state and for every fatal code, what a failed operation records agrees
with the code, and with what a transfer returns, exactly when the code is negative. -/
theorem recorded_codes_agree_iff (h : Handle) (w : World b) {err : Int32}
    (hmin : err ≠ Int32.minValue) (hfatal : ¬ Retry b.codes err) :
    (∀ (cfg : ClientCfg) (flags ret : Int32), ret ≠ wolfsslSuccess →
      (HandshakeAgrees h (espWolfsslHandshake h cfg ⟨ret, err⟩ flags) w err ↔ err < 0)) ∧
    (∀ (datalen : UInt32) (ret : Int32), ret < 0 → err ≠ b.codes.zeroReturn →
      (TransferAgrees h (espWolfsslRead h datalen ⟨ret, err⟩) w err ↔ err < 0)) ∧
    (∀ (datalen : UInt32) (ret : Int32), ret ≤ 0 →
      (TransferAgrees h (espWolfsslWrite h datalen ⟨ret, err⟩) w err ↔ err < 0)) := by
  refine ⟨?_, ?_, ?_⟩
  · intro cfg flags ret hret
    exact handshakeAgrees_iff hmin (handshake_records h w cfg flags hret hfatal)
  · intro datalen ret hret hopen
    exact transferAgrees_iff hmin hfatal (read_records h w datalen hret hopen hfatal)
  · intro datalen ret hret
    exact transferAgrees_iff hmin hfatal (write_records h w datalen hret hfatal)

/-- A fatal alert is recorded as 313 and returned as -313. -/
theorem recorded_codes_agree_on_alert :
    TransferAgrees 0 (espWolfsslRead 0 4 ⟨-1, -313⟩) (World.boot exampleBuild true) (-313) ∧
      TransferAgrees 0 (espWolfsslWrite 0 4 ⟨-1, -313⟩) (World.boot exampleBuild true) (-313) := by
  have hmin : (-313 : Int32) ≠ Int32.minValue := by decide
  obtain ⟨_, hread, hwrite⟩ := recorded_codes_agree_iff 0 (World.boot exampleBuild true) hmin
    (by decide)
  exact ⟨(hread 4 (-1) (by decide) (by decide)).mpr (by decide),
    (hwrite 4 (-1) (by decide)).mpr (by decide)⟩

/-- A write after the peer's close_notify fails with `WOLFSSL_ERROR_ZERO_RETURN`, which
is recorded as -6 and returned as -6. -/
theorem recorded_codes_agree_fails :
    ¬ ∀ (b : Build) (h : Handle) (w : World b) (err : Int32), err ≠ 0 → err ≠ Int32.minValue →
      ¬ Retry b.codes err →
        (∀ (cfg : ClientCfg) (flags ret : Int32), ret ≠ wolfsslSuccess →
          HandshakeAgrees h (espWolfsslHandshake h cfg ⟨ret, err⟩ flags) w err) ∧
        (∀ (datalen : UInt32) (ret : Int32), ret < 0 → err ≠ b.codes.zeroReturn →
          TransferAgrees h (espWolfsslRead h datalen ⟨ret, err⟩) w err) ∧
        (∀ (datalen : UInt32) (ret : Int32), ret ≤ 0 →
          TransferAgrees h (espWolfsslWrite h datalen ⟨ret, err⟩) w err) := by
  intro hagree
  obtain ⟨_, _, hwrite⟩ := hagree exampleBuild 0 (World.boot exampleBuild true) 6
    (by decide) (by decide) (by decide)
  obtain ⟨code, r, hrec, hcode, _⟩ := hwrite 4 (-1) (by decide)
  have hret : (-1 : Int32) ≤ 0 := by decide
  have hfatal : ¬ Retry exampleBuild.codes 6 := by decide
  have hrec' := write_records 0 (World.boot exampleBuild true) 4 hret hfatal
  obtain ⟨rfl, _⟩ := hrec'.unique hrec
  exact absurd hcode.1 (by decide)

end EspWolfssl.RecordedErrors
