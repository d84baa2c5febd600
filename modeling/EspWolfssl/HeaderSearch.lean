import EspWolfssl.PemSearch
import EspWolfssl.WordLengths

/-!
The search for a header, index by index. While the sums of the loop condition do
not wrap, the search ends and finds exactly the occurrences inside the first `len`
bytes; and a sum wraps only in a buffer of the largest length that lacks the header.
-/
namespace EspWolfssl.HeaderSearch

open ByteRegions Platform PemSearch WordLengths

/-- The loop arrives at an index: at zero, and behind every comparison that failed. -/
inductive Visits (mem : List UInt8) (len : UInt32) (header : List UInt8) : UInt32 → Prop
  | start : Visits mem len header 0
  | next {i : UInt32} : Visits mem len header i → i + UInt32.ofNat header.length ≤ len →
      memcmp mem i.toNat header = some false → Visits mem len header (i + 1)

inductive Stops (mem : List UInt8) (len : UInt32) (header : List UInt8) :
    Except Fault Bool → Prop
  | found {i : UInt32} : Visits mem len header i → i + UInt32.ofNat header.length ≤ len →
      memcmp mem i.toNat header = some true → Stops mem len header (.ok true)
  | absent {i : UInt32} : Visits mem len header i → ¬ i + UInt32.ofNat header.length ≤ len →
      Stops mem len header (.ok false)
  | outside {i : UInt32} : Visits mem len header i → i + UInt32.ofNat header.length ≤ len →
      memcmp mem i.toNat header = none → Stops mem len header (.error .outOfBounds)

/-- The search compares the byte at an index. -/
def Reads (mem : List UInt8) (len : UInt32) (header : List UInt8) (k : ℕ) : Prop :=
  ¬ len < UInt32.ofNat header.length ∧ ∃ i, Visits mem len header i ∧
    i + UInt32.ofNat header.length ≤ len ∧ i.toNat ≤ k ∧ k < i.toNat + header.length

/-- The sums of the loop condition have their mathematical values. -/
def SumsExact (mem : List UInt8) (len : UInt32) (header : List UInt8) : Prop :=
  ∀ i, Visits mem len header i →
    (i + UInt32.ofNat header.length).toNat = i.toNat + header.length

section Loop
variable {mem header : List UInt8} {len i : UInt32}

theorem headerLoop_stops (fuel : ℕ) (hvisit : Visits mem len header i) :
    headerLoop mem len header fuel i = .error .endlessLoop ∨
      Stops mem len header (headerLoop mem len header fuel i) := by
  induction fuel generalizing i with
  | zero => exact Or.inl rfl
  | succ fuel ih =>
    unfold headerLoop
    by_cases hle : i + UInt32.ofNat header.length ≤ len
    · rw [if_pos hle]
      cases hcmp : memcmp mem i.toNat header with
      | none => exact Or.inr (.outside hvisit hle hcmp)
      | some equal =>
        cases equal with
        | true => exact Or.inr (.found hvisit hle hcmp)
        | false => exact ih (.next hvisit hle hcmp)
    · rw [if_neg hle]
      exact Or.inr (.absent hvisit hle)

theorem le_iff_of_visits (hexact : SumsExact mem len header) (hvisit : Visits mem len header i) :
    i + UInt32.ofNat header.length ≤ len ↔ i.toNat + header.length ≤ len.toNat := by
  rw [UInt32.le_iff_toNat_le, hexact i hvisit]

theorem next_toNat (hexact : SumsExact mem len header) (hvisit : Visits mem len header i)
    (hle : i + UInt32.ofNat header.length ≤ len) (hcmp : memcmp mem i.toNat header = some false) :
    (i + 1).toNat = i.toNat + 1 := by
  obtain ⟨hpos, _⟩ := memcmp_false hcmp
  have hlen : len.toNat < 2 ^ 32 := len.toNat_lt
  rw [le_iff_of_visits hexact hvisit] at hle
  exact succ_toNat_iff.mpr (by omega)

theorem reads_lt (hexact : SumsExact mem len header) {k : ℕ} (hread : Reads mem len header k) :
    k < len.toNat := by
  obtain ⟨_, i, hvisit, hle, _, hk⟩ := hread
  rw [le_iff_of_visits hexact hvisit] at hle
  omega

theorem visits_absent (hexact : SumsExact mem len header) (hvisit : Visits mem len header i) :
    ∀ j < i.toNat, (mem.drop j).take header.length ≠ header := by
  induction hvisit with
  | start =>
    intro j hj
    rw [UInt32.toNat_zero] at hj
    omega
  | @next i hvisit hle hcmp ih =>
    intro j hj
    rw [next_toNat hexact hvisit hle hcmp] at hj
    by_cases hji : j = i.toNat
    · rw [hji]
      exact (memcmp_false hcmp).2
    · exact ih j (by omega)

/-- The loop ends, after a comparison for each index at most. -/
theorem headerLoop_ends (hexact : SumsExact mem len header) (hmem : len.toNat ≤ mem.length)
    {fuel : ℕ} (hvisit : Visits mem len header i) (hfuel : 0 < fuel)
    (hroom : len.toNat + 1 ≤ i.toNat + fuel) :
    ∃ found, headerLoop mem len header fuel i = .ok found := by
  induction fuel generalizing i with
  | zero => omega
  | succ fuel ih =>
    unfold headerLoop
    by_cases hle : i + UInt32.ofNat header.length ≤ len
    · have hend := (le_iff_of_visits hexact hvisit).mp hle
      rw [if_pos hle]
      have hfit : memcmp mem i.toNat header =
          some ((mem.drop i.toNat).take header.length == header) := memcmp_of_fit (by omega)
      cases hcmp : memcmp mem i.toNat header with
      | none =>
        rw [hfit] at hcmp
        cases hcmp
      | some equal =>
        cases equal with
        | true => exact ⟨true, rfl⟩
        | false =>
          obtain ⟨hpos, _⟩ := memcmp_false hcmp
          have hnext := next_toNat hexact hvisit hle hcmp
          exact ih (.next hvisit hle hcmp) (by omega) (by omega)
    · rw [if_neg hle]
      exact ⟨false, rfl⟩

theorem stops_iff (hexact : SumsExact mem len header) {found : Bool}
    (hstop : Stops mem len header (.ok found)) :
    found = true ↔
      ∃ j, j + header.length ≤ len.toNat ∧ (mem.drop j).take header.length = header := by
  cases hstop with
  | @found i hvisit hle hcmp =>
    have hend := (le_iff_of_visits hexact hvisit).mp hle
    exact iff_of_true rfl ⟨i.toNat, hend, memcmp_true hcmp⟩
  | @absent i hvisit hle =>
    rw [le_iff_of_visits hexact hvisit] at hle
    refine iff_of_false (by simp) ?_
    rintro ⟨j, hend, hblock⟩
    exact visits_absent hexact hvisit j (by omega) hblock

theorem sumsExact_of_fit (hfit : header.length ≤ len.toNat) (hmax : len.toNat + 1 < 2 ^ 32) :
    SumsExact mem len header := by
  have hbound : ∀ i, Visits mem len header i → i.toNat + header.length ≤ len.toNat + 1 := by
    intro i hvisit
    induction hvisit with
    | start =>
      rw [UInt32.toNat_zero]
      omega
    | @next i hvisit hle hcmp ih =>
      obtain ⟨hpos, _⟩ := memcmp_false hcmp
      rw [UInt32.le_iff_toNat_le, add_toNat (by omega)] at hle
      have hnext : (i + 1).toNat = i.toNat + 1 := succ_toNat_iff.mpr (by omega)
      omega
  intro i hvisit
  have hle := hbound i hvisit
  exact add_toNat (by omega)

/-- The loop does not go past an occurrence, so no sum before it wraps. -/
theorem sumsExact_of_occurs {j : ℕ} (hend : j + header.length ≤ len.toNat)
    (hblock : (mem.drop j).take header.length = header) : SumsExact mem len header := by
  have hlen : len.toNat < 2 ^ 32 := len.toNat_lt
  have hbound : ∀ i, Visits mem len header i → i.toNat ≤ j := by
    intro i hvisit
    induction hvisit with
    | start =>
      rw [UInt32.toNat_zero]
      omega
    | @next i hvisit hle hcmp ih =>
      obtain ⟨hpos, hother⟩ := memcmp_false hcmp
      have hne : i.toNat ≠ j := by
        rintro rfl
        exact hother hblock
      have hnext : (i + 1).toNat = i.toNat + 1 := succ_toNat_iff.mpr (by omega)
      omega
  intro i hvisit
  have hle := hbound i hvisit
  exact add_toNat (by omega)

/-- Without an occurrence the loop arrives at every index that leaves room. -/
theorem visits_of_absent (hmem : len.toNat ≤ mem.length) (hpos : 0 < header.length)
    (habsent : ∀ j, j + header.length ≤ len.toNat → (mem.drop j).take header.length ≠ header)
    {n : ℕ} (hn : n + header.length ≤ len.toNat + 1) :
    Visits mem len header (UInt32.ofNat n) := by
  have hlen : len.toNat < 2 ^ 32 := len.toNat_lt
  induction n with
  | zero => exact .start
  | succ n ih =>
    have hvalue : (UInt32.ofNat n).toNat = n := ofNat_toNat (by omega)
    have hsum : (UInt32.ofNat n + UInt32.ofNat header.length).toNat = n + header.length := by
      rw [add_toNat (by omega), hvalue]
    have hle : UInt32.ofNat n + UInt32.ofNat header.length ≤ len := by
      rw [UInt32.le_iff_toNat_le, hsum]
      omega
    have hcmp : memcmp mem (UInt32.ofNat n).toNat header = some false := by
      rw [hvalue, memcmp_of_fit (by omega)]
      simpa using habsent n (by omega)
    have hnext := Visits.next (ih (by omega)) hle hcmp
    have hsucc : UInt32.ofNat n + 1 = UInt32.ofNat (n + 1) := by
      rw [UInt32.ofNat_add]
      rfl
    rwa [hsucc] at hnext

end Loop

theorem occurs_take_iff {mem header : List UInt8} {n : ℕ} (hmem : n ≤ mem.length) :
    Occurs header (mem.take n) ↔
      ∃ j, j + header.length ≤ n ∧ (mem.drop j).take header.length = header := by
  have htake : (mem.take n).length = n := by
    rw [List.length_take, Nat.min_eq_left hmem]
  have hblock : ∀ j, j + header.length ≤ n →
      ((mem.take n).drop j).take header.length = (mem.drop j).take header.length := by
    intro j hj
    rw [List.drop_take, List.take_take, Nat.min_eq_left (by omega)]
  rw [occurs_iff_offset, htake]
  constructor
  · rintro ⟨j, hend, hj⟩
    exact ⟨j, hend, (hblock j hend).symm.trans hj⟩
  · rintro ⟨j, hend, hj⟩
    exact ⟨j, hend, (hblock j hend).trans hj⟩

section Search
variable {mem : List UInt8} {len : UInt32}

/-- The loop condition is exact exactly below the largest length, and where the header
ends the loop before the sum can wrap. -/
theorem sumsExact_iff {header : List UInt8} (hmem : len.toNat ≤ mem.length)
    (hfit : header.length ≤ len.toNat) :
    SumsExact mem len header ↔
      len.toNat + 1 < 2 ^ 32 ∨ Occurs header (mem.take len.toNat) := by
  rw [occurs_take_iff hmem]
  constructor
  · intro hexact
    by_contra hneither
    rw [not_or] at hneither
    obtain ⟨hmax, habsent⟩ := hneither
    have hlen : len.toNat < 2 ^ 32 := len.toNat_lt
    have hpos : 0 < header.length := by
      by_contra hzero
      have hnil : header = [] := List.eq_nil_of_length_eq_zero (by omega)
      exact habsent ⟨0, by omega, by simp [hnil]⟩
    have hvisit : Visits mem len header (UInt32.ofNat (2 ^ 32 - header.length)) := by
      refine visits_of_absent hmem hpos ?_ (by omega)
      intro j hj heq
      exact habsent ⟨j, hj, heq⟩
    have hvalue : (UInt32.ofNat (2 ^ 32 - header.length)).toNat = 2 ^ 32 - header.length :=
      ofNat_toNat (by omega)
    have hsum := (add_toNat_iff (by omega)).mp (hexact _ hvisit)
    omega
  · rintro (hmax | ⟨j, hend, hj⟩)
    · exact sumsExact_of_fit hfit hmax
    · exact sumsExact_of_occurs hend hj

theorem search_short {header : CString} (hmem : len.toNat ≤ mem.length)
    (hheader : header.length < 2 ^ 32) (hshort : len < UInt32.ofNat header.length) :
    espWolfsslBufHasPemHeader (some mem) len header = .ok false ∧
      ¬ Occurs header.chars (mem.take len.toNat) := by
  refine ⟨by simp only [espWolfsslBufHasPemHeader, hshort, if_true], ?_⟩
  rw [UInt32.lt_iff_toNat_lt, ofNat_toNat hheader] at hshort
  rw [occurs_take_iff hmem]
  rintro ⟨j, hend, _⟩
  have hlength : header.chars.length = header.length := rfl
  omega

theorem search_of_exact {header : CString} (hmem : len.toNat ≤ mem.length)
    (hlong : ¬ len < UInt32.ofNat header.length) (hexact : SumsExact mem len header.chars) :
    ∃ found, espWolfsslBufHasPemHeader (some mem) len header = .ok found ∧
      (found = true ↔ Occurs header.chars (mem.take len.toNat)) := by
  have hstart : Visits mem len header.chars 0 := .start
  have hroom : len.toNat + 1 ≤ (0 : UInt32).toNat + (mem.length + 2) := by
    rw [UInt32.toNat_zero]
    omega
  have hstop := headerLoop_stops (mem.length + 2) hstart
  obtain ⟨found, hrun⟩ := headerLoop_ends hexact hmem hstart (by omega) hroom
  rw [hrun] at hstop
  rcases hstop with hendless | hstop
  · cases hendless
  · refine ⟨found, ?_, ?_⟩
    · simp only [espWolfsslBufHasPemHeader, hlong, if_false]
      exact hrun
    · rw [stops_iff hexact hstop, occurs_take_iff hmem]

theorem length_le_of_long {header : CString} (hheader : header.length < 2 ^ 32)
    (hlong : ¬ len < UInt32.ofNat header.length) : header.chars.length ≤ len.toNat := by
  rw [UInt32.lt_iff_toNat_lt, ofNat_toNat hheader] at hlong
  exact Nat.le_of_not_lt hlong

theorem espWolfsslBufHasPemHeader_spec (mem : List UInt8) (len : UInt32) (header : CString)
    (hmem : len.toNat ≤ mem.length) (hmax : len.toNat + 1 < 2 ^ 32)
    (hheader : header.length < 2 ^ 32) :
    ∃ found, espWolfsslBufHasPemHeader (some mem) len header = .ok found ∧
      (found = true ↔ Occurs header.chars (mem.take len.toNat)) := by
  by_cases hlong : len < UInt32.ofNat header.length
  · obtain ⟨hrun, habsent⟩ := search_short hmem hheader hlong
    exact ⟨false, hrun, iff_of_false (by simp) habsent⟩
  · have hfit := length_le_of_long hheader hlong
    exact search_of_exact hmem hlong (sumsExact_of_fit hfit hmax)

theorem reads_lt_of_fit {header : CString} (hmax : len.toNat + 1 < 2 ^ 32)
    (hheader : header.length < 2 ^ 32) {k : ℕ} (hread : Reads mem len header.chars k) :
    k < len.toNat :=
  reads_lt (sumsExact_of_fit (length_le_of_long hheader hread.1) hmax) hread

/-- In an object that fits in memory the fuel of the loop does not run out. -/
theorem headerLoop_fuel {header : List UInt8} (hbounded : mem.length < 2 ^ 32) {fuel : ℕ}
    {i : UInt32} (hi : i.toNat ≤ mem.length) (hfuel : mem.length + 1 ≤ i.toNat + fuel) :
    headerLoop mem len header fuel i ≠ .error .endlessLoop := by
  induction fuel generalizing i with
  | zero => omega
  | succ fuel ih =>
    unfold headerLoop
    by_cases hle : i + UInt32.ofNat header.length ≤ len
    · rw [if_pos hle]
      cases hcmp : memcmp mem i.toNat header with
      | none => simp
      | some equal =>
        cases equal with
        | true => simp
        | false =>
          obtain ⟨hpos, _⟩ := memcmp_false hcmp
          have hend := memcmp_inside hcmp
          have hnext : (i + 1).toNat = i.toNat + 1 := succ_toNat_iff.mpr (by omega)
          exact ih (by omega) (by omega)
    · rw [if_neg hle]
      simp

/-- In a buffer of the largest length the search for a header that is not there reads
past the end. -/
theorem search_outside {header : CString} (hmem : len.toNat = mem.length)
    (hwrap : ¬ len.toNat + 1 < 2 ^ 32) (hheader : header.length < 2 ^ 32)
    (habsent : ¬ Occurs header.chars mem) :
    espWolfsslBufHasPemHeader (some mem) len header = .error .outOfBounds := by
  have hlen : len.toNat < 2 ^ 32 := len.toNat_lt
  have hlong : ¬ len < UInt32.ofNat header.length := by
    rw [UInt32.lt_iff_toNat_lt, ofNat_toNat hheader]
    omega
  have hstart : Visits mem len header.chars 0 := .start
  have hfuel := @headerLoop_fuel mem len header.chars (by omega) (mem.length + 2) 0
    (by simp) (by omega)
  have hrun : espWolfsslBufHasPemHeader (some mem) len header =
      headerLoop mem len header.chars (mem.length + 2) 0 := by
    simp only [espWolfsslBufHasPemHeader, hlong, if_false]
  rw [hrun]
  have hstop := (headerLoop_stops (mem.length + 2) hstart).resolve_left hfuel
  generalize headerLoop mem len header.chars (mem.length + 2) 0 = out at hstop
  cases hstop with
  | @found i _ _ hcmp =>
    have hoccurs := (occurs_iff_offset header.chars mem).mpr
      ⟨i.toNat, memcmp_inside hcmp, memcmp_true hcmp⟩
    exact absurd hoccurs habsent
  | @absent i _ hle =>
    -- every index is below the largest length, so the loop condition cannot fail
    rw [UInt32.le_iff_toNat_le] at hle
    have hsum : (i + UInt32.ofNat header.chars.length).toNat < 2 ^ 32 := UInt32.toNat_lt _
    omega
  | outside _ _ _ => rfl

end Search
end EspWolfssl.HeaderSearch
