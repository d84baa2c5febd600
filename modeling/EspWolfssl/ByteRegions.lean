import Mathlib.Data.List.TakeWhile

/-!
Bytes in memory as C sees them: NUL-terminated strings, arrays of a fixed size
and regions of a known length. An access outside its region has no result, so
a program that makes one cannot go on.
-/
namespace EspWolfssl.ByteRegions

/-- A NUL-terminated string, given by the bytes before its NUL. -/
structure CString where
  chars : List UInt8
  noNul : (0 : UInt8) ∉ chars
deriving DecidableEq, Repr

namespace CString

def ofAscii (s : String) (h : (0 : UInt8) ∉ s.toList.map fun c => c.toNat.toUInt8) : CString :=
  ⟨_, h⟩

/-- String literals that stand side by side. -/
def concat (parts : List CString) : CString :=
  ⟨parts.flatMap (·.chars), by
    simp only [List.mem_flatMap, not_exists, not_and]
    exact fun s _ => s.noNul⟩

def length (s : CString) : ℕ := s.chars.length

theorem chars_injective : Function.Injective chars := by
  intro s t h
  cases s
  cases t
  simpa using h

/-- The string with its NUL. -/
def bytes (s : CString) : List UInt8 := s.chars ++ [0]

/-- `strndup` of a region: the bytes before its first NUL, or all of them. -/
def strndup (region : List UInt8) : CString :=
  ⟨region.takeWhile (· != 0), fun h => by simpa using List.mem_takeWhile_imp h⟩

end CString

/-- Index of the first NUL; a region without one is read past its end. -/
def strlen (region : List UInt8) : Option ℕ := region.findIdx? (· == 0)

theorem strlen_append_nul (s : CString) (rest : List UInt8) :
    strlen (s.chars ++ 0 :: rest) = some s.length := by
  have hs : s.chars.findIdx? (· == 0) = none := by
    rw [List.findIdx?_eq_none_iff]
    intro c hc
    simpa using fun h : c = 0 => s.noNul (h ▸ hc)
  simp [strlen, List.findIdx?_append, hs, List.findIdx?_cons, CString.length]

/-- A region that starts with a string and its NUL starts with no other one. -/
theorem CString.eq_of_prefix {s t : CString} {region : List UInt8} (hs : s.bytes <+: region)
    (ht : t.bytes <+: region) : s = t := by
  obtain ⟨rest, hrest⟩ := hs
  obtain ⟨more, hmore⟩ := ht
  have hslen : strlen region = some s.length := by
    rw [← hrest, CString.bytes, List.append_assoc]
    exact strlen_append_nul s rest
  have htlen : strlen region = some t.length := by
    rw [← hmore, CString.bytes, List.append_assoc]
    exact strlen_append_nul t more
  have hlen : s.length = t.length := by
    rw [hslen] at htlen
    exact Option.some.inj htlen
  have hchars : s.chars = t.chars := by
    calc
      s.chars = region.take s.length := by simp [← hrest, CString.bytes, CString.length]
      _ = region.take t.length := by rw [hlen]
      _ = t.chars := by simp [← hmore, CString.bytes, CString.length]
  cases s
  cases t
  cases hchars
  rfl

/-- The bytes of `dst` after copying `count` bytes of `src` to its front. -/
def memcpy (dst src : List UInt8) (count : ℕ) : Option (List UInt8) :=
  if count ≤ dst.length ∧ count ≤ src.length then
    some (src.take count ++ dst.drop count)
  else none

theorem memcpy_eq {dst src out : List UInt8} {count : ℕ} (h : memcpy dst src count = some out) :
    (count ≤ dst.length ∧ count ≤ src.length) ∧ out = src.take count ++ dst.drop count := by
  unfold memcpy at h
  split at h
  · rename_i hfit
    exact ⟨hfit, (Option.some.inj h).symm⟩
  · cases h

theorem memcpy_length {dst src out : List UInt8} {count : ℕ}
    (h : memcpy dst src count = some out) : out.length = dst.length := by
  obtain ⟨hfit, rfl⟩ := memcpy_eq h
  simp only [List.length_append, List.length_take, List.length_drop]
  omega

theorem memcpy_of_fit {dst src : List UInt8} {count : ℕ} (hdst : count ≤ dst.length)
    (hsrc : count ≤ src.length) : memcpy dst src count = some (src.take count ++ dst.drop count) :=
  if_pos ⟨hdst, hsrc⟩

/-- Whether the bytes at an offset are those of `s`; `none` when they are not
all inside the region. -/
def memcmp (region : List UInt8) (offset : ℕ) (s : List UInt8) : Option Bool :=
  if offset + s.length ≤ region.length then
    some ((region.drop offset).take s.length == s)
  else none

theorem memcmp_of_fit {region s : List UInt8} {offset : ℕ}
    (h : offset + s.length ≤ region.length) :
    memcmp region offset s = some ((region.drop offset).take s.length == s) :=
  if_pos h

theorem memcmp_inside {region s : List UInt8} {offset : ℕ} {equal : Bool}
    (h : memcmp region offset s = some equal) : offset + s.length ≤ region.length := by
  unfold memcmp at h
  split at h
  · assumption
  · cases h

theorem memcmp_true {region s : List UInt8} {offset : ℕ}
    (h : memcmp region offset s = some true) : (region.drop offset).take s.length = s := by
  unfold memcmp at h
  split at h
  · simpa using h
  · cases h

/-- A comparison that fails is of something, and not at an occurrence of it. -/
theorem memcmp_false {region s : List UInt8} {offset : ℕ}
    (h : memcmp region offset s = some false) :
    0 < s.length ∧ (region.drop offset).take s.length ≠ s := by
  have hblock : (region.drop offset).take s.length ≠ s := by
    intro heq
    unfold memcmp at h
    split at h
    · simp [heq] at h
    · cases h
  refine ⟨?_, hblock⟩
  by_contra hzero
  have hnil : s = [] := List.eq_nil_of_length_eq_zero (by omega)
  exact hblock (by simp [hnil])

/-- `s` is a contiguous block of the region. -/
def Occurs (s region : List UInt8) : Prop := ∃ pre post, region = pre ++ s ++ post

theorem occurs_iff_offset (s region : List UInt8) :
    Occurs s region ↔
      ∃ offset, offset + s.length ≤ region.length ∧
        (region.drop offset).take s.length = s := by
  constructor
  · rintro ⟨pre, post, rfl⟩
    refine ⟨pre.length, by simp only [List.length_append]; omega, ?_⟩
    simp
  · rintro ⟨offset, _, hblock⟩
    refine ⟨region.take offset, (region.drop offset).drop s.length, ?_⟩
    calc
      region = region.take offset ++ region.drop offset := (List.take_append_drop _ _).symm
      _ = region.take offset ++
          ((region.drop offset).take s.length ++ (region.drop offset).drop s.length) := by
        rw [List.take_append_drop s.length]
      _ = _ := by rw [hblock, List.append_assoc]

/-- An array of `n` bytes. -/
structure CArray (n : ℕ) where
  bytes : List UInt8
  length_eq : bytes.length = n
deriving DecidableEq, Repr

namespace CArray

variable {n : ℕ}

@[ext] theorem ext {a b : CArray n} (h : a.bytes = b.bytes) : a = b := by
  cases a
  cases b
  cases h
  rfl

/-- `memset` of the whole array to zero. -/
def zeros (n : ℕ) : CArray n := ⟨List.replicate n 0, List.length_replicate⟩

/-- Copy `count` bytes of `src` to the front of the array. -/
def write (a : CArray n) (src : List UInt8) (count : ℕ) : Option (CArray n) :=
  match h : memcpy a.bytes src count with
  | some out => some ⟨out, (memcpy_length h).trans a.length_eq⟩
  | none => none

/-- A zeroed array with `src` at its front. -/
def padded (src : List UInt8) (h : src.length ≤ n) : CArray n :=
  ⟨src ++ List.replicate (n - src.length) 0, by
    simp only [List.length_append, List.length_replicate]
    omega⟩

theorem write_zeros (src : List UInt8) (h : src.length ≤ n) :
    (zeros n).write src src.length = some (padded src h) := by
  have hcopy : memcpy (zeros n).bytes src src.length =
      some (src ++ List.replicate (n - src.length) 0) := by
    rw [memcpy_of_fit (by simpa [zeros] using h) (Nat.le_refl _)]
    simp [zeros]
  unfold write
  split
  · rename_i out hout
    rw [hcopy] at hout
    cases hout
    rfl
  · rename_i hnone
    rw [hcopy] at hnone
    cases hnone

/-- A string that is strictly shorter than the array has its NUL there. -/
theorem padded_string (s : CString) (h : s.length < n) :
    (padded s.chars (Nat.le_of_lt h) : CArray n).bytes =
      s.chars ++ 0 :: List.replicate (n - s.chars.length - 1) 0 := by
  have hlen : n - s.chars.length = (n - s.chars.length - 1) + 1 := by
    have : s.chars.length < n := h
    omega
  simp only [padded]
  rw [hlen, List.replicate_succ]
  rfl

theorem strlen_padded (s : CString) (h : s.length < n) :
    strlen (padded s.chars (Nat.le_of_lt h) : CArray n).bytes = some s.length := by
  rw [padded_string s h, strlen_append_nul]

theorem take_padded (s : CString) (h : s.length < n) :
    (padded s.chars (Nat.le_of_lt h) : CArray n).bytes.take (s.length + 1) = s.bytes := by
  have hsplit : ∀ rest : List UInt8, s.chars ++ 0 :: rest = s.bytes ++ rest := by
    simp [CString.bytes]
  have hlen : s.length + 1 = s.bytes.length := by simp [CString.bytes, CString.length]
  rw [padded_string s h, hsplit, hlen, List.take_left]

end CArray
end EspWolfssl.ByteRegions
