import EspWolfssl.ConnectionIo

/-!
Calls that move bytes. However a stream is cut into calls, each one moves a part
of what is left, from its start on, and is answered with the number of its bytes.
-/
namespace EspWolfssl.Transfers

open ConnectionIo

def newline : UInt8 := 10

/-- What one call of `wolfSSL_read` or `wolfSSL_write` does: it moves up to `count`
bytes, as many as there are and as the size allows, or none, and then it fails. -/
structure Transfer where
  count : ℕ
  ret : Int32
  err : Int32
  failed : ret ≤ 0

namespace Transfer

def moved (t : Transfer) (bytes : List UInt8) (size : Int32) : List UInt8 :=
  bytes.take (min t.count size.toNatClampNeg)

def answer (t : Transfer) (bytes : List UInt8) (size : Int32) : CallAnswer :=
  match t.moved bytes size with
  | [] => ⟨t.ret, t.err⟩
  | byte :: rest => ⟨Int32.ofNat (byte :: rest).length, 0⟩

end Transfer

section Moved
variable (t : Transfer) (bytes : List UInt8) (size : Int32)

theorem moved_starts : t.moved bytes size <+: bytes := List.take_prefix _ _

theorem moved_length_le : (t.moved bytes size).length ≤ size.toNatClampNeg := by
  simp only [Transfer.moved, List.length_take]
  omega

theorem answer_of_nil (hnil : t.moved bytes size = []) : t.answer bytes size = ⟨t.ret, t.err⟩ := by
  simp [Transfer.answer, hnil]

/-- A transfer that moved bytes is answered with their number. -/
theorem answer_of_moved (hmoved : t.moved bytes size ≠ []) :
    0 < (t.answer bytes size).ret ∧
      (t.answer bytes size).ret.toInt = (t.moved bytes size).length := by
  have hlen := moved_length_le t bytes size
  obtain ⟨byte, rest, hcons⟩ := List.exists_cons_of_ne_nil hmoved
  have hret : (t.answer bytes size).ret = Int32.ofNat (t.moved bytes size).length := by
    simp [Transfer.answer, hcons]
  have hpos : 0 < (t.moved bytes size).length := List.length_pos_iff.mpr hmoved
  have hsize : size.toNatClampNeg < 2 ^ 31 := by
    have hlt := size.toInt_lt
    simp only [Int32.toNatClampNeg]
    omega
  have hexact : (t.answer bytes size).ret.toInt = (t.moved bytes size).length := by
    rw [hret, Int32.toInt_ofNat_of_lt (by omega)]
  refine ⟨?_, hexact⟩
  rw [Int32.lt_iff_toInt_lt, hexact, Int32.toInt_zero]
  omega

end Moved

end EspWolfssl.Transfers
