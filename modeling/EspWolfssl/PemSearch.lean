import EspWolfssl.Platform

/-!
The bounded search for a PEM header. Its index and the header's length are
added as 32-bit numbers, and a comparison that leaves the memory object has no
result.
-/
namespace EspWolfssl.PemSearch

open ByteRegions Platform

def headerAny : CString := CString.ofAscii "-----BEGIN " (by decide)

def headerCertificate : CString := CString.ofAscii "-----BEGIN CERTIFICATE-----" (by decide)

/-- The loop of the search from index `i` on. The fuel bounds the comparisons
that can stay inside the memory object. -/
def headerLoop (mem : List UInt8) (len : UInt32) (header : List UInt8) :
    ℕ → UInt32 → Except Fault Bool
  | 0, _ => .error .endlessLoop
  | fuel + 1, i =>
      if i + UInt32.ofNat header.length ≤ len then
        match memcmp mem i.toNat header with
        | none => .error .outOfBounds
        | some true => .ok true
        | some false => headerLoop mem len header fuel (i + 1)
      else .ok false

/-- `mem` is the memory object `buf` points to the start of. -/
def espWolfsslBufHasPemHeader (buf : Option (List UInt8)) (len : UInt32) (header : CString) :
    Except Fault Bool :=
  match buf with
  | none => .ok false
  | some mem =>
      if len < UInt32.ofNat header.length then .ok false
      else headerLoop mem len header.chars (mem.length + 2) 0

end EspWolfssl.PemSearch
