import EspWolfssl.BackendState

/-!
The global store of CA certificates: a pointer to a block with a NUL behind the
certificate's bytes, and the number of those bytes.
-/
namespace EspWolfssl.GlobalStore

open ByteRegions Platform ProgramLogic BackendState

variable {b : Build}

def espWolfsslInitGlobalCaStore : Backend b EspErr := pure .ok

def espWolfsslFreeGlobalCaStore (w : World b) : World b :=
  if w.globalCacert.isSome then { w with globalCacert := none, globalCacertPemBytes := 0 }
  else w

/-- The copy into a block of `cacert_pem_bytes + 1` bytes, and its NUL. -/
def storeBlock (buf : Buffer) : Option (List UInt8) :=
  match memcpy (List.replicate (buf.len + 1).toNat 0) buf.bytes buf.bytes.length with
  | none => none
  | some block =>
      if buf.bytes.length < block.length then some (block.set buf.bytes.length 0) else none

/-- `cacertPemBuf` does not overlap the store. -/
def espWolfsslSetGlobalCaStore (cacertPemBuf : Option Buffer) (malloc : Bool) :
    Backend b EspErr :=
  match cacertPemBuf with
  | none => pure .invalidArg
  | some buf => do
      Prog.modify espWolfsslFreeGlobalCaStore
      if malloc then do
        match storeBlock buf with
        | none => Prog.stop (.fault .outOfBounds)
        | some block => do
            Prog.modify fun w =>
              { w with globalCacert := some block, globalCacertPemBytes := buf.len }
            pure .ok
      else do
        Prog.modify fun w => { w with globalCacert := none }
        pure .noMem

def espWolfsslGetGlobalCaStore : Backend b (Option (List UInt8)) := Prog.read (·.globalCacert)

end EspWolfssl.GlobalStore
