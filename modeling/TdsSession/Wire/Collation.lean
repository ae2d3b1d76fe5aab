import TdsSession.Wire.Reader

/-!
# Collations

A collation is a 32-bit word of locale and comparison flags, and a sort order
number.
-/

namespace TdsSession

/-- A collation as the server announces it. -/
structure Collation where
  info : UInt32
  sortId : UInt8
deriving DecidableEq, Repr

namespace Collation

/-- The size of a written collation. -/
def size : Nat := 5

/-- The locale part of the flags. -/
def lcid (c : Collation) : UInt32 := c.info &&& 0x000FFFFF

def read : Reader Collation := do
  let left ← Reader.remaining
  Reader.require (size ≤ left) (.incomplete size left)
  let info ← Reader.u32
  let sortId ← Reader.u8
  return ⟨info, sortId⟩

def write (c : Collation) : Bytes :=
  Bytes.littleEndian 4 c.info.toNat ++ [c.sortId]

end Collation

end TdsSession
