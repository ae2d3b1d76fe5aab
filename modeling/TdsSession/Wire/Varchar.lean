import TdsSession.Text.Utf16
import TdsSession.Wire.Reader

/-!
# Counted strings

A string in UTF-16, after the number of its units as one byte or as a 16-bit
word. Writing a longer string keeps as many units as the count can express,
which may cut a surrogate pair in two.
-/

namespace TdsSession.Varchar

open Text

/-- A surrogate without its other half. -/
def loneSurrogate : ProtocolError := .stringEncoding "invalid utf-16: lone surrogate found"

/-- The text of a unit string. -/
def ofUnits (units : List UInt16) : Except ProtocolError String :=
  match Utf16.decode units with
  | some text => .ok (String.ofList text)
  | none => .error loneSurrogate

/-- The text of a whole byte string. -/
def ofBytes (data : Bytes) : Except ProtocolError String :=
  if data.length % 2 = 0 then ofUnits (Utf16.ofBytes data)
  else .error (.stringEncoding s!"odd UTF-16 byte count {data.length}")

/-- A string of `count` units. -/
def readUnits (count : Nat) : Reader String := do
  let data ← Reader.take (count * 2)
  ofUnits (Utf16.ofBytes data)

/-- A string counted by one byte. -/
def readShort : Reader String := do
  let count ← Reader.u8
  readUnits count.toNat

/-- A string counted by a 16-bit word. -/
def readLong : Reader String := do
  let count ← Reader.u16
  readUnits count.toNat

/-- Writes up to `limit` units after their number, a word of `width` bytes. -/
def writeCounted (width limit : Nat) (text : String) : Bytes :=
  let units := (Utf16.encode text.toList).take limit
  Bytes.littleEndian width units.length ++ Utf16.toBytes units

/-- Writes a string counted by one byte. -/
def writeShort (text : String) : Bytes := writeCounted 1 0xFF text

/-- Writes a string counted by a 16-bit word. -/
def writeLong (text : String) : Bytes := writeCounted 2 0xFFFF text

end TdsSession.Varchar
