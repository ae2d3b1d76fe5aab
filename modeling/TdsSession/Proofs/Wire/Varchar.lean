import TdsSession.Proofs.Wire.Reader
import TdsSession.Wire.Varchar

/-!
# Counted strings read back

Reading takes exactly the bytes of a written string, and gives the text that the
units in them spell (`readShort_writeShort`, `readLong_writeLong`). A string that
its count can express is read back as it was written.
-/

namespace TdsSession.Varchar

open Text Reader

/-- The units of a text spell it. -/
theorem ofUnits_encode (text : String) : ofUnits (Utf16.encode text.toList) = .ok text := by
  rw [ofUnits, Utf16.decode_encode]
  simp

/-- Reading takes the bytes of the units, and gives the text that they spell. -/
theorem readUnits_toBytes (units : List UInt16) (rest : Bytes) :
    readUnits units.length (Utf16.toBytes units ++ rest) = (ofUnits units).map (·, rest) := by
  have htake : take (units.length * 2) (Utf16.toBytes units ++ rest) = .ok (Utf16.toBytes units, rest) := by
    have hread := reads_take (Utf16.toBytes units) rest
    rwa [Utf16.length_toBytes, Nat.mul_comm] at hread
  rw [readUnits, bind_apply, htake]
  show (liftM (ofUnits (Utf16.ofBytes (Utf16.toBytes units))) : Reader String) rest = _
  rw [Utf16.ofBytes_toBytes]
  cases ofUnits units <;> rfl

/-- A string is read back after its count as the text that the written units spell. -/
theorem read_writeCounted {γ : Type} {width limit : Nat} {counter : Reader γ} {toNat : γ → Nat}
    (hcounter : ∀ n ≤ limit, ∃ count, Reads counter (Bytes.littleEndian width n) count ∧ toNat count = n)
    (text : String) (rest : Bytes) :
    (do
      let count ← counter
      readUnits (toNat count) : Reader String) (writeCounted width limit text ++ rest) =
      (ofUnits ((Utf16.encode text.toList).take limit)).map (·, rest) := by
  obtain ⟨count, hread, hcount⟩ := hcounter ((Utf16.encode text.toList).take limit).length
    (List.length_take_le limit _)
  rw [writeCounted, List.append_assoc, bind_apply, hread]
  show readUnits (toNat count) _ = _
  rw [hcount]
  exact readUnits_toBytes _ rest

theorem readShort_writeShort (text : String) (rest : Bytes) :
    readShort (writeShort text ++ rest) = (ofUnits ((Utf16.encode text.toList).take 0xFF)).map (·, rest) :=
  read_writeCounted (fun n h => ⟨_, reads_u8 n, UInt8.toNat_ofNat_of_lt (Nat.lt_succ_of_le h)⟩) text rest

theorem readLong_writeLong (text : String) (rest : Bytes) :
    readLong (writeLong text ++ rest) = (ofUnits ((Utf16.encode text.toList).take 0xFFFF)).map (·, rest) :=
  read_writeCounted (fun n h => ⟨_, reads_u16 n, UInt16.toNat_ofNat_of_lt (Nat.lt_succ_of_le h)⟩) text rest

/-- A string that its count can express is read back from all of its units. -/
theorem reads_of_read {reader : Reader String} {written : Bytes} {limit : Nat} {text : String}
    (hread : ∀ rest, reader (written ++ rest) = (ofUnits ((Utf16.encode text.toList).take limit)).map (·, rest))
    (h : Utf16.size text ≤ limit) : Reads reader written text := by
  intro rest
  rw [hread, List.take_of_length_le h, ofUnits_encode]
  rfl

/-- A string of at most 255 units is read back. -/
theorem reads_writeShort {text : String} (h : Utf16.size text ≤ 0xFF) :
    Reads readShort (writeShort text) text :=
  reads_of_read (readShort_writeShort text) h

/-- A string of at most 65535 units is read back. -/
theorem reads_writeLong {text : String} (h : Utf16.size text ≤ 0xFFFF) :
    Reads readLong (writeLong text) text :=
  reads_of_read (readLong_writeLong text) h

/-- A string that is cut when it is written takes as many bytes as the longest. -/
theorem length_writeCounted (width limit : Nat) (text : String) :
    (writeCounted width limit text).length = width + 2 * min limit (Utf16.size text) := by
  rw [writeCounted, List.length_append, Bytes.length_littleEndian, Utf16.length_toBytes, List.length_take]
  rfl

/-- A string that was written in fewer than twice 65535 bytes has not been cut. -/
theorem size_le_of_writeLong {text : String} (h : (writeLong text).length ≤ 0xFFFF) :
    Utf16.size text ≤ 0xFFFF := by
  rw [writeLong, length_writeCounted] at h
  omega

end TdsSession.Varchar
