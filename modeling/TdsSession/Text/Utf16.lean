import TdsSession.Bytes

/-!
# UTF-16

Text as 16-bit units. A character below U+10000 is one unit, any other a pair
of a high and a low surrogate. `decode` accepts exactly the unit strings in
which every surrogate stands in such a pair; `decodeLossy` puts U+FFFD in the
place of each surrogate that does not. On the wire each unit is two bytes,
least significant first.
-/

namespace TdsSession.Text.Utf16

/-- A unit that opens a surrogate pair. -/
def isHigh (u : UInt16) : Bool := 0xD800 ≤ u && u ≤ 0xDBFF

/-- A unit that closes a surrogate pair. -/
def isLow (u : UInt16) : Bool := 0xDC00 ≤ u && u ≤ 0xDFFF

/-- The character a surrogate pair stands for. -/
def ofPair (high low : UInt16) : Char :=
  Char.ofNat (0x10000 + (high.toNat - 0xD800) * 0x400 + (low.toNat - 0xDC00))

/-- The units of one character. -/
def encodeChar (c : Char) : List UInt16 :=
  if c.toNat < 0x10000 then [UInt16.ofNat c.toNat]
  else
    let n := c.toNat - 0x10000
    [UInt16.ofNat (0xD800 + n / 0x400), UInt16.ofNat (0xDC00 + n % 0x400)]

/-- The units of a text. -/
def encode (text : List Char) : List UInt16 :=
  text.flatMap encodeChar

/-- The text a unit string spells, if every surrogate in it is paired. -/
def decode : List UInt16 → Option (List Char)
  | [] => some []
  | [u] => if isHigh u || isLow u then none else some [Char.ofNat u.toNat]
  | u :: v :: rest =>
    if isHigh u then
      if isLow v then (decode rest).map (ofPair u v :: ·) else none
    else if isLow u then none
    else (decode (v :: rest)).map (Char.ofNat u.toNat :: ·)

/-- A unit that is no surrogate is a character of its own. -/
theorem decode_cons_single {u : UInt16} (high : isHigh u = false) (low : isLow u = false)
    (units : List UInt16) : decode (u :: units) = (decode units).map (Char.ofNat u.toNat :: ·) := by
  cases units <;> simp [decode, high, low]

theorem decode_cons_pair {u v : UInt16} (high : isHigh u = true) (low : isLow v = true)
    (units : List UInt16) : decode (u :: v :: units) = (decode units).map (ofPair u v :: ·) := by
  simp [decode, high, low]

theorem decode_encodeChar_append (c : Char) (units : List UInt16) :
    decode (encodeChar c ++ units) = (decode units).map (c :: ·) := by
  have valid : c.toNat < 0xD800 ∨ 0xDFFF < c.toNat ∧ c.toNat < 0x110000 := c.valid
  have back : Char.ofNat c.toNat = c := Char.ofNat_toNat c
  by_cases small : c.toNat < 0x10000
  · have unit : (UInt16.ofNat c.toNat).toNat = c.toNat := by
      rw [UInt16.toNat_ofNat']
      exact Nat.mod_eq_of_lt small
    have high : isHigh (UInt16.ofNat c.toNat) = false := by
      simp only [isHigh, Bool.and_eq_false_iff, decide_eq_false_iff_not, UInt16.le_iff_toNat_le, unit,
        UInt16.reduceToNat]
      omega
    have low : isLow (UInt16.ofNat c.toNat) = false := by
      simp only [isLow, Bool.and_eq_false_iff, decide_eq_false_iff_not, UInt16.le_iff_toNat_le, unit,
        UInt16.reduceToNat]
      omega
    rw [encodeChar, if_pos small, List.singleton_append, decode_cons_single high low, unit, back]
  · have first : (UInt16.ofNat (0xD800 + (c.toNat - 0x10000) / 0x400)).toNat =
        0xD800 + (c.toNat - 0x10000) / 0x400 := by
      rw [UInt16.toNat_ofNat']
      exact Nat.mod_eq_of_lt (by omega)
    have second : (UInt16.ofNat (0xDC00 + (c.toNat - 0x10000) % 0x400)).toNat =
        0xDC00 + (c.toNat - 0x10000) % 0x400 := by
      rw [UInt16.toNat_ofNat']
      exact Nat.mod_eq_of_lt (by omega)
    have high : isHigh (UInt16.ofNat (0xD800 + (c.toNat - 0x10000) / 0x400)) = true := by
      simp only [isHigh, Bool.and_eq_true, decide_eq_true_eq, UInt16.le_iff_toNat_le, first,
        UInt16.reduceToNat]
      omega
    have low : isLow (UInt16.ofNat (0xDC00 + (c.toNat - 0x10000) % 0x400)) = true := by
      simp only [isLow, Bool.and_eq_true, decide_eq_true_eq, UInt16.le_iff_toNat_le, second,
        UInt16.reduceToNat]
      omega
    have joined : ofPair (UInt16.ofNat (0xD800 + (c.toNat - 0x10000) / 0x400))
        (UInt16.ofNat (0xDC00 + (c.toNat - 0x10000) % 0x400)) = c := by
      rw [ofPair, first, second]
      have : 0x10000 + (0xD800 + (c.toNat - 0x10000) / 0x400 - 0xD800) * 0x400 +
          (0xDC00 + (c.toNat - 0x10000) % 0x400 - 0xDC00) = c.toNat := by omega
      rw [this, back]
    rw [encodeChar, if_neg small]
    simp only [List.cons_append, List.nil_append]
    rw [decode_cons_pair high low, joined]

/-- Every text can be read back from its units. -/
theorem decode_encode (text : List Char) : decode (encode text) = some text := by
  induction text with
  | nil => rfl
  | cons c rest ih =>
    rw [encode, List.flatMap_cons, decode_encodeChar_append]
    change (decode (encode rest)).map _ = _
    rw [ih, Option.map_some]

/-- The text a unit string spells, with U+FFFD for each unpaired surrogate. -/
def decodeLossy : List UInt16 → List Char
  | [] => []
  | [u] => [if isHigh u || isLow u then '\uFFFD' else Char.ofNat u.toNat]
  | u :: v :: rest =>
    if isHigh u then
      if isLow v then ofPair u v :: decodeLossy rest else '\uFFFD' :: decodeLossy (v :: rest)
    else if isLow u then '\uFFFD' :: decodeLossy (v :: rest)
    else Char.ofNat u.toNat :: decodeLossy (v :: rest)

/-- The bytes of a unit string. -/
def toBytes (units : List UInt16) : Bytes :=
  units.flatMap fun u => Bytes.littleEndian 2 u.toNat

/-- The units of a byte string; an odd last byte is left out. -/
def ofBytes : Bytes → List UInt16
  | a :: b :: rest => UInt16.ofNat (Bytes.ofLittleEndian [a, b]) :: ofBytes rest
  | _ => []

theorem length_toBytes (units : List UInt16) : (toBytes units).length = 2 * units.length := by
  induction units with
  | nil => rfl
  | cons u rest ih =>
    change (Bytes.littleEndian 2 u.toNat ++ toBytes rest).length = _
    rw [List.length_append, ih, Bytes.length_littleEndian, List.length_cons]
    omega

theorem ofBytes_toBytes (units : List UInt16) : ofBytes (toBytes units) = units := by
  induction units with
  | nil => rfl
  | cons u rest ih =>
    have word : Bytes.ofLittleEndian [UInt8.ofNat u.toNat, UInt8.ofNat (u.toNat / 256)] = u.toNat := by
      have lt : u.toNat < Nat.pow 256 2 := u.toNat_lt
      have h := Bytes.ofLittleEndian_littleEndian 2 u.toNat
      rw [Nat.mod_eq_of_lt lt] at h
      exact h
    change ofBytes (UInt8.ofNat u.toNat :: UInt8.ofNat (u.toNat / 256) :: toBytes rest) = _
    rw [ofBytes, word, ih, UInt16.ofNat_toNat]

/-- The number of units of a text. -/
def size (text : String) : Nat :=
  (encode text.toList).length

/-- The bytes of a text. -/
def bytesOf (text : String) : Bytes :=
  toBytes (encode text.toList)

end TdsSession.Text.Utf16
