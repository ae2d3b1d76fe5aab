import TdsSession.Text.Utf16

/-!
# Well-formed UTF-16

A string of units is well-formed if every surrogate in it stands in a pair
(`WellFormed`). These are the strings that spell a text (`isSome_decode_iff`),
and the text they spell is written as they are (`encode_of_decode`). The front
of a well-formed string is well-formed unless the cut goes through a pair
(`wellFormed_take_iff`), and then it spells the front of the text
(`isPrefix_of_decode_take`).
-/

namespace TdsSession.Text.Utf16

variable {u v : UInt16} {units : List UInt16} {text front : List Char} {n : Nat}

/-! ## Surrogates -/

theorem isHigh_iff : isHigh u = true ↔ 0xD800 ≤ u.toNat ∧ u.toNat ≤ 0xDBFF := by
  simp only [isHigh, Bool.and_eq_true, decide_eq_true_eq, UInt16.le_iff_toNat_le, UInt16.reduceToNat]

theorem isLow_iff : isLow u = true ↔ 0xDC00 ≤ u.toNat ∧ u.toNat ≤ 0xDFFF := by
  simp only [isLow, Bool.and_eq_true, decide_eq_true_eq, UInt16.le_iff_toNat_le, UInt16.reduceToNat]

/-- No unit both opens and closes a pair. -/
theorem not_isLow_of_isHigh (high : isHigh u = true) : ¬ isLow u = true := by
  rw [isHigh_iff] at high
  rw [isLow_iff]
  omega

/-- Every surrogate stands in a pair: a high one before a low one, and a low one behind a high one. -/
structure WellFormed (units : List UInt16) : Prop where
  high : ∀ i u, units[i]? = some u → isHigh u = true → ∃ v, units[i + 1]? = some v ∧ isLow v = true
  low : ∀ i v, units[i]? = some v → isLow v = true → ∃ j u, i = j + 1 ∧ units[j]? = some u ∧ isHigh u = true

/-- The two units on both sides of a cut behind the first `n` units are a pair. -/
def CutsPair (n : Nat) (units : List UInt16) : Prop :=
  ∃ m u v, n = m + 1 ∧ units[m]? = some u ∧ isHigh u = true ∧ units[n]? = some v ∧ isLow v = true

namespace WellFormed

theorem nil : WellFormed [] where
  high _ _ h := nomatch h
  low _ _ h := nomatch h

/-- A low surrogate does not come first. -/
theorem not_isLow_head (h : WellFormed (v :: units)) : ¬ isLow v = true := by
  intro hlow
  obtain ⟨j, u, hj, -⟩ := h.low 0 v rfl hlow
  cases hj

/-- A high surrogate is followed by a low one. -/
theorem exists_of_isHigh_head (h : WellFormed (u :: units)) (high : isHigh u = true) :
    ∃ v rest, units = v :: rest ∧ isLow v = true := by
  obtain ⟨v, hv, hlow⟩ := h.high 0 u rfl high
  cases units with
  | nil => cases hv
  | cons v' rest =>
    cases hv
    exact ⟨v, rest, rfl, hlow⟩

/-- Whether units are well-formed does not depend on a character of one unit before them. -/
theorem cons_single_iff (high : ¬ isHigh u = true) (low : ¬ isLow u = true) :
    WellFormed (u :: units) ↔ WellFormed units := by
  constructor
  · intro h
    refine ⟨fun i w hw hhigh => h.high (i + 1) w hw hhigh, fun i w hw hlow => ?_⟩
    obtain ⟨j, w', hj, hw', hhigh⟩ := h.low (i + 1) w hw hlow
    cases Nat.succ.inj hj
    cases i with
    | zero =>
      cases hw'
      exact absurd hhigh high
    | succ i => exact ⟨i, w', rfl, hw', hhigh⟩
  · intro h
    refine ⟨fun i w hw hhigh => ?_, fun i w hw hlow => ?_⟩
    · cases i with
      | zero =>
        cases hw
        exact absurd hhigh high
      | succ i => exact h.high i w hw hhigh
    · cases i with
      | zero =>
        cases hw
        exact absurd hlow low
      | succ i =>
        obtain ⟨j, w', rfl, hw', hhigh⟩ := h.low i w hw hlow
        exact ⟨j + 1, w', rfl, hw', hhigh⟩

/-- Nor on a pair. -/
theorem cons_pair_iff (high : isHigh u = true) (low : isLow v = true) :
    WellFormed (u :: v :: units) ↔ WellFormed units := by
  have hu := not_isLow_of_isHigh high
  have hv : ¬ isHigh v = true := fun h => not_isLow_of_isHigh h low
  constructor
  · intro h
    refine ⟨fun i w hw hhigh => h.high (i + 2) w hw hhigh, fun i w hw hlow => ?_⟩
    obtain ⟨j, w', hj, hw', hhigh⟩ := h.low (i + 2) w hw hlow
    cases Nat.succ.inj hj
    cases i with
    | zero =>
      cases hw'
      exact absurd hhigh hv
    | succ i => exact ⟨i, w', rfl, hw', hhigh⟩
  · intro h
    refine ⟨fun i w hw hhigh => ?_, fun i w hw hlow => ?_⟩
    · match i with
      | 0 => exact ⟨v, rfl, low⟩
      | 1 =>
        cases hw
        exact absurd hhigh hv
      | i + 2 => exact h.high i w hw hhigh
    · match i with
      | 0 =>
        cases hw
        exact absurd hlow hu
      | 1 => exact ⟨0, u, rfl, rfl, high⟩
      | i + 2 =>
        obtain ⟨j, w', rfl, hw', hhigh⟩ := h.low i w hw hlow
        exact ⟨j + 2, w', rfl, hw', hhigh⟩

end WellFormed

/-! ## Texts and the units that spell them -/

/-- The well-formed strings are those that spell a text. -/
theorem isSome_decode_iff (units : List UInt16) : (decode units).isSome = true ↔ WellFormed units := by
  fun_induction decode units with
  | case1 => exact iff_of_true rfl .nil
  | case2 u hsurrogate =>
    refine iff_of_false Bool.false_ne_true fun h => ?_
    rcases Bool.or_eq_true_iff.mp hsurrogate with high | low
    · obtain ⟨v, rest, hrest, -⟩ := h.exists_of_isHigh_head high
      cases hrest
    · exact h.not_isLow_head low
  | case3 u hsingle =>
    obtain ⟨high, low⟩ := not_or.mp (mt Bool.or_eq_true_iff.mpr hsingle)
    exact iff_of_true rfl ((WellFormed.cons_single_iff high low).mpr .nil)
  | case4 u v rest high low ih => rw [Option.isSome_map, ih, WellFormed.cons_pair_iff high low]
  | case5 u v rest high low =>
    refine iff_of_false Bool.false_ne_true fun h => low ?_
    obtain ⟨w, rest', hrest, hlow⟩ := h.exists_of_isHigh_head high
    cases hrest
    exact hlow
  | case6 u v rest high low => exact iff_of_false Bool.false_ne_true fun h => h.not_isLow_head low
  | case7 u v rest high low ih => rw [Option.isSome_map, ih, WellFormed.cons_single_iff high low]

theorem toNat_charOfNat {code : Nat} (h : code.isValidChar) : (Char.ofNat code).toNat = code := by
  rw [Char.ofNat, dif_pos h]
  rfl

/-- A unit that is no surrogate is all that its character is written as. -/
theorem encodeChar_ofNat (high : ¬ isHigh u = true) (low : ¬ isLow u = true) :
    encodeChar (Char.ofNat u.toNat) = [u] := by
  have hu := u.toNat_lt
  rw [isHigh_iff] at high
  rw [isLow_iff] at low
  have hvalid : u.toNat.isValidChar := by
    unfold Nat.isValidChar
    omega
  rw [encodeChar, toNat_charOfNat hvalid, if_pos hu, UInt16.ofNat_toNat]

/-- A pair is what its character is written as. -/
theorem encodeChar_ofPair (high : isHigh u = true) (low : isLow v = true) : encodeChar (ofPair u v) = [u, v] := by
  rw [isHigh_iff] at high
  rw [isLow_iff] at low
  have hvalid : (0x10000 + (u.toNat - 0xD800) * 0x400 + (v.toNat - 0xDC00)).isValidChar := by
    unfold Nat.isValidChar
    omega
  have hchar : (ofPair u v).toNat = 0x10000 + (u.toNat - 0xD800) * 0x400 + (v.toNat - 0xDC00) := by
    rw [ofPair, toNat_charOfNat hvalid]
  have hhigh : 0xD800 + ((ofPair u v).toNat - 0x10000) / 0x400 = u.toNat := by omega
  have hlow : 0xDC00 + ((ofPair u v).toNat - 0x10000) % 0x400 = v.toNat := by omega
  rw [encodeChar, if_neg (by omega)]
  dsimp only
  rw [hhigh, hlow, UInt16.ofNat_toNat, UInt16.ofNat_toNat]

theorem encode_cons (c : Char) (text : List Char) : encode (c :: text) = encodeChar c ++ encode text :=
  List.flatMap_cons

/-- A text is written as the units that spell it. -/
theorem encode_of_decode (h : decode units = some text) : encode text = units := by
  fun_induction decode units generalizing text with
  | case1 =>
    cases h
    rfl
  | case2 => cases h
  | case3 u hsingle =>
    obtain ⟨high, low⟩ := not_or.mp (mt Bool.or_eq_true_iff.mpr hsingle)
    cases h
    rw [encode_cons, encodeChar_ofNat high low]
    rfl
  | case4 u v rest high low ih =>
    obtain ⟨text, htext, rfl⟩ := Option.map_eq_some_iff.mp h
    rw [encode_cons, encodeChar_ofPair high low, ih htext]
    rfl
  | case5 => cases h
  | case6 => cases h
  | case7 u v rest high low ih =>
    obtain ⟨text, htext, rfl⟩ := Option.map_eq_some_iff.mp h
    rw [encode_cons, encodeChar_ofNat high low, ih htext]
    rfl

theorem decode_eq_some_iff : decode units = some text ↔ encode text = units :=
  ⟨encode_of_decode, fun h => h ▸ decode_encode text⟩

theorem wellFormed_encode (text : List Char) : WellFormed (encode text) := by
  rw [← isSome_decode_iff, decode_encode]
  rfl

/-! ## Cuts -/

/-- The front of a well-formed string is well-formed unless its last unit has lost its other half. -/
theorem wellFormed_take_iff (h : WellFormed units) (n : Nat) : WellFormed (units.take n) ↔ ¬ CutsPair n units := by
  have hfront {i : Nat} {w : UInt16} : (units.take n)[i]? = some w ↔ i < n ∧ units[i]? = some w := by
    rw [List.getElem?_take]
    split <;> simp [*]
  constructor
  · rintro htake ⟨m, u, v, rfl, hu, high, -, -⟩
    obtain ⟨w, hw, -⟩ := htake.high m u (hfront.mpr ⟨Nat.lt_succ_self m, hu⟩) high
    exact Nat.lt_irrefl _ (hfront.mp hw).1
  · intro hcut
    refine ⟨fun i u hu high => ?_, fun i v hv low => ?_⟩
    · obtain ⟨hi, hwhole⟩ := hfront.mp hu
      obtain ⟨v, hv, low⟩ := h.high i u hwhole high
      -- The cut is not right behind the first half of this pair.
      have hne : n ≠ i + 1 := fun hn => hcut ⟨i, u, v, hn, hwhole, high, hn ▸ hv, low⟩
      exact ⟨v, hfront.mpr ⟨by omega, hv⟩, low⟩
    · obtain ⟨hi, hwhole⟩ := hfront.mp hv
      obtain ⟨j, u, rfl, hu, high⟩ := h.low i v hwhole low
      exact ⟨j, u, rfl, hfront.mpr ⟨by omega, hu⟩, high⟩

theorem decode_encode_append (front : List Char) (units : List UInt16) :
    decode (encode front ++ units) = (decode units).map (front ++ ·) := by
  induction front with
  | nil =>
    rw [show encode [] ++ units = units from rfl]
    simp
  | cons c front ih =>
    rw [encode_cons, List.append_assoc, decode_encodeChar_append, ih, Option.map_map]
    rfl

/-- What the front of a string of units spells is the front of the text. -/
theorem isPrefix_of_decode_take (h : decode ((encode text).take n) = some front) : front <+: text := by
  have hunits : encode front ++ (encode text).drop n = encode text := by
    rw [encode_of_decode h, List.take_append_drop]
  have htext : (decode ((encode text).drop n)).map (front ++ ·) = some text := by
    rw [← decode_encode_append, hunits, decode_encode]
  obtain ⟨back, -, hback⟩ := Option.map_eq_some_iff.mp htext
  exact ⟨back, hback⟩

/-! ## Bytes -/

/-- Bytes that pair up are written as they were read. -/
theorem toBytes_ofBytes {data : Bytes} (h : data.length % 2 = 0) : toBytes (ofBytes data) = data := by
  fun_induction ofBytes data with
  | case1 a b rest ih =>
    have hrest : rest.length % 2 = 0 := by
      simp only [List.length_cons] at h
      omega
    have hlt : Bytes.ofLittleEndian [a, b] < Nat.pow 256 2 := Bytes.ofLittleEndian_lt [a, b]
    have hunit : (UInt16.ofNat (Bytes.ofLittleEndian [a, b])).toNat = Bytes.ofLittleEndian [a, b] :=
      UInt16.toNat_ofNat_of_lt hlt
    have hword : Bytes.littleEndian 2 (UInt16.ofNat (Bytes.ofLittleEndian [a, b])).toNat = [a, b] := by
      rw [hunit]
      exact Bytes.littleEndian_ofLittleEndian [a, b]
    show Bytes.littleEndian 2 _ ++ toBytes (ofBytes rest) = a :: b :: rest
    rw [hword, ih hrest]
    rfl
  | case2 data hshort =>
    match data, hshort, h with
    | [], _, _ => rfl
    | a :: b :: rest, hshort, _ => exact absurd rfl (hshort a b rest)

end TdsSession.Text.Utf16
