import TdsSession.Bearer.Token
import TdsSession.Proofs.Text.Utf16
import TdsSession.Proofs.Wire.Varchar

/-!
# Strings that their count cuts off

A string is written with as many of its units as its count can express, and read
back as the text that these units spell. So it comes back whole, or cut off at
the limit, or not at all because the cut has left half a pair
(`strings_readBack`).
-/

namespace TdsSession.Varchar

open Text Reader

variable {units : List UInt16} {text : String} {data : Bytes}

/-- Units spell the text that is written as they are. -/
theorem ofUnits_eq_ok_iff : ofUnits units = .ok text ↔ Utf16.encode text.toList = units := by
  unfold ofUnits
  constructor
  · intro h
    split at h
    · rename_i spelt hspelt
      cases h
      rw [String.toList_ofList]
      exact Utf16.encode_of_decode hspelt
    · cases h
  · intro h
    rw [← h, Utf16.decode_encode]
    exact congrArg Except.ok String.ofList_toList

/-- Units that spell no text are refused for one reason. -/
theorem ofUnits_of_not_wellFormed (h : ¬ Utf16.WellFormed units) : ofUnits units = .error loneSurrogate := by
  rw [← Utf16.isSome_decode_iff, Option.not_isSome_iff_eq_none] at h
  rw [ofUnits, h]

theorem exists_ofUnits_iff : (∃ text, ofUnits units = .ok text) ↔ Utf16.WellFormed units := by
  constructor
  · rintro ⟨text, htext⟩
    rw [← ofUnits_eq_ok_iff.mp htext]
    exact Utf16.wellFormed_encode text.toList
  · intro h
    rw [← Utf16.isSome_decode_iff] at h
    obtain ⟨spelt, hspelt⟩ := Option.isSome_iff_exists.mp h
    refine ⟨String.ofList spelt, ofUnits_eq_ok_iff.mpr ?_⟩
    rw [String.toList_ofList]
    exact Utf16.encode_of_decode hspelt

/-! ## Whole byte strings -/

theorem ofBytes_eq_ok_iff :
    ofBytes data = .ok text ↔ data.length % 2 = 0 ∧ ofUnits (Utf16.ofBytes data) = .ok text := by
  unfold ofBytes
  split
  · exact (and_iff_right ‹_›).symm
  · exact iff_of_false (fun h => nomatch h) fun h => absurd h.1 ‹_›

/-- A byte string that is read as a text is what the text is written as. -/
theorem bytesOf_of_ofBytes (h : ofBytes data = .ok text) : Utf16.bytesOf text = data := by
  obtain ⟨heven, hunits⟩ := ofBytes_eq_ok_iff.mp h
  rw [Utf16.bytesOf, ofUnits_eq_ok_iff.mp hunits, Utf16.toBytes_ofBytes heven]

/-! ## Counted strings -/

/-- What comes back of a written string whose count goes up to `limit`. -/
structure ReadsBack (read : Reader String) (write : String → Bytes) (limit : Nat) : Prop where
  /-- A string that the count can express comes back as it is. -/
  whole : ∀ text rest, Utf16.size text ≤ limit → read (write text ++ rest) = .ok (text, rest)
  /-- A longer one is cut off, and cannot be read if that leaves half a pair. -/
  broken : ∀ text rest, limit < Utf16.size text → Utf16.CutsPair limit (Utf16.encode text.toList) →
    read (write text ++ rest) = .error loneSurrogate
  /-- Otherwise the part of it comes back that has as many units as the count can express. -/
  front : ∀ text rest, limit < Utf16.size text → ¬ Utf16.CutsPair limit (Utf16.encode text.toList) →
    ∃ front : String, front.toList <+: text.toList ∧
      Utf16.encode front.toList = (Utf16.encode text.toList).take limit ∧
      read (write text ++ rest) = .ok (front, rest)

theorem readsBack_of_read {read : Reader String} {write : String → Bytes} {limit : Nat}
    (h : ∀ text rest, read (write text ++ rest) =
      (ofUnits ((Utf16.encode text.toList).take limit)).map (·, rest)) : ReadsBack read write limit where
  whole text rest hsize := reads_of_read (h text) hsize rest
  broken text rest _ hcut := by
    have hunits := mt (Utf16.wellFormed_take_iff (Utf16.wellFormed_encode text.toList) limit).mp (not_not_intro hcut)
    rw [h, ofUnits_of_not_wellFormed hunits]
    rfl
  front text rest _ hcut := by
    have hunits := (Utf16.wellFormed_take_iff (Utf16.wellFormed_encode text.toList) limit).mpr hcut
    obtain ⟨front, hfront⟩ := exists_ofUnits_iff.mpr hunits
    have hspelt := ofUnits_eq_ok_iff.mp hfront
    refine ⟨front, Utf16.isPrefix_of_decode_take (Utf16.decode_eq_some_iff.mpr hspelt), hspelt, ?_⟩
    rw [h, hfront]
    rfl

/-- A string that its count can express is read back as it was written, and nothing of what follows it. Of a longer
one, the front that the count can express is read back, unless the cut has gone through a surrogate pair. A byte string
without a count is read exactly if it is well-formed in UTF-16, two bytes a unit, and a token with the text that
was read is sent as the same bytes. -/
theorem strings_readBack :
    ReadsBack readShort writeShort 0xFF ∧ ReadsBack readLong writeLong 0xFFFF ∧
    ∀ data : Bytes,
      ((∃ text, ofBytes data = .ok text) ↔ data.length % 2 = 0 ∧ Utf16.WellFormed (Utf16.ofBytes data)) ∧
      ∀ token : BearerToken, ofBytes data = .ok token.text → token.toBytes = data := by
  refine ⟨readsBack_of_read readShort_writeShort, readsBack_of_read readLong_writeLong, fun data => ⟨?_, ?_⟩⟩
  · simp only [ofBytes_eq_ok_iff, exists_and_left, exists_ofUnits_iff]
  · exact fun token h => bytesOf_of_ofBytes h

/-- A text in which the only pair of surrogates comes behind `n` other units. -/
def pairBehind (n : Nat) : String := String.ofList (List.replicate n 'a' ++ ['😀', 'b'])

theorem encode_pairBehind (n : Nat) :
    Utf16.encode (pairBehind n).toList = List.replicate n 0x61 ++ [0xD83D, 0xDE00, 0x62] := by
  rw [pairBehind, String.toList_ofList]
  induction n with
  | zero => rfl
  | succ n ih =>
    rw [List.replicate_succ, List.cons_append, Utf16.encode_cons, ih]
    rfl

/-- Its pair is cut behind the first half, and nowhere else. -/
theorem cutsPair_pairBehind_iff {n k : Nat} : Utf16.CutsPair k (Utf16.encode (pairBehind n).toList) ↔ k = n + 1 := by
  rw [encode_pairBehind]
  constructor
  · rintro ⟨m, u, v, -, -, -, hv, hlow⟩
    rw [List.getElem?_append, List.length_replicate] at hv
    split at hv
    · rw [List.getElem?_replicate_of_lt ‹_›] at hv
      cases hv
      exact absurd hlow (by decide)
    · rcases hk : k - n with _ | _ | _ | j <;> rw [hk] at hv <;> cases hv
      · exact absurd hlow (by decide)
      · omega
      · exact absurd hlow (by decide)
  · rintro rfl
    refine ⟨n, 0xD83D, 0xDE00, rfl, ?_, by decide, ?_, by decide⟩
    · rw [List.getElem?_append_right (by simp), List.length_replicate, Nat.sub_self]
      rfl
    · rw [List.getElem?_append_right (by simp), List.length_replicate, Nat.add_sub_cancel_left]
      rfl

/-- A pair that begins with the last unit the count can express is torn apart, and one that ends with it is not. A pair
that has been read is sent as it was. -/
theorem pairBehind_readBack :
    readShort (writeShort (pairBehind 254) ++ [7]) = .error loneSurrogate ∧
    (∃ front : String, front.toList <+: (pairBehind 253).toList ∧ Utf16.size front = 255 ∧
      readShort (writeShort (pairBehind 253) ++ [7]) = .ok (front, [7])) ∧
    readShort (writeShort (pairBehind 252) ++ [7]) = .ok (pairBehind 252, [7]) ∧
    ofBytes [0x3D, 0xD8, 0x00, 0xDE] = .ok "😀" ∧
    (BearerToken.mk "😀" 0).toBytes = [0x3D, 0xD8, 0x00, 0xDE] := by
  obtain ⟨hshort, -, hbytes⟩ := strings_readBack
  have hsize (n : Nat) : Utf16.size (pairBehind n) = n + 3 := by
    rw [Utf16.size, encode_pairBehind, List.length_append, List.length_replicate]
    rfl
  have hlonger {n : Nat} (h : 252 < n) : 0xFF < Utf16.size (pairBehind n) := by
    rw [hsize]
    omega
  have hread : ofBytes [0x3D, 0xD8, 0x00, 0xDE] = .ok "😀" := rfl
  refine ⟨hshort.broken _ _ (hlonger (by decide)) (cutsPair_pairBehind_iff.mpr rfl), ?_, ?_, hread,
    (hbytes _).2 ⟨"😀", 0⟩ hread⟩
  · have hlong : 0xFF < Utf16.size (pairBehind 253) := hlonger (by decide)
    obtain ⟨front, hprefix, hfront, hread⟩ := hshort.front (pairBehind 253) [7] hlong
      fun h => absurd (cutsPair_pairBehind_iff.mp h) (by decide)
    refine ⟨front, hprefix, ?_, hread⟩
    rw [Utf16.size, hfront, List.length_take, ← Utf16.size]
    omega
  · exact hshort.whole _ _ (Nat.le_of_eq (hsize 252))

end TdsSession.Varchar
