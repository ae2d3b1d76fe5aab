import TdsSession.Proofs.Wire.Reader
import TdsSession.Wire.StateRecord

/-!
# Session state records read back

A record whose length a 32-bit word can express is read back as it was written,
in the short form and in the long one, and so is a list of such records.
-/

namespace TdsSession.StateRecord

theorem value_append (slot : UInt8) (data rest : Bytes) :
    read.value slot data.length (data ++ rest) = .ok (⟨slot, data⟩, rest) := by
  rw [read.value, if_pos (by simp), List.take_left, List.drop_left]

/-- A value that can be read is the next `n` bytes. -/
theorem value_eq_ok {slot : UInt8} {n : Nat} {data rest : Bytes} {r : StateRecord}
    (h : read.value slot n data = .ok (r, rest)) : r.slot = slot ∧ r.data.length = n ∧ data = r.data ++ rest := by
  unfold read.value at h
  split at h
  · rename_i hle
    cases h
    exact ⟨rfl, List.length_take_of_le hle, (List.take_append_drop n data).symm⟩
  · cases h

/-! ## The two forms of a record -/

/-- The forms in which a record can be written. A length below 255 can be one byte, and any length a 32-bit word after
the byte 255. -/
inductive Form (r : StateRecord) : Bytes → Prop
  | short (h : r.data.length < 0xFF) : Form r (r.slot :: UInt8.ofNat r.data.length :: r.data)
  | long (h : r.data.length < UInt32.size) :
    Form r (r.slot :: 0xFF :: (Bytes.littleEndian 4 r.data.length ++ r.data))

/-- What is written is one of the forms. -/
theorem form_write {r : StateRecord} (h : r.data.length < UInt32.size) : Form r r.write := by
  by_cases hshort : r.data.length < 0xFF
  · have hwrite : r.write = r.slot :: UInt8.ofNat r.data.length :: r.data := by
      simp [write, writeLength, hshort, Bytes.littleEndian]
    exact hwrite ▸ .short hshort
  · have hwrite : r.write = r.slot :: 0xFF :: (Bytes.littleEndian 4 r.data.length ++ r.data) := by
      simp [write, writeLength, hshort]
    exact hwrite ▸ .long h

/-- Either form is read, and what follows it is left. -/
theorem Form.read_append {r : StateRecord} {part : Bytes} (h : Form r part) (rest : Bytes) :
    read (part ++ rest) = .ok (r, rest) := by
  cases h with
  | short hshort =>
    have hlength : (UInt8.ofNat r.data.length).toNat = r.data.length :=
      UInt8.toNat_ofNat_of_lt (Nat.lt_trans hshort (by decide))
    have hne : UInt8.ofNat r.data.length ≠ 0xFF := fun heq => by
      rw [heq] at hlength
      exact absurd hlength.symm (Nat.ne_of_lt hshort)
    rw [List.cons_append, List.cons_append, read, if_neg hne, hlength, value_append]
  | long hlong =>
    have hword : (Bytes.littleEndian 4 r.data.length).length = 4 := Bytes.length_littleEndian 4 r.data.length
    have hlength : Bytes.ofLittleEndian (Bytes.littleEndian 4 r.data.length) = r.data.length := by
      rw [Bytes.ofLittleEndian_littleEndian]
      exact Nat.mod_eq_of_lt hlong
    rw [List.cons_append, List.cons_append, List.append_assoc, read, if_pos rfl, if_pos (by simp),
      List.take_left' hword, List.drop_left' hword, hlength, value_append]

/-- What can be read is one of the forms of what is read. -/
theorem form_of_read {data rest : Bytes} {r : StateRecord} (h : read data = .ok (r, rest)) :
    ∃ part, Form r part ∧ data = part ++ rest := by
  unfold read at h
  split at h
  · rename_i slot short tail
    split at h
    · rename_i hescape
      split at h
      · rename_i hword
        obtain ⟨rfl, hlength, hdata⟩ := value_eq_ok h
        have htake : (tail.take 4).length = 4 := List.length_take_of_le hword
        have hlong : r.data.length < UInt32.size := by
          have hlt := Bytes.ofLittleEndian_lt (tail.take 4)
          rw [htake] at hlt
          rw [hlength]
          exact hlt
        have hwritten : Bytes.littleEndian 4 r.data.length = tail.take 4 := by
          have hback := Bytes.littleEndian_ofLittleEndian (tail.take 4)
          rwa [htake, ← hlength] at hback
        refine ⟨_, .long hlong, ?_⟩
        rw [hwritten, hescape, List.cons_append, List.cons_append, List.append_assoc, ← hdata, List.take_append_drop]
      · cases h
    · rename_i hshort
      obtain ⟨rfl, hlength, rfl⟩ := value_eq_ok h
      have hlt : r.data.length < 0xFF := by
        have hbyte := short.toNat_lt
        have hne : short.toNat ≠ 0xFF := fun heq => hshort (UInt8.toNat_inj.mp heq)
        omega
      refine ⟨_, .short hlt, ?_⟩
      rw [hlength, UInt8.ofNat_toNat]
      rfl
  · cases h

/-- A form takes two bytes at least. -/
theorem Form.two_le {r : StateRecord} {part : Bytes} (h : Form r part) : 2 ≤ part.length := by
  cases h <;> simp

/-- A record is read back, and what follows it is left. -/
theorem read_append {r : StateRecord} (h : r.data.length < UInt32.size) (rest : Bytes) :
    read (r.write ++ rest) = .ok (r, rest) := (form_write h).read_append rest

/-! ## All records of a byte string -/

theorem scan_nil : scan [] = ([], none) := by
  rw [scan]
  rfl

/-- After a record that can be read comes the rest. -/
theorem scan_of_read {data rest : Bytes} {r : StateRecord} (h : read data = .ok (r, rest)) :
    scan data = (r :: (scan rest).1, (scan rest).2) := by
  have hne : data.isEmpty = false := by
    cases data with
    | nil => cases h
    | cons b data => rfl
  rw [scan]
  simp only [hne, Bool.false_eq_true, if_false]
  split
  · rename_i e he
    rw [h] at he
    cases he
  · rename_i r' rest' hr
    rw [h] at hr
    cases hr
    rfl

/-- Nothing comes after a record that cannot be read. -/
theorem scan_of_error {data : Bytes} {e : ProtocolError} (hne : data.isEmpty = false) (h : read data = .error e) :
    scan data = ([], some e) := by
  rw [scan]
  simp only [hne, Bool.false_eq_true, if_false]
  split
  · rename_i e' he
    rw [h] at he
    cases he
    rfl
  · rename_i r rest hr
    rw [h] at hr
    cases hr

theorem readAll_nil : readAll [] = .ok [] := by
  rw [readAll, scan_nil]

theorem readAll_of_read {data rest : Bytes} {r : StateRecord} (h : read data = .ok (r, rest)) :
    readAll data = (readAll rest).map (r :: ·) := by
  rw [readAll, scan_of_read h, readAll]
  cases scan rest with
  | mk rs e => cases e <;> rfl

theorem readAll_of_error {data : Bytes} {e : ProtocolError} (hne : data.isEmpty = false) (h : read data = .error e) :
    readAll data = .error e := by
  rw [readAll, scan_of_error hne h]

theorem scan_writeAll {rs : List StateRecord} (h : ∀ r ∈ rs, r.data.length < UInt32.size) :
    scan (writeAll rs) = (rs, none) := by
  induction rs with
  | nil => exact scan_nil
  | cons r rs ih =>
    have hr := read_append (h r List.mem_cons_self) (writeAll rs)
    show scan (r.write ++ writeAll rs) = _
    rw [scan_of_read hr, ih fun r' hr' => h r' (List.mem_cons_of_mem r hr')]

/-- A list of records is read back. -/
theorem readAll_writeAll {rs : List StateRecord} (h : ∀ r ∈ rs, r.data.length < UInt32.size) :
    readAll (writeAll rs) = .ok rs := by
  rw [readAll, scan_writeAll h]

/-- A list of records is at least as long as what is in it. -/
theorem length_data_le {rs : List StateRecord} {r : StateRecord} (h : r ∈ rs) :
    r.data.length ≤ (writeAll rs).length := by
  induction rs with
  | nil => cases h
  | cons r' rs ih =>
    show _ ≤ (r'.write ++ writeAll rs).length
    rw [List.length_append]
    rcases List.mem_cons.mp h with rfl | h
    · simp only [write, List.length_cons, List.length_append]
      omega
    · exact Nat.le_trans (ih h) (Nat.le_add_left ..)

end TdsSession.StateRecord
