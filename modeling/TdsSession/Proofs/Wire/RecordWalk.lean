import Mathlib.Algebra.GroupWithZero.Nat
import TdsSession.Proofs.Wire.StateRecord
import TdsSession.Wire.RecordWalk

/-!
# What a walk over state records gives

A walk gives the records that a scan of the same bytes gives, and then the
reason why the scan ends early, if it does (`RecordWalk.items_start`). So what
holds of one holds of the other. It gives no reason exactly if the bytes are
records one after the other, each in one of its two forms (`StateRecord.Forms`),
and then whatever follows them is walked over as if it stood alone.
-/

namespace TdsSession

namespace StateRecord

variable {r : StateRecord} {rs : List StateRecord} {data part rest : Bytes}

/-- Induction on a byte string, record by record: it ends where there are no bytes, or where they cannot be read. -/
theorem read_induction {P : Bytes → Prop} (nil : P [])
    (stuck : ∀ data e, data.isEmpty = false → read data = .error e → P data)
    (step : ∀ data r rest, data.isEmpty = false → read data = .ok (r, rest) → P rest → P data) (data : Bytes) :
    P data := by
  rcases hempty : data.isEmpty with _ | _
  · rcases hread : read data with e | ⟨r, rest⟩
    · exact stuck data e hempty hread
    · exact step data r rest hempty hread (read_induction nil stuck step rest)
  · exact List.isEmpty_iff.mp hempty ▸ nil
termination_by data.length
decreasing_by exact length_of_read hread

/-- The bytes are these records one after the other, each in one of its forms. -/
inductive Forms : List StateRecord → Bytes → Prop
  | nil : Forms [] []
  | cons {r : StateRecord} {rs : List StateRecord} {part rest : Bytes} (h : Form r part) (hs : Forms rs rest) :
    Forms (r :: rs) (part ++ rest)

/-- What is written consists of forms. -/
theorem forms_writeAll (h : ∀ r ∈ rs, r.data.length < UInt32.size) : Forms rs (writeAll rs) := by
  induction rs with
  | nil => exact .nil
  | cons r rs ih =>
    exact .cons (form_write (h r List.mem_cons_self)) (ih fun r' hr' => h r' (List.mem_cons_of_mem _ hr'))

/-- Records are scanned, and then what follows them. -/
theorem Forms.scan_append (h : Forms rs data) (rest : Bytes) :
    scan (data ++ rest) = (rs ++ (scan rest).1, (scan rest).2) := by
  induction h with
  | nil => rfl
  | @cons r rs part later hr _ ih =>
    rw [List.append_assoc, scan_of_read (hr.read_append (later ++ rest)), ih]
    rfl

/-- There are half as many records as there are bytes at most. -/
theorem Forms.length_le (h : Forms rs data) : 2 * rs.length ≤ data.length := by
  induction h with
  | nil => exact Nat.le_refl _
  | cons hr _ ih =>
    have hpart := hr.two_le
    rw [List.length_cons, List.length_append]
    omega

/-- What has been scanned consists of forms; bytes are left exactly if the first of them cannot be read as a record. -/
theorem forms_of_scan (data : Bytes) : ∃ part rest, data = part ++ rest ∧ Forms (scan data).1 part ∧
    ((scan data).2 = none ∧ rest = [] ∨ ∃ e, (scan data).2 = some e ∧ rest ≠ []) := by
  induction data using read_induction with
  | nil =>
    rw [scan_nil]
    exact ⟨[], [], rfl, .nil, .inl ⟨rfl, rfl⟩⟩
  | stuck data e hne hread =>
    rw [scan_of_error hne hread]
    exact ⟨[], data, rfl, .nil, .inr ⟨e, rfl, by simpa using hne⟩⟩
  | step data r later hne hread ih =>
    obtain ⟨form, hform, rfl⟩ := form_of_read hread
    obtain ⟨part, rest, rfl, hforms, hend⟩ := ih
    rw [scan_of_read hread]
    exact ⟨form ++ part, rest, (List.append_assoc ..).symm, .cons hform hforms, hend⟩

/-- A scan does not end early exactly if the bytes consist of forms. -/
theorem scan_eq_none_iff : (scan data).2 = none ↔ ∃ rs, Forms rs data := by
  constructor
  · intro hnone
    obtain ⟨part, rest, hdata, hforms, ⟨-, rfl⟩ | ⟨e, he, -⟩⟩ := forms_of_scan data
    · rw [List.append_nil] at hdata
      exact ⟨_, hdata.symm ▸ hforms⟩
    · rw [hnone] at he
      cases he
  · rintro ⟨rs, hforms⟩
    have hscan := hforms.scan_append []
    rw [List.append_nil, scan_nil] at hscan
    rw [hscan]

/-- A written record is as long as its slot and its value. -/
theorem length_write (r : StateRecord) : r.write.length = 1 + valueSize r.data.length := by
  unfold write writeLength valueSize
  split <;> simp <;> omega

end StateRecord

open StateRecord

namespace RecordWalk

variable {w w' : RecordWalk} {item : Except ProtocolError StateRecord}

/-! ## Step by step -/

theorem items_of_end (h : w.next = none) : w.items = [] := by
  rw [items]
  split
  · rfl
  · rename_i item rest hnext
    rw [h] at hnext
    cases hnext

theorem items_of_next (h : w.next = some (item, w')) : w.items = item :: w'.items := by
  rw [items]
  split
  · rename_i hnext
    rw [h] at hnext
    cases hnext
  · rename_i item' rest hnext
    rw [h] at hnext
    cases hnext
    rfl

/-- Nothing comes after a record that could not be read. -/
theorem items_of_failed (h : w.failed = true) : w.items = [] := items_of_end (by simp [next, h])

/-- A walk is over once a record could not be read. -/
theorem failed_of_next {e : ProtocolError} (h : w.next = some (.error e, w')) : w'.failed = true := by
  unfold next at h
  split at h
  · cases h
  · split at h <;> cases h
    rfl

/-- A reason why a record cannot be read is the last item. -/
theorem eq_nil_of_error {before after : List (Except ProtocolError StateRecord)} {e : ProtocolError}
    (h : w.items = before ++ .error e :: after) : after = [] := by
  induction before generalizing w with
  | nil =>
    rcases hnext : w.next with _ | ⟨item, w'⟩
    · rw [items_of_end hnext] at h
      cases h
    · rw [items_of_next hnext] at h
      obtain ⟨rfl, rfl⟩ := List.cons.inj h
      exact items_of_failed (failed_of_next hnext)
  | cons item before ih =>
    rcases hnext : w.next with _ | ⟨item', w'⟩
    · rw [items_of_end hnext] at h
      cases h
    · rw [items_of_next hnext] at h
      exact ih (List.cons.inj h).2

/-- A walk gives what a scan gives: the records, and then the reason why there are no more. -/
theorem items_start (data : Bytes) :
    (start data).items = (scan data).1.map .ok ++ (scan data).2.toList.map .error := by
  induction data using read_induction with
  | nil =>
    rw [scan_nil]
    exact items_of_end rfl
  | stuck data e hne hread =>
    have hnext : (start data).next = some (.error e, ⟨data, true⟩) := by simp [next, start, hne, hread]
    rw [items_of_next hnext, items_of_failed rfl, scan_of_error hne hread]
    rfl
  | step data r rest hne hread ih =>
    have hnext : (start data).next = some (.ok r, start rest) := by simp [next, start, hne, hread]
    rw [items_of_next hnext, ih, scan_of_read hread]
    rfl

/-! ## A whole walk -/

/-- Whoever wants all the records or none has what comes of a whole walk. -/
theorem readAll_eq (data : Bytes) : readAll data = (start data).items.mapM id := by
  have hrecords (rs : List StateRecord) (rest : List (Except ProtocolError StateRecord)) :
      (rs.map Except.ok ++ rest).mapM id = (rest.mapM id).map (rs ++ ·) := by
    induction rs with
    | nil =>
      show rest.mapM id = _
      cases rest.mapM id <;> rfl
    | cons r rs ih =>
      rw [List.map_cons, List.cons_append, List.mapM_cons, ih]
      cases rest.mapM id <;> rfl
  rw [items_start, readAll, hrecords]
  rcases scan data with ⟨rs, _ | e⟩
  · exact congrArg Except.ok (List.append_nil rs).symm
  · rfl

/-- There is one item for every two bytes, and one more at most. -/
theorem length_items_le (data : Bytes) : (start data).items.length ≤ data.length / 2 + 1 := by
  obtain ⟨part, rest, hdata, hforms, hend⟩ := forms_of_scan data
  have hrecords := hforms.length_le
  have hlength : data.length = part.length + rest.length := by rw [← List.length_append, ← hdata]
  rw [items_start, List.length_append, List.length_map, List.length_map]
  rcases hend with ⟨hnone, -⟩ | ⟨e, he, -⟩
  · rw [hnone, Option.toList_none, List.length_nil]
    omega
  · rw [he, Option.toList_some, List.length_singleton]
    omega

/-- No item is a reason exactly if the bytes consist of forms. -/
theorem forall_isOk_iff (data : Bytes) : (∀ item ∈ (start data).items, item.isOk) ↔ ∃ rs, Forms rs data := by
  rw [← scan_eq_none_iff, items_start]
  constructor
  · intro hall
    rcases hend : (scan data).2 with _ | e
    · rfl
    · rw [hend] at hall
      exact absurd (hall (.error e) (List.mem_append_right _ List.mem_cons_self)) Bool.false_ne_true
  · intro hnone item hitem
    rw [hnone, Option.toList_none, List.map_nil, List.append_nil] at hitem
    obtain ⟨r, -, rfl⟩ := List.mem_map.mp hitem
    rfl

/-- Forms are walked over record by record, and then what follows them. -/
theorem items_append {rs : List StateRecord} {data : Bytes} (h : Forms rs data) (rest : Bytes) :
    (start (data ++ rest)).items = rs.map .ok ++ (start rest).items := by
  rw [items_start, h.scan_append, items_start, List.map_append, List.append_assoc]

/-- Forms alone are walked over record by record. -/
theorem items_of_forms {rs : List StateRecord} {data : Bytes} (h : Forms rs data) :
    (start data).items = rs.map .ok := by
  have hitems := items_append h []
  rwa [List.append_nil, items_of_end (show (start []).next = none from rfl), List.append_nil] at hitems

end RecordWalk

/-- What has been written is walked over record by record, and is as long as all slots with their values. Whatever the
bytes are, a walk over them ends after one item for every two bytes and one more at most; a reason why a record cannot be
read is the last item, and there is none exactly if the bytes are records one after the other, each in one of its two
forms; whoever wants all the records or none has what comes of the walk. Behind bytes that are such records the walk goes
on as over what follows them alone. -/
theorem records_walked :
    (∀ rs : List StateRecord, (∀ r ∈ rs, r.data.length < UInt32.size) →
      (RecordWalk.start (writeAll rs)).items = rs.map .ok ∧
      (writeAll rs).length = (rs.map fun r => 1 + valueSize r.data.length).sum) ∧
    (∀ data : Bytes,
      (RecordWalk.start data).items.length ≤ data.length / 2 + 1 ∧
      (∀ before e after, (RecordWalk.start data).items = before ++ .error e :: after → after = []) ∧
      ((∀ item ∈ (RecordWalk.start data).items, item.isOk) ↔ ∃ rs, Forms rs data) ∧
      readAll data = (RecordWalk.start data).items.mapM id) ∧
    ∀ rs a b, Forms rs a →
      (RecordWalk.start (a ++ b)).items = (RecordWalk.start a).items ++ (RecordWalk.start b).items := by
  refine ⟨fun rs h => ⟨RecordWalk.items_of_forms (forms_writeAll h), ?_⟩, fun data => ?_, fun rs a b h => ?_⟩
  · rw [writeAll, List.length_flatMap]
    exact congrArg List.sum (List.map_congr_left fun r _ => length_write r)
  · exact ⟨RecordWalk.length_items_le data, fun _ _ _ => RecordWalk.eq_nil_of_error, RecordWalk.forall_isOk_iff data,
      RecordWalk.readAll_eq data⟩
  · rw [RecordWalk.items_append h, RecordWalk.items_of_forms h]

/-- A value of 300 bytes is written in the long form, in which a value of one byte can be read too; what is left behind
that is too short for a record. -/
theorem escapedRecords_walked :
    (RecordWalk.start (writeAll [⟨3, [1, 2]⟩, ⟨200, List.replicate 300 0x5A⟩])).items =
      [.ok ⟨3, [1, 2]⟩, .ok ⟨200, List.replicate 300 0x5A⟩] ∧
    (RecordWalk.start ([7, 0xFF, 1, 0, 0, 0, 9] ++ [8])).items =
      (RecordWalk.start [7, 0xFF, 1, 0, 0, 0, 9]).items ++ (RecordWalk.start [8]).items := by
  obtain ⟨hwritten, -, hafter⟩ := records_walked
  refine ⟨(hwritten [⟨3, [1, 2]⟩, ⟨200, List.replicate 300 0x5A⟩] ?_).1, ?_⟩
  · intro r hr
    rcases List.mem_cons.mp hr with rfl | hr
    · decide
    · rw [List.mem_singleton.mp hr, List.length_replicate]
      decide
  · have hform : Form ⟨7, [9]⟩ [7, 0xFF, 1, 0, 0, 0, 9] := .long (by decide)
    exact hafter [⟨7, [9]⟩] _ [8] (.cons hform .nil)

end TdsSession
