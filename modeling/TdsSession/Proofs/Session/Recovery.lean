import TdsSession.Proofs.Wire.ReadBack
import TdsSession.Session.Recovery

/-!
# What a request carries over

A request to carry a session over is read back as it was written, as long as
its lengths can be expressed (`RecoveryRequest.read_write`). It says what the
session began with, and what has changed: laid over the first part, the second
gives the state the session is in (`recoveryRequest_faithful`). Leaving a
setting or a slot out of the second part says that it has not changed, so only
what has the same value in both parts is left out.
-/

namespace TdsSession

open Text Reader

/-! ## Settings and slots -/

namespace SessionSettings

/-- The settings of which those that are missing are taken from `baseline`. -/
def laidOver (current baseline : SessionSettings) : SessionSettings where
  database := current.database.or baseline.database
  language := current.language.or baseline.language
  collation := current.collation.or baseline.collation

/-- Every name has a character, and no more units than a byte can count. -/
def Writable (s : SessionSettings) : Prop :=
  ∀ name, s.database = some name ∨ s.language = some name → name ≠ "" ∧ Utf16.size name ≤ 0xFF

end SessionSettings

namespace Slots

variable {α : Type} {s : Slots α}

/-- The list of a table's slots holds every value, with its slot. -/
theorem mem_toList {slot : UInt8} {value : α} : (slot, value) ∈ s.toList ↔ s.get slot = some value := by
  unfold toList
  rw [List.mem_filterMap]
  constructor
  · rintro ⟨n, -, h⟩
    obtain ⟨value', hget, heq⟩ := Option.map_eq_some_iff.mp h
    cases heq
    exact hget
  · intro hget
    refine ⟨slot.toNat, List.mem_range.mpr (slot_lt slot), ?_⟩
    rw [UInt8.ofNat_toNat, hget]
    rfl

/-- Slots are listed in ascending order, and so each of them once. -/
theorem pairwise_toList (s : Slots α) : s.toList.Pairwise fun a b => a.1 < b.1 := by
  unfold toList
  rw [List.pairwise_filterMap]
  refine List.pairwise_lt_range.imp_of_mem ?_
  intro n m hn hm hlt a ha b hb
  obtain ⟨_, -, rfl⟩ := Option.map_eq_some_iff.mp ha
  obtain ⟨_, -, rfl⟩ := Option.map_eq_some_iff.mp hb
  have hm : m < 256 := List.mem_range.mp hm
  have hn' : (UInt8.ofNat n).toNat = n := UInt8.toNat_ofNat_of_lt (Nat.lt_trans hlt hm)
  have hm' : (UInt8.ofNat m).toNat = m := UInt8.toNat_ofNat_of_lt hm
  show (UInt8.ofNat n).toNat < (UInt8.ofNat m).toNat
  rwa [hn', hm']

end Slots

namespace SessionImage

/-- The name that a part gives; an empty one is none. -/
def named (name : String) : Option String := if name = "" then none else some name

/-- The settings of a part. -/
def settings (i : SessionImage) : SessionSettings where
  database := named i.database
  language := named i.language
  collation := i.collation

theorem named_getD {name? : Option String} (h : ∀ name, name? = some name → name ≠ "") :
    named (name?.getD "") = name? := by
  rcases name? with _ | name
  · rfl
  · exact if_neg (h name rfl)

/-- The value of a slot in a part. -/
def slot? (i : SessionImage) (slot : UInt8) : Option Bytes :=
  (i.slots.find? fun r => r.slot = slot).map StateRecord.data

/-- The slots of a part are in ascending order, and so each is there once. -/
def Ascending (i : SessionImage) : Prop := i.slots.Pairwise fun r r' => r.slot < r'.slot

/-- In ascending order no record of a slot hides another. -/
theorem Ascending.slot?_eq_some_iff {i : SessionImage} (h : i.Ascending) {slot : UInt8} {data : Bytes} :
    i.slot? slot = some data ↔ ⟨slot, data⟩ ∈ i.slots := by
  obtain ⟨database, collation, language, slots⟩ := i
  unfold Ascending at h
  unfold slot?
  induction slots with
  | nil => simp
  | cons r rs ih =>
    obtain ⟨hfirst, hrest⟩ := List.pairwise_cons.mp h
    by_cases hr : r.slot = slot
    · subst hr
      rw [List.find?_cons_of_pos (by simp), List.mem_cons]
      constructor
      · intro heq
        left
        cases heq
        rfl
      · rintro (heq | hmem)
        · rw [← heq]
          rfl
        · exact absurd (hfirst _ hmem) (UInt8.lt_irrefl r.slot)
    · rw [List.find?_cons_of_neg (by simpa using hr), ih hrest, List.mem_cons]
      constructor
      · exact .inr
      · rintro (heq | hmem)
        · exact absurd (congrArg StateRecord.slot heq.symm) hr
        · exact hmem

/-- The lengths of a part can be expressed. -/
structure Writable (i : SessionImage) : Prop where
  database : Utf16.size i.database ≤ 0xFF
  language : Utf16.size i.language ≤ 0xFF
  slots : ∀ r ∈ i.slots, r.data.length < UInt32.size

/-- A part that is not too long has no slot that is. -/
theorem writable_of_length {i : SessionImage} (hd : Utf16.size i.database ≤ 0xFF)
    (hl : Utf16.size i.language ≤ 0xFF) (h : i.write.length < UInt32.size) : i.Writable where
  database := hd
  language := hl
  slots r hr := by
    have hslots : (StateRecord.writeAll i.slots).length ≤ i.write.length := by
      rw [write, List.length_append]
      exact Nat.le_add_left ..
    exact Nat.lt_of_le_of_lt (Nat.le_trans (StateRecord.length_data_le hr) hslots) h

end SessionImage

/-! ## Reading a request back -/

namespace SessionImage

theorem reads_writeCollation (collation : Option Collation) :
    Reads readCollation (writeCollation collation) collation := by
  cases collation with
  | none =>
    intro rest
    rw [readCollation, bind_eq_ok]
    exact ⟨0, rest, reads_byte 0 rest, rfl⟩
  | some c =>
    have hbody := reads_exactly (c.reads_write).whole
    rw [c.length_write] at hbody
    exact (reads_u8 Collation.size).bind (hbody.bind_pure some)

/-- A part is read back to its end. -/
theorem read_write {i : SessionImage} (h : i.Writable) : read i.write = .ok (i, []) := by
  have hsettings : i.write = Varchar.writeShort i.database ++ (writeCollation i.collation ++
      (Varchar.writeShort i.language ++ StateRecord.writeAll i.slots)) := by
    simp only [write, List.append_assoc]
  rw [hsettings, read, bind_eq_ok]
  refine ⟨i.database, _, Varchar.reads_writeShort h.database _, ?_⟩
  rw [bind_eq_ok]
  refine ⟨i.collation, _, reads_writeCollation i.collation _, ?_⟩
  rw [bind_eq_ok]
  refine ⟨i.language, _, Varchar.reads_writeShort h.language _, ?_⟩
  rw [bind_eq_ok]
  refine ⟨StateRecord.writeAll i.slots, StateRecord.writeAll i.slots, rfl, ?_⟩
  rw [bind_eq_ok]
  exact ⟨i.slots, _, Reads.lift (StateRecord.readAll_writeAll h.slots) _, rfl⟩

end SessionImage

namespace RecoveryRequest

/-- A part is read back after its length. -/
theorem reads_part {i : SessionImage} (h : i.Writable) (hlength : i.write.length < UInt32.size) :
    Reads readPart (Bytes.littleEndian 4 i.write.length ++ i.write) i := by
  have hword : (UInt32.ofNat i.write.length).toNat = i.write.length := UInt32.toNat_ofNat_of_lt hlength
  refine (reads_u32 i.write.length).bind ?_
  rw [hword]
  exact reads_exactly (SessionImage.read_write h)

theorem length_write (r : RecoveryRequest) :
    r.write.length = 12 + r.initial.write.length + r.current.write.length := by
  simp only [write, List.length_append, Bytes.length_littleEndian]
  omega

theorem length_initial_le (r : RecoveryRequest) : r.initial.write.length ≤ r.write.length := by
  rw [length_write]
  omega

theorem length_current_le (r : RecoveryRequest) : r.current.write.length ≤ r.write.length := by
  rw [length_write]
  omega

/-- A request is read back: all of its lengths are exact, and nothing is left over. -/
theorem read_write {r : RecoveryRequest} (hi : r.initial.Writable) (hc : r.current.Writable)
    (h : r.write.length < UInt32.size) : read r.write = .ok (r, []) := by
  let body := Bytes.littleEndian 4 r.initial.write.length ++ r.initial.write ++
    Bytes.littleEndian 4 r.current.write.length ++ r.current.write
  have hwrite : r.write = Bytes.littleEndian 4 body.length ++ body := rfl
  have hlength : r.write.length = 4 + body.length := by
    rw [hwrite, List.length_append, Bytes.length_littleEndian]
  have hword : (UInt32.ofNat body.length).toNat = body.length :=
    UInt32.toNat_ofNat_of_lt (show body.length < UInt32.size by omega)
  have hparts : Reads (do
      let initial ← readPart
      let current ← readPart
      return { initial, current }) body r := by
    have hcurrent := (reads_part hc (Nat.lt_of_le_of_lt r.length_current_le h)).bind_pure (mk r.initial)
    have hboth := (reads_part hi (Nat.lt_of_le_of_lt r.length_initial_le h)).bind (f := fun initial => do
      let current ← readPart
      return (⟨initial, current⟩ : RecoveryRequest)) hcurrent
    rwa [← List.append_assoc] at hboth
  have hread : Reads read (Bytes.littleEndian 4 body.length ++ body) r := by
    refine (reads_u32 body.length).bind ?_
    rw [hword]
    exact reads_exactly hparts.whole
  exact hwrite ▸ hread.whole

/-- The settings that a request asks for: those that have changed, and else those of the beginning. -/
def settings (r : RecoveryRequest) : SessionSettings := r.current.settings.laidOver r.initial.settings

/-- The value that a request asks for in a slot. -/
def slot? (r : RecoveryRequest) (slot : UInt8) : Option Bytes :=
  (r.current.slot? slot).or (r.initial.slot? slot)

end RecoveryRequest

/-! ## The request of a session -/

namespace SessionState

/-- The settings a session is in. -/
def settings (s : SessionState) : SessionSettings := s.current.laidOver s.baseline

/-- The value of a slot as far as it can be carried over: the change if that can, and else what the session
began with. -/
def slot? (s : SessionState) (slot : UInt8) : Option Bytes :=
  (((s.changes.get slot).filter SlotChange.recoverable).map SlotChange.data).or (s.initial.get slot)

variable {s : SessionState}

theorem mem_initial_slots {slot : UInt8} {data : Bytes} :
    ⟨slot, data⟩ ∈ s.recoveryRequest.initial.slots ↔ s.initial.get slot = some data := by
  rw [← Slots.mem_toList]
  show _ ∈ s.initial.toList.map _ ↔ _
  rw [List.mem_map]
  constructor
  · rintro ⟨p, hp, heq⟩
    cases heq
    exact hp
  · exact fun hp => ⟨_, hp, rfl⟩

theorem mem_current_slots {slot : UInt8} {data : Bytes} :
    ⟨slot, data⟩ ∈ s.recoveryRequest.current.slots ↔
      ∃ change, s.changes.get slot = some change ∧ change.recoverable ∧ s.initial.get slot ≠ some change.data ∧
        change.data = data := by
  show _ ∈ s.changes.toList.filterMap _ ↔ _
  rw [List.mem_filterMap]
  constructor
  · rintro ⟨⟨slot', change⟩, hp, heq⟩
    dsimp only at heq
    split at heq
    · rename_i hc
      cases heq
      exact ⟨change, Slots.mem_toList.mp hp, hc.1, hc.2, rfl⟩
    · cases heq
  · rintro ⟨change, hget, hr, hne, rfl⟩
    exact ⟨(slot, change), Slots.mem_toList.mpr hget, if_pos ⟨hr, hne⟩⟩

theorem ascending_initial (s : SessionState) : s.recoveryRequest.initial.Ascending := by
  show (s.initial.toList.map _).Pairwise _
  rw [List.pairwise_map]
  exact s.initial.pairwise_toList

theorem ascending_current (s : SessionState) : s.recoveryRequest.current.Ascending := by
  show (s.changes.toList.filterMap _).Pairwise _
  rw [List.pairwise_filterMap]
  refine s.changes.pairwise_toList.imp ?_
  intro p p' hlt r hr r' hr'
  dsimp only at hr hr'
  split at hr <;> cases hr
  split at hr' <;> cases hr'
  exact hlt

theorem slot?_initial (s : SessionState) (slot : UInt8) :
    s.recoveryRequest.initial.slot? slot = s.initial.get slot :=
  Option.ext fun _ => (ascending_initial s).slot?_eq_some_iff.trans mem_initial_slots

theorem slot?_current (s : SessionState) (slot : UInt8) :
    s.recoveryRequest.current.slot? slot =
      ((s.changes.get slot).filter fun c => c.recoverable ∧ s.initial.get slot ≠ some c.data).map
        SlotChange.data := by
  refine Option.ext fun data => (ascending_current s).slot?_eq_some_iff.trans (mem_current_slots.trans ?_)
  simp only [Option.map_eq_some_iff, Option.filter_eq_some_iff, decide_eq_true_eq, and_assoc]

/-- A slot that is left out of the second part has the value it had in the beginning. -/
theorem slot?_recoveryRequest (s : SessionState) (slot : UInt8) :
    s.recoveryRequest.slot? slot = s.slot? slot := by
  rw [RecoveryRequest.slot?, SessionState.slot?, slot?_initial, slot?_current]
  rcases s.changes.get slot with _ | change
  · rfl
  by_cases hr : change.recoverable
  · by_cases hsame : s.initial.get slot = some change.data <;> simp [Option.filter, hr, hsame]
  · simp [Option.filter, hr]

/-- A setting that is left out of the second part has the value it had in the beginning. -/
theorem changed_or [DecidableEq α] (current baseline : Option α) :
    (changed current baseline).or baseline = current.or baseline := by
  unfold changed
  split
  · rename_i h
    rw [h]
    cases baseline <;> rfl
  · rfl

theorem eq_some_of_changed [DecidableEq α] {current baseline : Option α} {a : α}
    (h : changed current baseline = some a) : current = some a := by
  unfold changed at h
  split at h
  · cases h
  · exact h

/-- The first part gives the settings of the beginning. -/
theorem settings_initial (hb : s.baseline.Writable) : s.recoveryRequest.initial.settings = s.baseline := by
  show SessionSettings.mk (SessionImage.named (s.baseline.database.getD ""))
    (SessionImage.named (s.baseline.language.getD "")) s.baseline.collation = s.baseline
  rw [SessionImage.named_getD fun name h => (hb name (.inl h)).1,
    SessionImage.named_getD fun name h => (hb name (.inr h)).1]

/-- The second part gives the settings that have changed. -/
theorem settings_current (hc : s.current.Writable) :
    s.recoveryRequest.current.settings =
      { database := changed s.current.database s.baseline.database
        language := changed s.current.language s.baseline.language
        collation := changed s.current.collation s.baseline.collation } := by
  show SessionSettings.mk (SessionImage.named ((changed s.current.database s.baseline.database).getD ""))
    (SessionImage.named ((changed s.current.language s.baseline.language).getD ""))
    (changed s.current.collation s.baseline.collation) = _
  rw [SessionImage.named_getD fun name h => (hc name (.inl (eq_some_of_changed h))).1,
    SessionImage.named_getD fun name h => (hc name (.inr (eq_some_of_changed h))).1]

theorem settings_recoveryRequest (hb : s.baseline.Writable) (hc : s.current.Writable) :
    s.recoveryRequest.settings = s.settings := by
  rw [RecoveryRequest.settings, settings_initial hb, settings_current hc]
  simp only [SessionSettings.laidOver, changed_or, settings]

/-- A name that is not too long leaves a part that is not. -/
theorem size_getD_le {name? : Option String} (h : ∀ name, name? = some name → Utf16.size name ≤ 0xFF) :
    Utf16.size (name?.getD "") ≤ 0xFF := by
  rcases name? with _ | name
  · exact Nat.zero_le _
  · exact h name rfl

theorem writable_initial (hb : s.baseline.Writable) (h : s.recoveryRequest.write.length < UInt32.size) :
    s.recoveryRequest.initial.Writable :=
  SessionImage.writable_of_length (size_getD_le fun name hname => (hb name (.inl hname)).2)
    (size_getD_le fun name hname => (hb name (.inr hname)).2)
    (Nat.lt_of_le_of_lt s.recoveryRequest.length_initial_le h)

theorem writable_current (hc : s.current.Writable) (h : s.recoveryRequest.write.length < UInt32.size) :
    s.recoveryRequest.current.Writable :=
  SessionImage.writable_of_length
    (size_getD_le fun name hname => (hc name (.inl (eq_some_of_changed hname))).2)
    (size_getD_le fun name hname => (hc name (.inr (eq_some_of_changed hname))).2)
    (Nat.lt_of_le_of_lt s.recoveryRequest.length_current_le h)

/-- A request says what the session began with, and with its second part laid over the first what the
session is now. -/
theorem recoveryRequest_faithful (hb : s.baseline.Writable) (hc : s.current.Writable)
    (h : s.recoveryRequest.write.length < UInt32.size) :
    ∃ r, RecoveryRequest.read s.recoveryRequest.write = .ok (r, []) ∧
      r.initial.settings = s.baseline ∧ r.initial.Ascending ∧
      (∀ slot data, ⟨slot, data⟩ ∈ r.initial.slots ↔ s.initial.get slot = some data) ∧
      r.settings = s.settings ∧ ∀ slot, r.slot? slot = s.slot? slot :=
  ⟨s.recoveryRequest, RecoveryRequest.read_write (writable_initial hb h) (writable_current hc h) h,
    settings_initial hb, ascending_initial s, fun _ _ => mem_initial_slots,
    settings_recoveryRequest hb hc, slot?_recoveryRequest s⟩

/-- A session with a slot that has not changed, one that has, one that is new, and one that cannot be
carried over. -/
def changedSession : SessionState where
  baseline := { database := some "db" }
  current := { database := some "db2" }
  initial := (Slots.empty.set 1 [0x73]).set 2 [0x69]
  changes := (((Slots.empty.set 1 ⟨true, 1, [0x73]⟩).set 2 ⟨true, 1, [0x6E]⟩).set 9 ⟨true, 1, [0x77]⟩).set 7
    ⟨false, 1, [0x78]⟩
  unrecoverable := 1
  dirty := true

theorem changedSession_faithful :
    changedSession.baseline.Writable ∧ changedSession.current.Writable ∧
      changedSession.recoveryRequest.write.length < UInt32.size ∧
      ∃ r, RecoveryRequest.read changedSession.recoveryRequest.write = .ok (r, []) ∧
        r.initial.settings = changedSession.baseline ∧ r.initial.Ascending ∧
        (∀ slot data, ⟨slot, data⟩ ∈ r.initial.slots ↔ changedSession.initial.get slot = some data) ∧
        r.settings = changedSession.settings ∧ ∀ slot, r.slot? slot = changedSession.slot? slot := by
  have hb : changedSession.baseline.Writable := by
    rintro name (h | h) <;> cases h
    decide
  have hc : changedSession.current.Writable := by
    rintro name (h | h) <;> cases h
    decide
  have hlength : changedSession.recoveryRequest.write.length < UInt32.size := by
    rw [RecoveryRequest.length_write]
    decide +kernel
  exact ⟨hb, hc, hlength, recoveryRequest_faithful hb hc hlength⟩

end SessionState

end TdsSession
