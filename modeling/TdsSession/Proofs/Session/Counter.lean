import TdsSession.Proofs.Operation
import TdsSession.Session.Action

/-!
# The counter of what cannot be carried over

The state of a session counts its unrecoverable changes by hand: each slot that
is taken over takes one off for the change it overwrites, and adds one for its
own. `Counted` says that the counter is right, and holds even between two slots
of one token; `Tidy` says that nothing has changed unless the state is marked
as dirty, and holds between actions. Both are kept by every action, so a reset
really removes every change (`reset_eq`).
-/

namespace TdsSession

/-! ## Counting slots -/

namespace Slots

variable {α : Type} {p : α → Bool}

/-- The number of slots whose value `p` accepts. -/
def count (p : α → Bool) (s : Slots α) : Nat := Vector.countP (Option.any p) s

theorem count_empty (p : α → Bool) : (empty : Slots α).count p = 0 := by
  simp [count, empty, Vector.countP_replicate]

/-- Setting a slot takes its old value out of the count and puts the new one in. -/
theorem count_set (p : α → Bool) (s : Slots α) (slot : UInt8) (value : α) :
    (s.set slot value).count p =
      s.count p - (if (s.get slot).any p then 1 else 0) + if p value then 1 else 0 :=
  Vector.countP_set (slot_lt slot)

/-- A count is positive if there is something to count. -/
theorem count_pos_iff {s : Slots α} : 0 < s.count p ↔ ∃ slot value, s.get slot = some value ∧ p value := by
  rw [count, Vector.countP_pos_iff]
  constructor
  · rintro ⟨a, ha, hp⟩
    obtain ⟨value, rfl, hvalue⟩ := (Option.any_eq_true _ _).mp hp
    obtain ⟨i, hi, hget⟩ := Vector.getElem_of_mem ha
    have hslot : (UInt8.ofNat i).toNat = i := UInt8.toNat_ofNat_of_lt hi
    refine ⟨UInt8.ofNat i, value, ?_, hvalue⟩
    simp only [get, hslot]
    exact hget
  · rintro ⟨slot, value, hget, hp⟩
    have hmem : s.get slot ∈ (s : Vector _ _) := Vector.getElem_mem (slot_lt slot)
    exact ⟨s.get slot, hmem, by rw [hget]; exact hp⟩

end Slots

namespace SessionState

variable {s t : SessionState}

/-! ## Slot by slot -/

/-- The counter is the number of changed slots that cannot be carried over. -/
def Counted (s : SessionState) : Prop := s.unrecoverable = s.changes.count fun c => !c.recoverable

/-- In the midst of an action on `s` the state is `t`, and the slot of `r` is taken over next. -/
inductive Midway (s : SessionState) : SessionState → StateRecord → Prop
  | record (payload : Bytes) (before after : List StateRecord) (r : StateRecord)
      (h : StateRecord.readAll payload = .ok (before ++ r :: after)) :
      Midway s (before.foldl recordSlot s) r
  | apply (token : StateToken) (before after : List StateRecord) (r : StateRecord)
      (h : token.records = before ++ r :: after) :
      Midway s (before.foldl (applySlot token.sequence token.recoverable)
        (if token.sequence = StateToken.untracked then { s with poolable := false } else s)) r

/-- Where something cannot be carried over, there is something to take off. -/
theorem Counted.pos (h : s.Counted) {slot : UInt8} {change : SlotChange}
    (hget : s.changes.get slot = some change) (hc : change.recoverable = false) : 0 < s.unrecoverable := by
  rw [h, Slots.count_pos_iff]
  exact ⟨slot, change, hget, by rw [hc]; rfl⟩

/-- A session can be carried over if the counter is zero, so exactly if every changed slot can. -/
theorem Counted.isRecoverable_iff (h : s.Counted) :
    s.isRecoverable ↔ ∀ slot change, s.changes.get slot = some change → change.recoverable := by
  rw [isRecoverable, beq_iff_eq]
  constructor
  · intro hzero slot change hget
    rcases hc : change.recoverable with _ | _
    · exact absurd hzero (Nat.ne_of_gt (h.pos hget hc))
    · rfl
  · intro hall
    rcases Nat.eq_zero_or_pos s.unrecoverable with hzero | hpos
    · exact hzero
    · obtain ⟨slot, change, hget, hc⟩ := Slots.count_pos_iff.mp (h ▸ hpos)
      rw [hall slot change hget] at hc
      cases hc

/-- The counter stays right when one slot is overwritten. -/
theorem Counted.recount (h : s.Counted) (slot : UInt8) (change : SlotChange) :
    recount s.unrecoverable (s.changes.get slot) change.recoverable =
      (s.changes.set slot change).count fun c => !c.recoverable := by
  rw [Slots.count_set, ← h]
  rcases s.changes.get slot with _ | old
  · cases change.recoverable <;> rfl
  · rcases hold : old.recoverable <;> cases change.recoverable <;> simp [SessionState.recount, hold]

theorem Counted.recordSlot (h : s.Counted) (r : StateRecord) : (s.recordSlot r).Counted := by
  unfold SessionState.recordSlot
  split
  · exact h.recount r.slot ⟨true, 0, r.data⟩
  · exact h

theorem Counted.applySlot (h : s.Counted) (sequence : UInt32) (recoverable : Bool) (r : StateRecord) :
    (applySlot sequence recoverable s r).Counted := by
  unfold SessionState.applySlot
  dsimp only
  split
  · exact h
  · exact h.recount r.slot ⟨recoverable, sequence, r.data⟩

theorem Counted.foldl {f : SessionState → StateRecord → SessionState} (h : s.Counted)
    (hf : ∀ t r, t.Counted → (f t r).Counted) (records : List StateRecord) :
    (records.foldl f s).Counted := by
  induction records generalizing s with
  | nil => exact h
  | cons r records ih => exact ih (hf s r h)

/-- The counter is right in the midst of an action too. -/
theorem Counted.midway (h : s.Counted) {r : StateRecord} (ht : Midway s t r) : t.Counted := by
  cases ht with
  | record payload before after r hr => exact h.foldl (fun _ r ht => ht.recordSlot r) before
  | apply token before after r hr =>
    refine Counted.foldl ?_ (fun _ r ht => ht.applySlot _ _ r) before
    split <;> exact h

/-! ## Action by action -/

/-- Between actions the counter is right, and nothing has changed unless the state is marked as dirty. -/
structure Tidy (s : SessionState) : Prop where
  counted : s.Counted
  clean : s.dirty = false → s.changes = Slots.empty

theorem tidy_new : new.Tidy := ⟨(Slots.count_empty _).symm, fun _ => rfl⟩

/-- Taking over one slot of an acknowledgement marks the state as dirty if it changes a slot. -/
theorem Tidy.recordSlot (h : s.Tidy) (r : StateRecord) : (s.recordSlot r).Tidy := by
  refine ⟨h.counted.recordSlot r, ?_⟩
  unfold SessionState.recordSlot
  split
  · exact fun hdirty => nomatch hdirty
  · exact h.clean

theorem Tidy.record (h : s.Tidy) {payload : Bytes} (ht : s.record payload = .ok t) : t.Tidy := by
  obtain ⟨records, -, hfold⟩ := Op.except_bind_eq_ok.mp ht
  cases hfold
  clear ht
  induction records generalizing s with
  | nil => exact h
  | cons r records ih => exact ih (h.recordSlot r)

theorem Tidy.apply (h : s.Tidy) (token : StateToken) : (s.apply token).Tidy := by
  refine ⟨?_, fun hdirty => nomatch hdirty⟩
  refine Counted.foldl (f := SessionState.applySlot token.sequence token.recoverable) ?_
    (fun _ r ht => ht.applySlot _ _ r) token.records
  split <;> exact h.counted

theorem Tidy.reset (h : s.Tidy) : s.reset.Tidy := by
  unfold SessionState.reset
  split
  · exact ⟨tidy_new.counted, tidy_new.clean⟩
  · exact ⟨h.counted, h.clean⟩

/-- An action that does not fail leaves the state tidy. -/
theorem Tidy.perform (h : s.Tidy) {a : SessionAction} (ht : s.perform a = .ok t) : t.Tidy := by
  -- most actions leave the changes, the counter and the mark alone
  have same {t : SessionState} (hc : t.changes = s.changes) (hu : t.unrecoverable = s.unrecoverable)
      (hd : t.dirty = s.dirty) : t.Tidy := by
    refine ⟨?_, fun hdirty => ?_⟩
    · rw [Counted, hc, hu]
      exact h.counted
    · rw [hc]
      exact h.clean (hd ▸ hdirty)
  cases a with
  | record payload => exact h.record ht
  | apply token =>
    cases ht
    exact h.apply token
  | applyBody body =>
    obtain ⟨⟨token, rest⟩, -, ht⟩ := Op.except_bind_eq_ok.mp ht
    cases ht
    exact h.apply token
  | reset =>
    cases ht
    exact h.reset
  | carryOver =>
    cases ht
    exact ⟨tidy_new.counted, tidy_new.clean⟩
  | _ =>
    cases ht
    exact same rfl rfl rfl

/-- Whatever happens to a session, its state stays tidy. -/
theorem Tidy.actAll (h : s.Tidy) (actions : List SessionAction) : (s.actAll actions).Tidy := by
  induction actions generalizing s with
  | nil => exact h
  | cons a actions ih =>
    refine ih (s := (s.act a).1) ?_
    unfold act
    rcases ht : s.perform a with e | t
    · exact h
    · exact h.perform ht

/-- A reset removes every change, and the current settings; all else stays. -/
theorem Tidy.reset_eq (h : s.Tidy) :
    s.reset = { s with current := {}, changes := Slots.empty, dirty := false, unrecoverable := 0 } := by
  unfold SessionState.reset
  rcases hdirty : s.dirty with _ | _
  · have hclean := h.clean hdirty
    have hcount := h.counted
    rw [Counted, hclean, Slots.count_empty] at hcount
    obtain ⟨baseline, current, initial, changes, unrecoverable, dirty⟩ := s
    cases hclean
    cases hcount
    cases hdirty
    rfl
  · rfl

/-! ## Whatever happens to a session -/

/-- Whatever happens to a session, its counter is the number of changed slots that cannot be carried over,
and even in the midst of an action nothing is taken off a counter of zero. If the state is not marked as
dirty, no slot has changed; the session can be carried over exactly if every changed slot can; and a reset
removes every change and the current settings, leaves all else alone, and does nothing the second time. -/
theorem unrecoverable_counted (actions : List SessionAction) :
    let s := new.actAll actions
    s.unrecoverable = s.changes.count (fun c => !c.recoverable) ∧
    (∀ t r change, s.Midway t r → t.changes.get r.slot = some change → change.recoverable = false →
      0 < t.unrecoverable) ∧
    (s.dirty = false → ∀ slot, s.changes.get slot = none) ∧
    (s.isRecoverable ↔ ∀ slot change, s.changes.get slot = some change → change.recoverable) ∧
    s.reset = { s with current := {}, changes := Slots.empty, dirty := false, unrecoverable := 0 } ∧
    s.reset.reset = s.reset := by
  intro s
  have hs : s.Tidy := tidy_new.actAll actions
  refine ⟨hs.counted, ?_, ?_, ?_, hs.reset_eq, ?_⟩
  · intro t r change ht hget hc
    exact (hs.counted.midway ht).pos hget hc
  · intro hdirty slot
    rw [hs.clean hdirty, Slots.get_empty]
  · exact hs.counted.isRecoverable_iff
  · rw [hs.reset.reset_eq, hs.reset_eq]

/-- The session after two slots have changed that cannot be carried over. -/
def stuckSession : SessionState := new.actAll [.apply ⟨1, false, [⟨3, [7]⟩, ⟨4, []⟩]⟩]

/-- While a second token makes both recoverable, the first is done and the second is still counted. -/
theorem stuckSession_counted :
    0 < (applySlot 2 true stuckSession ⟨3, []⟩).unrecoverable ∧ stuckSession.isRecoverable = false ∧
      stuckSession.reset.reset = stuckSession.reset := by
  obtain ⟨-, hpos, -, hrecoverable, -, hreset⟩ :=
    unrecoverable_counted [.apply ⟨1, false, [⟨3, [7]⟩, ⟨4, []⟩]⟩]
  have hmidway : stuckSession.Midway (applySlot 2 true stuckSession ⟨3, []⟩) ⟨4, []⟩ :=
    .apply ⟨2, true, [⟨3, []⟩, ⟨4, []⟩]⟩ [⟨3, []⟩] [] ⟨4, []⟩ rfl
  have hnext : (applySlot 2 true stuckSession ⟨3, []⟩).changes.get 4 = some ⟨false, 1, []⟩ := by
    decide +kernel
  have hslot : stuckSession.changes.get 3 = some ⟨false, 1, [7]⟩ := by decide +kernel
  refine ⟨hpos _ _ _ hmidway hnext rfl, ?_, hreset⟩
  rw [Bool.eq_false_iff]
  intro h
  cases hrecoverable.mp h 3 _ hslot

end SessionState

end TdsSession
