import Mathlib.Data.List.Induction
import Mathlib.Data.List.Nodup
import TdsSession.Proofs.Session.Counter

/-!
# The order of tokens

A slot is overwritten only by a token that is not older than the one that wrote
it last, so what becomes of a slot is what the newest token says that mentions it
(`SessionState.get_foldl_apply`, `StateToken.newest_foldl`). Two tokens with
different numbers can therefore change places (`SlotChange.latest_comm`); and as
the counter follows from the slots, the whole state is the same in whatever order
such tokens come (`SessionState.tokens_in_any_order`).
-/

namespace TdsSession

/-- Slots with the same values are equal. -/
theorem Slots.ext_get {α : Type} {s t : Slots α} (h : ∀ slot, s.get slot = t.get slot) : s = t := by
  refine Vector.ext fun i hi => ?_
  have hslot : (UInt8.ofNat i).toNat = i := UInt8.toNat_ofNat_of_lt hi
  have hget := h (UInt8.ofNat i)
  simp only [Slots.get, hslot] at hget
  exact hget

/-! ## One slot -/

namespace SlotChange

variable {old new new' : Option SlotChange} {change change' : SlotChange}

/-- What a slot with the value `old` holds after the change `new`, if there is one. -/
def latest (old : Option SlotChange) : Option SlotChange → Option SlotChange
  | none => old
  | some change => if old.any fun held => change.version < held.version then old else some change

/-- Of two changes the second counts if it is not older. -/
theorem latest_of_le (h : change.version ≤ change'.version) :
    latest (latest old (some change)) (some change') = latest old (some change') := by
  rcases old with _ | o <;> grind [latest]

/-- Of two changes the first counts if the second is older. -/
theorem latest_of_lt (h : change'.version < change.version) :
    latest (latest old (some change)) (some change') = latest old (some change) := by
  rcases old with _ | o <;> grind [latest]

/-- Changes with different numbers can change places. -/
theorem latest_comm (h : ∀ a b, new = some a → new' = some b → a.version ≠ b.version) :
    latest (latest old new) new' = latest (latest old new') new := by
  rcases new with _ | a
  · rfl
  rcases new' with _ | b
  · rfl
  have hne := h a b rfl rfl
  rcases old with _ | o <;> grind [latest]

end SlotChange

open SlotChange

/-! ## One token -/

namespace StateToken

/-- What a token makes of a slot, if it mentions it: its last record for the slot counts. -/
def change? (t : StateToken) (slot : UInt8) : Option SlotChange :=
  (t.records.reverse.find? fun r => r.slot == slot).map fun r => ⟨t.recoverable, t.sequence, r.data⟩

/-- A record counts if no later one of its token is for the same slot. -/
theorem change?_cons (sequence : UInt32) (recoverable : Bool) (r : StateRecord) (records : List StateRecord)
    (slot : UInt8) :
    change? ⟨sequence, recoverable, r :: records⟩ slot = (change? ⟨sequence, recoverable, records⟩ slot).or
      (if r.slot = slot then some ⟨recoverable, sequence, r.data⟩ else none) := by
  unfold change?
  dsimp only
  rw [List.reverse_cons, List.find?_append, Option.map_or, List.find?_singleton]
  by_cases h : r.slot = slot <;> simp [h]

/-- What a token makes of a slot has the token's number. -/
theorem version_of_change? {t : StateToken} {slot : UInt8} {change : SlotChange} (h : t.change? slot = some change) :
    change.version = t.sequence := by
  obtain ⟨r, -, rfl⟩ := Option.map_eq_some_iff.mp h
  rfl

/-- `change` is what the newest of the tokens that mention the slot says of it; of tokens with one number
the last is the newest. -/
def Newest (slot : UInt8) (tokens : List StateToken) (change : SlotChange) : Prop :=
  ∃ before t after, tokens = before ++ t :: after ∧ t.change? slot = some change ∧
    (∀ earlier ∈ before, earlier.change? slot ≠ none → earlier.sequence ≤ t.sequence) ∧
    ∀ later ∈ after, later.change? slot ≠ none → later.sequence < t.sequence

/-- The newest change stays the newest if the token that follows does not mention the slot, or is older. -/
theorem Newest.append_older {slot : UInt8} {tokens : List StateToken} {change : SlotChange}
    (h : Newest slot tokens change) {t : StateToken} (ht : t.change? slot ≠ none → t.sequence < change.version) :
    Newest slot (tokens ++ [t]) change := by
  obtain ⟨before, newest, after, rfl, hchange, hbefore, hafter⟩ := h
  rw [version_of_change? hchange] at ht
  refine ⟨before, newest, after ++ [t], by simp, hchange, hbefore, fun later hlater => ?_⟩
  rcases List.mem_append.mp hlater with hlater | hlater
  · exact hafter later hlater
  · rw [List.mem_singleton.mp hlater]
    exact ht

/-- A token that is not older than any change before it is the newest. -/
theorem newest_concat {slot : UInt8} {tokens : List StateToken} {t : StateToken} {change : SlotChange}
    (h : t.change? slot = some change)
    (hbefore : ∀ earlier ∈ tokens, earlier.change? slot ≠ none → earlier.sequence ≤ t.sequence) :
    Newest slot (tokens ++ [t]) change :=
  ⟨tokens, t, [], rfl, h, hbefore, fun _ hlater => absurd hlater List.not_mem_nil⟩

/-- No token says of the slot more recently than the newest. -/
theorem Newest.sequence_le {slot : UInt8} {tokens : List StateToken} {change : SlotChange}
    (h : Newest slot tokens change) {t : StateToken} (ht : t ∈ tokens) (hchange : t.change? slot ≠ none) :
    t.sequence ≤ change.version := by
  obtain ⟨before, newest, after, rfl, hnewest, hbefore, hafter⟩ := h
  rw [version_of_change? hnewest]
  rcases List.mem_append.mp ht with ht | ht
  · exact hbefore t ht hchange
  · rcases List.mem_cons.mp ht with rfl | ht
    · exact UInt32.le_refl _
    · exact UInt32.le_of_lt (hafter t ht hchange)

/-- A slot that no token mentions keeps its value; of any other only the newest change counts. -/
theorem newest_foldl (slot : UInt8) (tokens : List StateToken) (old : Option SlotChange) :
    let new := tokens.foldl (fun old t => latest old (t.change? slot)) old
    ((∀ t ∈ tokens, t.change? slot = none) ∧ new = old) ∨
      ∃ change, Newest slot tokens change ∧ new = latest old (some change) := by
  -- token by token from the front, so that each is compared with the newest one before it
  induction tokens using List.reverseRecOn with
  | nil => exact .inl ⟨fun _ ht => absurd ht List.not_mem_nil, rfl⟩
  | append_singleton tokens t ih =>
    dsimp only at ih ⊢
    rw [List.foldl_concat]
    rcases ht : t.change? slot with _ | change
    · -- the slot is not mentioned
      rcases ih with ⟨hnone, hfold⟩ | ⟨newest, hnewest, hfold⟩
      · refine .inl ⟨fun other hother => ?_, hfold⟩
        rcases List.mem_append.mp hother with hother | hother
        · exact hnone other hother
        · rw [List.mem_singleton.mp hother]
          exact ht
      · exact .inr ⟨newest, hnewest.append_older fun hmention => absurd ht hmention, hfold⟩
    · have hversion := version_of_change? ht
      right
      rcases ih with ⟨hnone, hfold⟩ | ⟨newest, hnewest, hfold⟩
      · exact ⟨change, newest_concat ht fun other hother hmention => absurd (hnone other hother) hmention,
          congrArg (latest · (some change)) hfold⟩
      · rw [hfold]
        by_cases holder : change.version < newest.version
        · exact ⟨newest, hnewest.append_older fun _ => hversion ▸ holder, latest_of_lt holder⟩
        · have hle : newest.version ≤ change.version := UInt32.not_lt.mp holder
          refine ⟨change, newest_concat ht fun other hother hmention => ?_, latest_of_le hle⟩
          exact UInt32.le_trans (hnewest.sequence_le hother hmention) (hversion ▸ hle)

end StateToken

namespace SessionState

variable {s : SessionState}

theorem get_applySlot (s : SessionState) (sequence : UInt32) (recoverable : Bool) (r : StateRecord) (slot : UInt8) :
    (applySlot sequence recoverable s r).changes.get slot =
      if r.slot = slot then latest (s.changes.get slot) (some ⟨recoverable, sequence, r.data⟩)
      else s.changes.get slot := by
  unfold applySlot
  dsimp only
  by_cases heq : r.slot = slot
  · subst heq
    rw [if_pos rfl, latest]
    split
    · rfl
    · rw [Slots.get_set, if_pos rfl]
  · rw [if_neg heq]
    split
    · rfl
    · rw [Slots.get_set, if_neg heq]

/-- The records of one token come to its last record for each slot. -/
theorem get_foldl_applySlot (s : SessionState) (sequence : UInt32) (recoverable : Bool) (records : List StateRecord)
    (slot : UInt8) :
    (records.foldl (applySlot sequence recoverable) s).changes.get slot =
      latest (s.changes.get slot) (StateToken.change? ⟨sequence, recoverable, records⟩ slot) := by
  induction records generalizing s with
  | nil => rfl
  | cons r records ih =>
    rw [List.foldl_cons, ih, get_applySlot, StateToken.change?_cons]
    by_cases heq : r.slot = slot
    · rw [if_pos heq, if_pos heq]
      rcases hlater : StateToken.change? ⟨sequence, recoverable, records⟩ slot with _ | change
      · rfl
      · exact latest_of_le (UInt32.le_of_eq (StateToken.version_of_change? hlater).symm)
    · rw [if_neg heq, if_neg heq, Option.or_none]

theorem get_apply (s : SessionState) (t : StateToken) (slot : UInt8) :
    (s.apply t).changes.get slot = latest (s.changes.get slot) (t.change? slot) := by
  unfold apply
  dsimp only
  rw [get_foldl_applySlot]
  split <;> rfl

/-- Each slot goes through the tokens by itself. -/
theorem get_foldl_apply (s : SessionState) (tokens : List StateToken) (slot : UInt8) :
    (tokens.foldl apply s).changes.get slot =
      tokens.foldl (fun old t => latest old (t.change? slot)) (s.changes.get slot) := by
  induction tokens generalizing s with
  | nil => rfl
  | cons t tokens ih => rw [List.foldl_cons, List.foldl_cons, ih, get_apply]

/-! ## The whole state -/

/-- Slots and counter apart, a token only sets marks. -/
theorem apply_frame (s : SessionState) (t : StateToken) :
    s.apply t =
      { s with
        changes := (s.apply t).changes
        unrecoverable := (s.apply t).unrecoverable
        dirty := true
        poolable := s.poolable && t.sequence != StateToken.untracked } := by
  have hslots (s : SessionState) (records : List StateRecord) :
      records.foldl (applySlot t.sequence t.recoverable) s =
        { s with
          changes := (records.foldl (applySlot t.sequence t.recoverable) s).changes
          unrecoverable := (records.foldl (applySlot t.sequence t.recoverable) s).unrecoverable } := by
    induction records generalizing s with
    | nil => rfl
    | cons r records ih =>
      rw [List.foldl_cons, ih]
      unfold applySlot
      dsimp only
      split <;> rfl
  unfold apply
  dsimp only
  rw [hslots]
  by_cases huntracked : t.sequence = StateToken.untracked <;> simp [huntracked]

/-- Slots and counter apart, of the tokens it only matters whether there are any, and whether the server
says with one that it does not track the session. -/
theorem foldl_apply_frame (s : SessionState) (tokens : List StateToken) :
    tokens.foldl apply s =
      { s with
        changes := (tokens.foldl apply s).changes
        unrecoverable := (tokens.foldl apply s).unrecoverable
        dirty := s.dirty || !tokens.isEmpty
        poolable := s.poolable && tokens.all fun t => t.sequence != StateToken.untracked } := by
  induction tokens generalizing s with
  | nil => simp
  | cons t tokens ih =>
    rw [List.foldl_cons, ih, apply_frame]
    simp [Bool.and_assoc]

theorem Tidy.foldl_apply (h : s.Tidy) (tokens : List StateToken) : (tokens.foldl SessionState.apply s).Tidy := by
  induction tokens generalizing s with
  | nil => exact h
  | cons t tokens ih => exact ih (h.apply t)

/-- Tokens with different numbers can come in any order. -/
theorem Tidy.foldl_apply_perm (h : s.Tidy) {tokens tokens' : List StateToken} (hperm : tokens.Perm tokens')
    (hnodup : (tokens.map (·.sequence)).Nodup) : tokens'.foldl SessionState.apply s = tokens.foldl SessionState.apply s := by
  have hchanges : (tokens'.foldl SessionState.apply s).changes = (tokens.foldl SessionState.apply s).changes := by
    refine Slots.ext_get fun slot => ?_
    rw [get_foldl_apply, get_foldl_apply]
    refine (hperm.foldl_eq' (fun t ht t' ht' old => ?_) _).symm
    by_cases heq : t = t'
    · rw [heq]
    · refine latest_comm fun a b ha hb hversion => heq ?_
      rw [StateToken.version_of_change? ha, StateToken.version_of_change? hb] at hversion
      exact List.inj_on_of_nodup_map hnodup ht ht' hversion
  -- the counter follows from the slots
  have hcount : (tokens'.foldl SessionState.apply s).unrecoverable = (tokens.foldl SessionState.apply s).unrecoverable := by
    rw [(h.foldl_apply tokens').counted, (h.foldl_apply tokens).counted, hchanges]
  rw [foldl_apply_frame s tokens', foldl_apply_frame s tokens, hchanges, hcount, hperm.all_eq, hperm.isEmpty_eq]

/-- Tokens with different numbers leave a session in one state, in whatever order they come. In that state a
slot that they mention holds what the newest of them says, of tokens with one number the last one, and of its
records for the slot the last one; unless it already held something newer. -/
theorem tokens_in_any_order (actions : List SessionAction) (tokens : List StateToken) :
    let s := new.actAll actions
    let t := tokens.foldl apply s
    ((tokens.map (·.sequence)).Nodup → ∀ tokens', tokens.Perm tokens' → tokens'.foldl apply s = t) ∧
    ∀ slot, ((∀ token ∈ tokens, token.change? slot = none) ∧ t.changes.get slot = s.changes.get slot) ∨
      ∃ change, StateToken.Newest slot tokens change ∧ t.changes.get slot =
        if (s.changes.get slot).any fun held => change.version < held.version then s.changes.get slot
        else some change := by
  intro s t
  refine ⟨fun hnodup tokens' hperm => ?_, fun slot => ?_⟩
  · exact (tidy_new.actAll actions).foldl_apply_perm hperm hnodup
  · rw [get_foldl_apply]
    exact StateToken.newest_foldl slot tokens (s.changes.get slot)

/-- A session whose slot 7 was last written by the fifth token. -/
def writtenSession : SessionState := new.actAll [.apply ⟨5, true, [⟨7, [5]⟩]⟩]

/-- The third token comes too late for slot 7, before the ninth and after it; of the ninth the last record
counts, and slot 8 keeps what the third says of it. -/
theorem writtenSession_in_any_order :
    let third : StateToken := ⟨3, true, [⟨7, [3]⟩, ⟨8, [3]⟩]⟩
    let ninth : StateToken := ⟨9, false, [⟨7, [9]⟩, ⟨7, [9, 9]⟩]⟩
    let s := [third, ninth].foldl apply writtenSession
    [ninth, third].foldl apply writtenSession = s ∧ s.changes.get 7 = some ⟨false, 9, [9, 9]⟩ ∧
      s.changes.get 8 = some ⟨true, 3, [3]⟩ ∧ s.isRecoverable = false := by
  intro third ninth s
  have hperm := (tokens_in_any_order [.apply ⟨5, true, [⟨7, [5]⟩]⟩] [third, ninth]).1 (by decide)
    [ninth, third] (List.Perm.swap ninth third [])
  exact ⟨hperm, by decide +kernel, by decide +kernel, by decide +kernel⟩

end SessionState

end TdsSession
