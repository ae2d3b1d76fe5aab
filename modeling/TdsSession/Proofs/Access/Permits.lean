import TdsSession.Proofs.Access.History

/-!
# One permit for each lock

Whatever threads do, in whatever order, a lock is held exactly while its one
permit is out (`LockTrace.Sound`). Each step keeps that: taking a free lock adds
its permit, and a permit that comes back frees its own lock. The right to close
is gone with the permit it was claimed with.
-/

namespace TdsSession

namespace LockSystem

variable {s : LockSystem} {id other : LockId} {name : String} {thread : Thread} {p : Permit}

/-- The number of permits of a lock that are out. -/
def outstanding (s : LockSystem) (id : LockId) : Nat := s.permits.countP fun x => x.2.lock == id

theorem lock_update (h : id < s.locks.length) (f : AccessLock → AccessLock) :
    (s.update id f).lock other = if id = other then f (s.lock other) else s.lock other := by
  unfold lock update
  dsimp only
  rw [List.getElem?_modify]
  split
  · next heq =>
    subst heq
    rw [List.getElem?_eq_getElem h]
    rfl
  · cases s.locks[other]? <;> rfl

theorem dropPermit_of_find? (h : Table.find? s.permits name = some p) :
    s.dropPermit name = { s.update p.lock (fun _ => .freed) with permits := Table.erase s.permits name } := by
  rw [dropPermit, h]

theorem find?_dropPermit (s : LockSystem) (name : String) : Table.find? (s.dropPermit name).permits name = none := by
  cases h : Table.find? s.permits name with
  | none => rwa [dropPermit, h]
  | some p => rw [dropPermit_of_find? h, Table.find?_erase, if_pos rfl]

theorem held_dropPermit (h : (s.lock id).held = false) (name : String) :
    ((s.dropPermit name).lock id).held = false := by
  unfold dropPermit
  split
  · next p _ =>
    unfold lock update
    dsimp only
    rw [List.getElem?_modify]
    unfold lock at h
    cases hget : s.locks[id]? with
    | none => rfl
    | some l =>
      rw [hget] at h
      show (if p.lock = id then AccessLock.freed else l).held = false
      split
      · rfl
      · exact h
  · exact h

/-- A permit that comes back is no longer out. -/
theorem outstanding_dropPermit (hnodup : (s.permits.map Prod.fst).Nodup)
    (h : Table.find? s.permits name = some p) (id : LockId) :
    s.outstanding id = (s.dropPermit name).outstanding id + if p.lock = id then 1 else 0 := by
  rw [dropPermit_of_find? h]
  unfold outstanding
  dsimp only
  rw [(Table.perm_erase hnodup h).countP_eq, List.countP_cons]
  simp only [beq_iff_eq]

/-- A new permit is out. -/
theorem outstanding_take (s : LockSystem) (thread : Thread) (id : LockId) (name : String) (anyThread : Bool)
    (other : LockId) :
    (s.take thread id name anyThread).outstanding other =
      (s.dropPermit name).outstanding other + if id = other then 1 else 0 := by
  unfold outstanding take
  dsimp only
  have hnew : Table.find? ((s.dropPermit name).update id AccessLock.taken).permits name = none :=
    find?_dropPermit s name
  rw [Table.set_of_find?_eq_none _ hnew, List.countP_append, List.countP_singleton]
  simp only [beq_iff_eq]
  rfl

/-- A permit that is released is out, and is refused or comes back. -/
theorem release_cases (s : LockSystem) (thread : Thread) (id : LockId) (name : String) :
    (Table.find? s.permits name = none ∧ s.step thread (.release id name) = (s, .noPermit)) ∨
    (∃ p e, Table.find? s.permits name = some p ∧ p.refusal? id thread = some e ∧
      s.step thread (.release id name) = (s, .rejected e)) ∨
    ∃ p, Table.find? s.permits name = some p ∧ p.refusal? id thread = none ∧
      s.step thread (.release id name) = (s.dropPermit name, .yes) := by
  cases hfind : Table.find? s.permits name with
  | none => exact .inl ⟨rfl, by simp only [step, hfind]⟩
  | some p =>
    cases hrefusal : p.refusal? id thread with
    | some e => exact .inr (.inl ⟨p, e, rfl, hrefusal, by simp only [step, hfind, hrefusal]⟩)
    | none => exact .inr (.inr ⟨p, rfl, hrefusal, by simp only [step, hfind, hrefusal]⟩)

end LockSystem

namespace AccessLock

variable {l : AccessLock} {thread : Thread}

theorem held_transferClose : (l.transferClose thread).held = l.held := by
  unfold transferClose
  split <;> rfl

/-- A transfer moves the right if there is one. -/
theorem closeOwner_transferClose {events : List CloseEvent} (h : l.closeOwner = CloseEvent.closer events) :
    (l.transferClose thread).closeOwner = CloseEvent.closer (.transfer thread :: events) := by
  unfold transferClose
  rw [CloseEvent.closer, ← h]
  split
  · rfl
  · next hnone => exact Option.not_isSome_iff_eq_none.mp hnone

end AccessLock

namespace LockTrace

variable {count : Nat} {t : LockTrace} {id : LockId} {name : String} {p : Permit}

/-- What holds of one lock, its permits and what happened to it. -/
structure LockSound (t : LockTrace) (id : LockId) : Prop where
  outstanding : t.system.outstanding id = if (t.system.lock id).held then 1 else 0
  closeOwner : (t.system.lock id).closeOwner = CloseEvent.closer (LockEvent.lifetime id t.history)
  /-- The right to close does not outlive the permit. -/
  free : (t.system.lock id).held = false → (t.system.lock id).closeOwner = none
  balance : t.history.count (.taken id) = t.history.count (.freed id) + t.system.outstanding id

/-- What holds of locks, permits and what happened to them. -/
structure Sound (count : Nat) (t : LockTrace) : Prop where
  length : t.system.locks.length = count
  nodup : (t.system.permits.map Prod.fst).Nodup
  inRange : ∀ {name p}, Table.find? t.system.permits name = some p → p.lock < count
  locks : ∀ {id}, id < count → LockSound t id

theorem Sound.new (count : Nat) : Sound count ⟨.new count, []⟩ where
  length := List.length_replicate
  nodup := .nil
  inRange h := nomatch h
  locks {id} hid := by
    have hfree : (LockSystem.new count).lock id = {} := by
      rw [LockSystem.lock, LockSystem.new, List.getElem?_replicate, if_pos hid]
      rfl
    refine ⟨?_, ?_, fun _ => ?_, rfl⟩
    · rw [hfree]
      rfl
    · rw [hfree]
      rfl
    · rw [hfree]

/-- Something that is done to another lock changes nothing. -/
theorem LockSound.other {s' : LockSystem} {e : LockEvent} (h : LockSound t id) (hlock : s'.lock id = t.system.lock id)
    (hout : s'.outstanding id = t.system.outstanding id) (he : e.lock ≠ id) : LockSound ⟨s', e :: t.history⟩ id := by
  have htaken : e ≠ .taken id := fun heq => he (congrArg LockEvent.lock heq)
  have hfreed : e ≠ .freed id := fun heq => he (congrArg LockEvent.lock heq)
  refine ⟨?_, ?_, ?_, ?_⟩
  · rw [hlock, hout]
    exact h.outstanding
  · rw [hlock, LockEvent.lifetime_of_ne he]
    exact h.closeOwner
  · rw [hlock]
    exact h.free
  · dsimp only
    rw [hout, List.count_cons_of_ne htaken, List.count_cons_of_ne hfreed]
    exact h.balance

/-- A permit that comes back frees its own lock and no other. -/
theorem Sound.dropPermit (h : Sound count t) (name : String) :
    Sound count ⟨t.system.dropPermit name, t.system.dropEvents name ++ t.history⟩ := by
  cases hfind : Table.find? t.system.permits name with
  | none =>
    rw [LockSystem.dropPermit, LockSystem.dropEvents, hfind]
    exact h
  | some p =>
    have hp : p.lock < t.system.locks.length := h.length ▸ h.inRange hfind
    have hevents : t.system.dropEvents name = [.freed p.lock] := by
      rw [LockSystem.dropEvents, hfind]
    have hlock : ∀ id, (t.system.dropPermit name).lock id = if p.lock = id then .freed else t.system.lock id := by
      rw [LockSystem.dropPermit_of_find? hfind]
      exact fun _ => LockSystem.lock_update hp _
    have hout := LockSystem.outstanding_dropPermit h.nodup hfind
    rw [hevents]
    refine ⟨?_, ?_, ?_, ?_⟩
    · rw [LockSystem.dropPermit_of_find? hfind]
      exact (List.length_modify ..).trans h.length
    · rw [LockSystem.dropPermit_of_find? hfind]
      exact h.nodup.sublist (List.filter_sublist.map Prod.fst)
    · intro name' p' hfind'
      rw [LockSystem.dropPermit_of_find? hfind] at hfind'
      dsimp only at hfind'
      rw [Table.find?_erase] at hfind'
      split at hfind'
      · cases hfind'
      · exact h.inRange hfind'
    · intro id hid
      have hid' := h.locks hid
      have hone := hout id
      by_cases heq : p.lock = id
      · subst heq
        -- Its one permit was out, and has come back.
        rw [if_pos rfl, hid'.outstanding] at hone
        have hnone : (t.system.dropPermit name).outstanding p.lock = 0 := by
          split at hone <;> omega
        have hbalance := hid'.balance
        rw [hid'.outstanding] at hbalance
        refine ⟨?_, ?_, fun _ => ?_, ?_⟩
        · rw [hnone, hlock, if_pos rfl]
          rfl
        · rw [hlock, if_pos rfl, List.singleton_append, LockEvent.lifetime_freed]
          rfl
        · rw [hlock, if_pos rfl]
          rfl
        · rw [hnone]
          simp
          omega
      · exact hid'.other (by rw [hlock, if_neg heq]) (by rw [hone, if_neg heq]; rfl) heq

/-- A free lock has no permit out, so that the one that is taken is its only one. -/
theorem Sound.take (h : Sound count t) (hid : id < count) (hfree : (t.system.lock id).held = false)
    (thread : Thread) (name : String) (anyThread : Bool) :
    Sound count ⟨t.system.take thread id name anyThread, .taken id :: t.system.dropEvents name ++ t.history⟩ := by
  have hdrop := h.dropPermit name
  let dropped : LockTrace := ⟨t.system.dropPermit name, t.system.dropEvents name ++ t.history⟩
  have hlength : id < dropped.system.locks.length := hdrop.length.symm ▸ hid
  have hlock : ∀ other, (t.system.take thread id name anyThread).lock other =
      if id = other then (dropped.system.lock other).taken else dropped.system.lock other := fun _ =>
    LockSystem.lock_update hlength _
  have hout := LockSystem.outstanding_take t.system thread id name anyThread
  have hnew : Table.find? dropped.system.permits name = none := LockSystem.find?_dropPermit t.system name
  refine ⟨?_, ?_, ?_, ?_⟩
  · exact (List.length_modify ..).trans hdrop.length
  · exact Table.nodup_set _ hdrop.nodup hnew
  · intro name' p' hfind
    rw [LockSystem.take, Table.find?_set] at hfind
    split at hfind
    · cases hfind
      exact hid
    · exact hdrop.inRange hfind
  · intro other hother
    have hother' := hdrop.locks hother
    by_cases heq : id = other
    · subst heq
      have hfree' : (dropped.system.lock id).held = false := LockSystem.held_dropPermit hfree name
      have hnone : dropped.system.outstanding id = 0 := by
        rw [hother'.outstanding, hfree']
        rfl
      have hone : (t.system.take thread id name anyThread).outstanding id = 1 := by
        rw [hout, if_pos rfl]
        exact congrArg (· + 1) hnone
      have hbalance := hother'.balance
      refine ⟨?_, ?_, fun hheld => ?_, ?_⟩
      · rw [hone, hlock, if_pos rfl]
        rfl
      · rw [hlock, if_pos rfl, List.cons_append, LockEvent.lifetime_taken]
        exact hother'.free hfree'
      · rw [hlock, if_pos rfl] at hheld
        cases hheld
      · rw [hone]
        have hne : LockEvent.taken id ≠ .freed id := by rintro ⟨⟩
        show (LockEvent.taken id :: dropped.history).count _ = (LockEvent.taken id :: dropped.history).count _ + 1
        rw [List.count_cons_self, List.count_cons_of_ne hne, hbalance, hnone]
    · exact hother'.other (by rw [hlock, if_neg heq]) (by rw [hout, if_neg heq]; rfl) heq

/-- A lock is held while a permit of it is out. -/
theorem Sound.held_of_find? (h : Sound count t) (hfind : Table.find? t.system.permits name = some p) :
    (t.system.lock p.lock).held = true := by
  have hpos : 0 < t.system.outstanding p.lock :=
    List.countP_pos_iff.mpr ⟨(name, p), Table.mem_of_find? hfind, beq_self_eq_true p.lock⟩
  rw [(h.locks (h.inRange hfind)).outstanding] at hpos
  split at hpos
  · assumption
  · cases hpos

/-- What a permit is used for, other than to give it back, is the right to close its own lock. -/
theorem Sound.close (h : Sound count t) (hfind : Table.find? t.system.permits name = some p) {e : CloseEvent}
    {f : AccessLock → AccessLock} (hheld : ∀ l, (f l).held = l.held)
    (hclose : ∀ l events, l.closeOwner = CloseEvent.closer events →
      (f l).closeOwner = CloseEvent.closer (e :: events)) :
    Sound count ⟨t.system.update p.lock f, .close p.lock e :: t.history⟩ := by
  have hlength : p.lock < t.system.locks.length := h.length.symm ▸ h.inRange hfind
  have hlock : ∀ id, (t.system.update p.lock f).lock id =
      if p.lock = id then f (t.system.lock id) else t.system.lock id := fun _ => LockSystem.lock_update hlength f
  refine ⟨(List.length_modify ..).trans h.length, h.nodup, h.inRange, fun {id} hid => ?_⟩
  have hid' := h.locks hid
  by_cases heq : p.lock = id
  · subst heq
    refine ⟨?_, ?_, fun hfree => ?_, ?_⟩
    · rw [hlock, if_pos rfl, hheld]
      exact hid'.outstanding
    · rw [hlock, if_pos rfl, LockEvent.lifetime_close]
      exact hclose _ _ hid'.closeOwner
    · rw [hlock, if_pos rfl, hheld, h.held_of_find? hfind] at hfree
      cases hfree
    · have htaken : LockEvent.close p.lock e ≠ .taken p.lock := nofun
      have hfreed : LockEvent.close p.lock e ≠ .freed p.lock := nofun
      dsimp only
      rw [List.count_cons_of_ne htaken, List.count_cons_of_ne hfreed]
      exact hid'.balance
  · exact hid'.other (by rw [hlock, if_neg heq]) rfl heq

end LockTrace

/-- The lock of the action is one of `count` locks. -/
def LockAction.InRange (count : Nat) : LockAction → Prop
  | .tryAcquire lock _ _ | .acquireTimeout lock _ _ _ => lock < count
  | _ => True

namespace LockTrace

theorem Sound.step (h : Sound count t) (thread : Thread) {a : LockAction} (ha : a.InRange count) :
    Sound count (t.step thread a) := by
  unfold LockTrace.step
  cases a with
  | tryAcquire id name anyThread =>
    unfold LockSystem.step LockSystem.events
    dsimp only
    split
    · exact h
    · next hfree => exact h.take ha (Bool.eq_false_iff.mpr hfree) thread name anyThread
  | acquireTimeout id name anyThread limit =>
    unfold LockSystem.step LockSystem.events
    dsimp only
    split
    · exact h
    · next hfree => exact h.take ha (Bool.eq_false_iff.mpr hfree) thread name anyThread
  | release id name =>
    rcases LockSystem.release_cases t.system thread id name with
      ⟨hfind, hstep⟩ | ⟨p, e, hfind, hrefusal, hstep⟩ | ⟨p, hfind, haccepted, hstep⟩ <;> rw [hstep]
    · simp only [LockSystem.events, hfind]
      exact h
    · simp only [LockSystem.events, hfind, hrefusal]
      exact h
    · have hdrop := h.dropPermit name
      simp only [LockSystem.dropEvents, hfind] at hdrop
      simp only [LockSystem.events, hfind, haccepted]
      exact hdrop
  | drop name => exact h.dropPermit name
  | claimClose name =>
    cases hfind : Table.find? t.system.permits name with
    | none =>
      simp only [LockSystem.step, LockSystem.events, hfind]
      exact h
    | some p =>
      simp only [LockSystem.step, LockSystem.events, hfind]
      exact h.close hfind (fun _ => rfl) fun _ _ _ => rfl
  | transferClose id name =>
    cases hfind : Table.find? t.system.permits name with
    | none =>
      simp only [LockSystem.step, LockSystem.events, hfind]
      exact h
    | some p =>
      by_cases hid : p.lock = id
      · subst hid
        simp only [LockSystem.step, LockSystem.events, hfind, if_pos]
        exact h.close hfind (fun _ => AccessLock.held_transferClose) fun _ _ => AccessLock.closeOwner_transferClose
      · simp only [LockSystem.step, LockSystem.events, hfind, if_neg hid]
        exact h
  | ownsForClose id => exact h
  | inspect id name =>
    have hsame : (t.system.step thread (.inspect id name)).1 = t.system := by
      unfold LockSystem.step
      dsimp only
      split <;> rfl
    rw [hsame]
    exact h

theorem Sound.foldl {actions : List (Thread × LockAction)} (h : Sound count t)
    (hactions : ∀ x ∈ actions, x.2.InRange count) :
    Sound count (actions.foldl (fun t x => t.step x.1 x.2) t) := by
  induction actions generalizing t with
  | nil => exact h
  | cons x actions ih =>
    obtain ⟨hx, hrest⟩ := List.forall_mem_cons.mp hactions
    exact ih (h.step x.1 hx) hrest

end LockTrace

end TdsSession
