import TdsSession.Access.System

/-!
# What happened to a lock

A history keeps what the steps of threads did to locks: each permit that was
taken or came back, each set of the right to close and each transfer of it that
was asked for with the right permit. It says nothing of the right itself. Since
the lock was last taken, the right is with the thread of the last set or
transfer that counts (`CloseEvent.lastOn_iff`), where a transfer counts if there
was a set before it.
-/

namespace TdsSession

/-- Something done to the right to close. -/
inductive CloseEvent
  | set (thread : Thread)
  | transfer (thread : Thread)
deriving DecidableEq, Repr

/-- Something done to a lock. -/
inductive LockEvent
  | taken (lock : LockId)
  | freed (lock : LockId)
  | close (lock : LockId) (e : CloseEvent)
deriving DecidableEq, Repr

namespace CloseEvent

def thread : CloseEvent → Thread
  | .set thread | .transfer thread => thread

def isSet : CloseEvent → Bool
  | .set _ => true
  | .transfer _ => false

/-- A set counts; a transfer counts if there is something to move, a set before it. -/
def Counts (e : CloseEvent) (earlier : List CloseEvent) : Prop :=
  e.isSet ∨ ∃ e' ∈ earlier, e'.isSet

/-- The last event that counts, newest first, was on `thread`. -/
def LastOn (thread : Thread) (events : List CloseEvent) : Prop :=
  ∃ later e earlier, events = later ++ e :: earlier ∧ e.thread = thread ∧ e.Counts earlier ∧
    ∀ newer e' older, later = newer ++ e' :: older → ¬ e'.Counts (older ++ e :: earlier)

/-- The thread that has the right to close after events, newest first. -/
def closer : List CloseEvent → Option Thread
  | [] => none
  | .set thread :: _ => some thread
  | .transfer thread :: earlier => if (closer earlier).isSome then some thread else none

/-- Some thread has the right once it was set. -/
theorem isSome_closer {events : List CloseEvent} : (closer events).isSome ↔ ∃ e ∈ events, e.isSet := by
  induction events with
  | nil => simp [closer]
  | cons e events ih =>
    cases e with
    | set thread => simp [closer, isSet]
    | transfer thread =>
      have hnot : ¬ (transfer thread).isSet := nofun
      simp only [List.mem_cons, exists_eq_or_imp, hnot, ← ih, closer]
      split
      · next hsome => simp [hsome]
      · next hsome => simp [hsome]

/-- After an event that counts, the right is with its thread. -/
theorem closer_cons_of_counts {e : CloseEvent} {earlier : List CloseEvent} (h : e.Counts earlier) :
    closer (e :: earlier) = some e.thread := by
  cases e with
  | set thread => rfl
  | transfer thread =>
    have hset : (closer earlier).isSome := isSome_closer.mpr (h.resolve_left nofun)
    rw [closer, if_pos hset]
    rfl

/-- What comes after an event that counts counts as well. -/
theorem Counts.later {e : CloseEvent} {earlier : List CloseEvent} (h : e.Counts earlier) (e' : CloseEvent)
    (between : List CloseEvent) : e'.Counts (between ++ e :: earlier) := by
  right
  rcases h with hset | ⟨e'', hmem, hset⟩
  · exact ⟨e, by simp, hset⟩
  · exact ⟨e'', by simp [hmem], hset⟩

/-- The right is with the thread of the last event that counts. -/
theorem lastOn_iff {thread : Thread} {events : List CloseEvent} : LastOn thread events ↔ closer events = some thread := by
  constructor
  · rintro ⟨later, e, earlier, rfl, rfl, hcounts, hlast⟩
    -- Anything after it would count, so it is the newest.
    cases later with
    | nil => exact closer_cons_of_counts hcounts
    | cons e' later => exact absurd (hcounts.later e' later) (hlast [] e' later rfl)
  · intro h
    cases events with
    | nil => cases h
    | cons e earlier =>
      have hcounts : e.Counts earlier := by
        cases e with
        | set thread => exact .inl rfl
        | transfer thread =>
          rw [closer] at h
          split at h
          · next hset => exact .inr (isSome_closer.mp hset)
          · cases h
      rw [closer_cons_of_counts hcounts] at h
      cases h
      exact ⟨[], e, earlier, rfl, rfl, hcounts, fun newer _ _ hnil => by cases newer <;> cases hnil⟩

end CloseEvent

namespace LockEvent

def lock : LockEvent → LockId
  | .taken lock | .freed lock | .close lock _ => lock

/-- What was done to the right to close since the lock was last taken or freed, newest first. -/
def lifetime (id : LockId) : List LockEvent → List CloseEvent
  | [] => []
  | .taken lock :: earlier | .freed lock :: earlier => if lock = id then [] else lifetime id earlier
  | .close lock e :: earlier => if lock = id then e :: lifetime id earlier else lifetime id earlier

theorem lifetime_taken (id : LockId) (earlier : List LockEvent) : lifetime id (.taken id :: earlier) = [] :=
  if_pos rfl

theorem lifetime_freed (id : LockId) (earlier : List LockEvent) : lifetime id (.freed id :: earlier) = [] :=
  if_pos rfl

theorem lifetime_close (id : LockId) (e : CloseEvent) (earlier : List LockEvent) :
    lifetime id (.close id e :: earlier) = e :: lifetime id earlier := if_pos rfl

/-- What is done to another lock is not part of it. -/
theorem lifetime_of_ne {id : LockId} {e : LockEvent} (h : e.lock ≠ id) (earlier : List LockEvent) :
    lifetime id (e :: earlier) = lifetime id earlier := by
  cases e <;> exact if_neg h

end LockEvent

namespace LockSystem

/-- The permit of that name comes back. -/
def dropEvents (s : LockSystem) (name : String) : List LockEvent :=
  match Table.find? s.permits name with
  | some p => [.freed p.lock]
  | none => []

/-- What one step of `thread` does to locks, newest first. -/
def events (s : LockSystem) (thread : Thread) : LockAction → List LockEvent
  | .tryAcquire id name _ | .acquireTimeout id name _ _ =>
    if (s.lock id).held then [] else .taken id :: s.dropEvents name
  | .release id name =>
    match Table.find? s.permits name with
    | none => []
    | some p => if (p.refusal? id thread).isSome then [] else [.freed p.lock]
  | .drop name => s.dropEvents name
  | .claimClose name =>
    match Table.find? s.permits name with
    | none => []
    | some p => [.close p.lock (.set thread)]
  | .transferClose id name =>
    match Table.find? s.permits name with
    | none => []
    | some p => if p.lock = id then [.close id (.transfer thread)] else []
  | .ownsForClose _ | .inspect _ _ => []

end LockSystem

/-- Locks and permits with what happened to them, newest first. -/
structure LockTrace where
  system : LockSystem
  history : List LockEvent

namespace LockTrace

def step (t : LockTrace) (thread : Thread) (a : LockAction) : LockTrace :=
  ⟨(t.system.step thread a).1, t.system.events thread a ++ t.history⟩

/-- What threads do one after another, beginning with free locks. -/
def run (count : Nat) (actions : List (Thread × LockAction)) : LockTrace :=
  actions.foldl (fun t x => t.step x.1 x.2) ⟨.new count, []⟩

end LockTrace

end TdsSession
