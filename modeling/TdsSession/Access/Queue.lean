import TdsSession.Access.System

/-!
# Waiting for locks

Threads that wait until a lock is free. After each step, a free lock goes to
the thread that has waited for it longest.
-/

namespace TdsSession

/-- A thread that waits for a lock, and the permit it will hold then. -/
structure LockWaiter where
  thread : Thread
  lock : LockId
  permit : String
  anyThread : Bool
deriving DecidableEq, Repr

/-- Locks, permits and waiting threads; `seen` are the threads that have done anything. -/
structure LockQueue where
  system : LockSystem
  waiters : List LockWaiter := []
  seen : List Thread := []
deriving DecidableEq, Repr

/-- What a thread does: something that takes no time, or waiting for a lock. -/
inductive LockRequest
  | action (a : LockAction)
  | acquire (lock : LockId) (permit : String) (anyThread : Bool)
deriving DecidableEq, Repr

namespace LockQueue

/-- Gives one free lock to the first thread that waits for it. -/
def wakeOne (q : LockQueue) : Option (LockQueue × Thread) :=
  match q.waiters.find? fun w => !(q.system.lock w.lock).held with
  | none => none
  | some w =>
    some ({ q with
      system := q.system.take w.thread w.lock w.permit w.anyThread
      waiters := q.waiters.erase w }, w.thread)

/-- Gives free locks away, at most `n`. -/
def wake (q : LockQueue) : (n : Nat) → LockQueue × List Thread
  | 0 => (q, [])
  | n + 1 =>
    match q.wakeOne with
    | none => (q, [])
    | some (q', thread) =>
      let (q'', threads) := q'.wake n
      (q'', thread :: threads)

/-- What `thread` asks for, without waking others. -/
def request (q : LockQueue) (thread : Thread) : LockRequest → LockQueue × LockReply
  | .action a =>
    let (system, reply) := q.system.step thread a
    ({ q with system }, reply)
  | .acquire lock permit anyThread =>
    if (q.system.lock lock).held then
      ({ q with waiters := q.waiters ++ [⟨thread, lock, permit, anyThread⟩] }, .waiting)
    else ({ q with system := q.system.take thread lock permit anyThread }, .yes)

/-- One step of `thread`, and the threads that go on because of it. -/
def step (q : LockQueue) (thread : Thread) (r : LockRequest) : LockQueue × LockReply × List Thread :=
  let seen := if thread ∈ q.seen then q.seen else q.seen ++ [thread]
  let (q, reply) := { q with seen }.request thread r
  let (q, woken) := q.wake q.waiters.length
  (q, reply, woken)

/-- The thread that may close what a lock guards, among those that have done anything and do not
wait. -/
def closer? (q : LockQueue) (lock : LockId) : Option Thread :=
  q.seen.find? fun t => (q.system.lock lock).ownsForClose t && !q.waiters.any (·.thread == t)

end LockQueue

end TdsSession
