import TdsSession.Access.Lock
import TdsSession.Table

/-!
# Locks and permits

Any number of locks, and the permits that are out, each under a name. Every
operation of a thread is one step. A permit that is put under the name of
another drops that one.
-/

namespace TdsSession

/-- Locks by their numbers, and the permits that are out by their names. -/
structure LockSystem where
  locks : List AccessLock
  permits : Table String Permit := []
deriving DecidableEq, Repr

/-- What a thread does, to a lock and under the name of a permit. -/
inductive LockAction
  /-- Takes the lock if it is free. -/
  | tryAcquire (lock : LockId) (permit : String) (anyThread : Bool)
  /-- Takes the lock, or gives up after `limit`. -/
  | acquireTimeout (lock : LockId) (permit : String) (anyThread : Bool) (limit : Span)
  | release (lock : LockId) (permit : String)
  | drop (permit : String)
  /-- Claims the right to close what the permit's lock guards. -/
  | claimClose (permit : String)
  /-- Moves that right to the thread that asks. -/
  | transferClose (lock : LockId) (permit : String)
  | ownsForClose (lock : LockId)
  | inspect (lock : LockId) (permit : String)
deriving DecidableEq, Repr

/-- What a thread is told. -/
inductive LockReply
  | yes
  | no
  | failed (e : LockError)
  /-- The permit stays out. -/
  | rejected (e : LockError)
  | permit (anyThread belongs : Bool)
  | noPermit
  | waiting
deriving DecidableEq, Repr

namespace LockSystem

/-- Free locks. -/
def new (count : Nat) : LockSystem := { locks := List.replicate count {} }

/-- A lock by its number. -/
def lock (s : LockSystem) (id : LockId) : AccessLock := s.locks[id]?.getD {}

/-- Changes one lock. -/
def update (s : LockSystem) (id : LockId) (f : AccessLock → AccessLock) : LockSystem :=
  { s with locks := s.locks.modify id f }

/-- Takes a permit back, if there is one of that name, and frees its lock. -/
def dropPermit (s : LockSystem) (name : String) : LockSystem :=
  match Table.find? s.permits name with
  | some p => { s.update p.lock (fun _ => .freed) with permits := Table.erase s.permits name }
  | none => s

/-- Takes a free lock for a thread, and keeps the permit. -/
def take (s : LockSystem) (thread : Thread) (id : LockId) (name : String) (anyThread : Bool) :
    LockSystem :=
  let s := (s.dropPermit name).update id AccessLock.taken
  { s with permits := Table.set s.permits name (Permit.issue id thread anyThread) }

/-- What `thread` does in one step. -/
def step (s : LockSystem) (thread : Thread) : LockAction → LockSystem × LockReply
  | .tryAcquire id name anyThread =>
    if (s.lock id).held then (s, .no) else (s.take thread id name anyThread, .yes)
  | .acquireTimeout id name anyThread limit =>
    if (s.lock id).held then (s, .failed (.timeout limit)) else (s.take thread id name anyThread, .yes)
  | .release id name =>
    match Table.find? s.permits name with
    | none => (s, .noPermit)
    | some p =>
      match p.refusal? id thread with
      | some e => (s, .rejected e)
      | none => (s.dropPermit name, .yes)
  | .drop name => (s.dropPermit name, .yes)
  | .claimClose name =>
    match Table.find? s.permits name with
    | none => (s, .noPermit)
    | some p => (s.update p.lock (·.claimClose thread), .yes)
  | .transferClose id name =>
    match Table.find? s.permits name with
    | none => (s, .noPermit)
    | some p =>
      if p.lock = id then (s.update id (·.transferClose thread), .yes) else (s, .failed .foreignPermit)
  | .ownsForClose id => (s, if (s.lock id).ownsForClose thread then .yes else .no)
  | .inspect id name =>
    match Table.find? s.permits name with
    | none => (s, .noPermit)
    | some p => (s, .permit p.isForAnyThread (p.lock == id))

end LockSystem

end TdsSession
