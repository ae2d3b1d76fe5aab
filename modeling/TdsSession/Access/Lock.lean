import TdsSession.Time.Span

/-!
# The access lock

Only one party at a time may use the wire of a connection: the one that holds
the permit of the connection's lock. A permit is given back by releasing it,
or by dropping it. One that is bound to the thread that took it can be
released on that thread only. While the lock is held, one thread may hold the
right to close the connection.
-/

namespace TdsSession

/-- The name of a thread. -/
abbrev Thread := String

/-- The number of a lock. -/
abbrev LockId := Nat

/-- Why a lock was not got or not given back. -/
inductive LockError
  | timeout (limit : Span)
  | foreignThread (owner current : Thread)
  | foreignPermit
deriving DecidableEq, Repr

def LockError.message : LockError → String
  | .timeout limit => "timed out after " ++ Span.toText limit ++ " waiting for exclusive access"
  | .foreignThread owner current =>
    "permit owned by thread " ++ owner ++ " released on thread " ++ current
  | .foreignPermit => "permit does not belong to this lock"

/-- A lock: whether it is held, and the thread that may close the connection. -/
structure AccessLock where
  held : Bool := false
  closeOwner : Option Thread := none
deriving DecidableEq, Repr

/-- The right to use what a lock guards; `owner` is the thread it is bound to. -/
structure Permit where
  lock : LockId
  owner : Option Thread
deriving DecidableEq, Repr

namespace Permit

/-- The permit of a lock for the thread that takes it, bound to it unless `anyThread`. -/
def issue (lock : LockId) (thread : Thread) (anyThread : Bool) : Permit :=
  ⟨lock, if anyThread then none else some thread⟩

/-- Any thread may release the permit. -/
def isForAnyThread (p : Permit) : Bool := p.owner.isNone

/-- Why the permit cannot be released on `thread` as one of `lock`, if it cannot. -/
def refusal? (p : Permit) (lock : LockId) (thread : Thread) : Option LockError :=
  if p.lock ≠ lock then some .foreignPermit
  else
    match p.owner with
    | some owner => if owner = thread then none else some (.foreignThread owner thread)
    | none => none

end Permit

namespace AccessLock

/-- The lock once it is taken. -/
def taken (l : AccessLock) : AccessLock := { l with held := true }

/-- The lock once its permit is gone. -/
def freed : AccessLock := {}

/-- Gives the close right to `thread`. -/
def claimClose (l : AccessLock) (thread : Thread) : AccessLock := { l with closeOwner := some thread }

/-- Moves the close right to `thread`, if there is one to move. -/
def transferClose (l : AccessLock) (thread : Thread) : AccessLock :=
  if l.closeOwner.isSome then l.claimClose thread else l

/-- `thread` may close the connection. -/
def ownsForClose (l : AccessLock) (thread : Thread) : Bool :=
  l.held && l.closeOwner == some thread

end AccessLock

end TdsSession
