import TdsSession.Access.Queue
import TdsSession.Proofs.Access.Permits

/-!
# What threads can rely on

The properties of locks and permits that hold in every state that threads can
get to, whatever they do and in whatever order (`locks_safe`). A thread that
waits for a lock takes a step of its own once the lock is free, so that the same
holds of locks that are waited for.
-/

namespace TdsSession

namespace Permit

/-- A permit is refused by any other lock, and on any other thread than the one it is bound to. -/
theorem isSome_refusal? {p : Permit} {lock : LockId} {thread : Thread} :
    (p.refusal? lock thread).isSome ↔ p.lock ≠ lock ∨ ∃ owner ≠ thread, p.owner = some owner := by
  unfold refusal?
  by_cases hlock : p.lock = lock
  · rw [if_neg (not_not_intro hlock)]
    cases p.owner with
    | none => simp [hlock]
    | some owner =>
      by_cases howner : owner = thread <;> simp [hlock, howner]
  · simp [hlock]

end Permit

namespace LockSystem

/-- Between `s` and `s'` the permit of that name has come back, and its lock alone is free because of it. -/
structure Returned (s s' : LockSystem) (name : String) (p : Permit) : Prop where
  out : Table.find? s.permits name = some p
  held : (s.lock p.lock).held = true
  permits : ∀ other, Table.find? s'.permits other = if name = other then none else Table.find? s.permits other
  locks : ∀ id, s'.lock id = if p.lock = id then .freed else s.lock id

end LockSystem

namespace LockTrace

/-- What threads can rely on. -/
structure Safe (count : Nat) (t : LockTrace) : Prop where
  /-- A lock has at most one permit out, and is held exactly if it has one. -/
  exclusive : ∀ id < count, t.system.outstanding id ≤ 1 ∧
    ((t.system.lock id).held = true ↔ t.system.outstanding id = 1)
  /-- A permit is refused by any other lock, and on any other thread than the one it is bound to. -/
  refused : ∀ thread id name, (∃ e, (t.system.step thread (.release id name)).2 = .rejected e) ↔
    ∃ p, Table.find? t.system.permits name = some p ∧ (p.lock ≠ id ∨ ∃ owner ≠ thread, p.owner = some owner)
  /-- Refusing a permit leaves it out, and changes no lock. -/
  kept : ∀ thread id name e, (t.system.step thread (.release id name)).2 = .rejected e →
    (t.system.step thread (.release id name)).1 = t.system
  released : ∀ thread id name, (t.system.step thread (.release id name)).2 = .yes →
    ∃ p, p.lock = id ∧ t.system.Returned (t.system.step thread (.release id name)).1 name p
  dropped : ∀ thread name p, Table.find? t.system.permits name = some p →
    t.system.Returned (t.system.step thread (.drop name)).1 name p
  /-- A lock has been freed once for each permit of it that was taken, but for the one that is out. -/
  once : ∀ id < count, t.history.count (.taken id) =
    t.history.count (.freed id) + if (t.system.lock id).held then 1 else 0
  /-- A thread may close if the lock is held, and the last set or transfer that counts under its permit was on that
  thread. -/
  closes : ∀ id < count, ∀ thread, (t.system.lock id).ownsForClose thread = true ↔
    (t.system.lock id).held = true ∧ CloseEvent.LastOn thread (LockEvent.lifetime id t.history)

/-- What comes back from a sound state frees its own lock. -/
theorem Sound.returned (h : Sound count t) (hfind : Table.find? t.system.permits name = some p) :
    t.system.Returned (t.system.dropPermit name) name p where
  out := hfind
  held := h.held_of_find? hfind
  permits other := by
    rw [LockSystem.dropPermit_of_find? hfind]
    exact Table.find?_erase ..
  locks id := by
    have hlength : p.lock < t.system.locks.length := h.length.symm ▸ h.inRange hfind
    rw [LockSystem.dropPermit_of_find? hfind]
    exact LockSystem.lock_update hlength _

theorem Sound.safe (h : Sound count t) : t.Safe count where
  exclusive id hid := by
    rw [(h.locks hid).outstanding]
    split <;> simp_all
  refused thread id name := by
    rcases LockSystem.release_cases t.system thread id name with
      ⟨hfind, hstep⟩ | ⟨p, e, hfind, hrefusal, hstep⟩ | ⟨p, hfind, haccepted, hstep⟩ <;> rw [hstep, hfind]
    · exact iff_of_false (fun ⟨_, hreply⟩ => nomatch hreply) fun ⟨_, hsome, _⟩ => nomatch hsome
    · refine iff_of_true ⟨e, rfl⟩ ⟨p, rfl, Permit.isSome_refusal?.mp ?_⟩
      rw [hrefusal]
      rfl
    · refine iff_of_false (fun ⟨_, hreply⟩ => nomatch hreply) fun ⟨p', hsome, hwhy⟩ => ?_
      cases hsome
      have hrefusal := Permit.isSome_refusal?.mpr hwhy
      rw [haccepted] at hrefusal
      cases hrefusal
  kept thread id name e hreply := by
    rcases LockSystem.release_cases t.system thread id name with
      ⟨_, hstep⟩ | ⟨p, e, _, _, hstep⟩ | ⟨p, _, _, hstep⟩ <;> rw [hstep] at hreply ⊢
    cases hreply
  released thread id name hreply := by
    rcases LockSystem.release_cases t.system thread id name with
      ⟨_, hstep⟩ | ⟨p, e, _, _, hstep⟩ | ⟨p, hfind, haccepted, hstep⟩ <;> rw [hstep] at hreply ⊢
    · cases hreply
    · cases hreply
    · refine ⟨p, Decidable.byContradiction fun hlock => ?_, h.returned hfind⟩
      have hrefusal : (p.refusal? id thread).isSome := Permit.isSome_refusal?.mpr (.inl hlock)
      rw [haccepted] at hrefusal
      cases hrefusal
  dropped thread name p hfind := h.returned hfind
  once id hid := by
    rw [(h.locks hid).balance, (h.locks hid).outstanding]
  closes id hid thread := by
    rw [CloseEvent.lastOn_iff, ← (h.locks hid).closeOwner]
    simp [AccessLock.ownsForClose]

end LockTrace

/-! ## Waiting for a lock -/

/-- The lock of the request is one of `count` locks. -/
def LockRequest.InRange (count : Nat) : LockRequest → Prop
  | .action a => a.InRange count
  | .acquire lock _ _ => lock < count

namespace LockQueue

/-- What threads ask for one after another, beginning with free locks. -/
def run (count : Nat) (requests : List (Thread × LockRequest)) : LockQueue :=
  requests.foldl (fun q x => (q.step x.1 x.2).1) { system := .new count }

variable {count : Nat} {q q' : LockQueue}

/-- Every step that was taken so far is one of `LockSystem.step`, and any thread that waits can go on with one. -/
structure Stepped (count : Nat) (q : LockQueue) : Prop where
  actions : ∃ actions : List (Thread × LockAction), (∀ x ∈ actions, x.2.InRange count) ∧
    q.system = (LockTrace.run count actions).system
  waiters : ∀ w ∈ q.waiters, w.lock < count

theorem Stepped.step {s : LockSystem} {waiters : List LockWaiter} {seen : List Thread} (h : Stepped count q)
    {thread : Thread} {a : LockAction} (ha : a.InRange count) (hs : s = (q.system.step thread a).1)
    (hwaiters : ∀ w ∈ waiters, w ∈ q.waiters) : Stepped count ⟨s, waiters, seen⟩ where
  actions := by
    obtain ⟨actions, hactions, hsystem⟩ := h.actions
    refine ⟨actions ++ [(thread, a)], ?_, ?_⟩
    · intro x hx
      rcases List.mem_append.mp hx with hx | hx
      · exact hactions x hx
      · rw [List.mem_singleton.mp hx]
        exact ha
    · rw [LockTrace.run, List.foldl_append]
      rw [hsystem] at hs
      exact hs
  waiters w hw := h.waiters w (hwaiters w hw)

/-- Taking a free lock is a step. -/
theorem take_eq_step {s : LockSystem} {thread : Thread} {id : LockId} {name : String} {anyThread : Bool}
    (h : (s.lock id).held = false) :
    s.take thread id name anyThread = (s.step thread (.tryAcquire id name anyThread)).1 := by
  rw [LockSystem.step, h]
  rfl

/-- A thread that waited takes a lock that is free. -/
theorem Stepped.wakeOne {thread : Thread} (h : Stepped count q) (hwake : q.wakeOne = some (q', thread)) :
    Stepped count q' := by
  unfold LockQueue.wakeOne at hwake
  split at hwake
  · cases hwake
  · next w hfind =>
    cases hwake
    have hfree : (q.system.lock w.lock).held = false := by simpa using List.find?_some hfind
    have hlock : w.lock < count := h.waiters w (List.mem_of_find?_eq_some hfind)
    exact h.step (a := .tryAcquire w.lock w.permit w.anyThread) hlock (take_eq_step hfree)
      fun _ => List.mem_of_mem_erase

theorem Stepped.wake (h : Stepped count q) (n : Nat) : Stepped count (q.wake n).1 := by
  induction n generalizing q with
  | zero => exact h
  | succ n ih =>
    unfold LockQueue.wake
    cases hwake : q.wakeOne with
    | none => exact h
    | some p => exact ih (h.wakeOne hwake)

/-- A thread acts, takes a free lock, or waits. -/
theorem Stepped.request (h : Stepped count q) (thread : Thread) {r : LockRequest} (hr : r.InRange count) :
    Stepped count (q.request thread r).1 := by
  cases r with
  | action a => exact h.step hr rfl fun _ => id
  | acquire lock permit anyThread =>
    unfold LockQueue.request
    dsimp only
    split
    · refine ⟨h.actions, fun w hw => ?_⟩
      rcases List.mem_append.mp hw with hw | hw
      · exact h.waiters w hw
      · rw [List.mem_singleton.mp hw]
        exact hr
    · next hfree =>
      exact h.step (a := .tryAcquire lock permit anyThread) hr (take_eq_step (Bool.eq_false_iff.mpr hfree))
        fun _ => id

theorem Stepped.run {requests : List (Thread × LockRequest)} (h : Stepped count q)
    (hrequests : ∀ x ∈ requests, x.2.InRange count) :
    Stepped count (requests.foldl (fun q x => (q.step x.1 x.2).1) q) := by
  induction requests generalizing q with
  | nil => exact h
  | cons x requests ih =>
    obtain ⟨hx, hrest⟩ := List.forall_mem_cons.mp hrequests
    have hseen : ∀ seen, Stepped count { q with seen } := fun _ => ⟨h.actions, h.waiters⟩
    exact ih (((hseen _).request x.1 hx).wake _) hrest

end LockQueue

/-- Whatever threads do, a lock has one permit at most, is held while that is out, and is freed by it alone; and a
thread that waits does nothing else than to take a free lock in the end. -/
theorem locks_safe {count : Nat} {actions : List (Thread × LockAction)} (h : ∀ x ∈ actions, x.2.InRange count) :
    (LockTrace.run count actions).Safe count ∧
    ∀ requests : List (Thread × LockRequest), (∀ x ∈ requests, x.2.InRange count) →
      ∃ actions : List (Thread × LockAction), (∀ x ∈ actions, x.2.InRange count) ∧
        (LockQueue.run count requests).system = (LockTrace.run count actions).system := by
  refine ⟨((LockTrace.Sound.new count).foldl h).safe, fun requests hrequests => ?_⟩
  have hnew : LockQueue.Stepped count { system := .new count } := ⟨⟨[], nofun, rfl⟩, nofun⟩
  exact (hnew.run hrequests).actions

/-- A permit that is bound to its thread is refused on another, which may still claim the right to close with it. -/
theorem locks_safe_refused :
    (LockTrace.run 2 [("main", .tryAcquire 0 "permit" false), ("worker", .claimClose "permit"),
      ("worker", .release 0 "permit")]).Safe 2 ∧
    (LockTrace.run 2 [("main", .tryAcquire 0 "permit" false), ("worker", .claimClose "permit"),
      ("worker", .release 0 "permit")]).system =
        ⟨[⟨true, some "worker"⟩, {}], [("permit", ⟨0, some "main"⟩)]⟩ := by
  exact ⟨(locks_safe (by simp [LockAction.InRange])).1, by decide +kernel⟩

end TdsSession
