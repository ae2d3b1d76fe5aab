import TdsSession.Proofs.Connection.Doom
import TdsSession.Proofs.Login.Isolation

/-!
# Recovering a session

A recovery is refused at once (`Connection.refusal?`), or it takes the lock of
the connection and logs in, again and again, until that succeeds or there is no
sense in another login. `recover_all_or_nothing` says what holds however it ends:
a session that is not replaced is as it was, the lock is free, and what has been
added to the trace are so many logins at most, one after the other, which all
carry the same request (`Relogins`).
-/

namespace TdsSession

open Op (Keeps)
open Relation (ReflTransGen)

variable {σ α : Type}

/-! ## The trace of one login -/

namespace LoginM

/-- No login begins in the rounds of another. -/
theorem rounds_grows (x : LoginContext σ) (attempts : Nat) (plan : LoginPlan) :
    Keeps (TraceGrows (· ≠ .began)) (rounds x attempts plan) := by
  refine rounds_keeps (fun plan run => ?_) (fun plan ended run => ?_) attempts plan
  · rcases h : roundAttempt x plan run with ⟨ended, mid⟩
    exact roundAttempt_grows h
  · refine (settle_keeps x plan ended run).trace.mono fun e he => ?_
    rintro rfl
    exact he

theorem closes.ne_began {e : Event} (h : closes e) : e ≠ .began := by
  rintro rfl
  exact h

end LoginM

namespace LoginStart

variable {server : Server σ} {attempts : Nat} {s : LoginStart} {w : World σ}

/-- A login begins once. -/
theorem login_grows (server : Server σ) (attempts : Nat) (s : LoginStart) (w : World σ) :
    Grows (· ≠ .began) (s.begun w).world.trace (login server attempts s w).2.world.trace := by
  have hended := (login_trace server attempts s w).mono fun _ => LoginM.closes.ne_began
  rcases course_cases s server attempts w with ⟨-, hworld⟩ | ⟨plan, hx, hplan, -⟩
  · rwa [hworld] at hended
  have hrounds := LoginM.rounds_grows (s.context server) attempts plan (s.begun w)
  unfold TraceGrows at hrounds
  rw [← allRounds_eq hplan] at hrounds
  have hestablish := (LoginM.establish_closes (s.context server) attempts (s.begun w) hx).mono
    fun _ => LoginM.closes.ne_began
  exact hrounds.trans (hestablish.trans hended)

/-- A login that fails notes its failure last. -/
theorem trace_of_failed {e : Error} {run' : LoginRun σ} (h : login server attempts s w = (.error (.failed e), run')) :
    ∃ t older, run'.world.trace = (t, .ended (.failed e)) :: older := by
  rw [login_apply] at h
  rcases hend : LoginM.establish (s.context server) attempts (s.begun w) with ⟨t | e', mid⟩ <;> rw [hend] at h
  · cases t <;> cases h
    exact ⟨_, _, rfl⟩
  · cases h

end LoginStart

/-- What one login adds to the trace that carries a session over with `request`. -/
structure OneLogin (request : Bytes) (added : List (Moment × Event)) : Prop where
  begins : ∃ t later, added = later ++ [(t, .began)] ∧ ∀ e ∈ later, e.2 ≠ .began
  carries : ∀ t n q d, (t, .login n q d) ∈ added → q.recovery = some request

theorem oneLogin_of_login (server : Server σ) (attempts : Nat) {s : LoginStart} (w : World σ) {previous : SessionState}
    (hs : s.previous = some previous) :
    ∃ added, (login server attempts s w).2.world.trace = added ++ w.trace ∧
      OneLogin previous.recoveryRequest.write added := by
  obtain ⟨later, htrace, hlater⟩ := LoginStart.login_grows server attempts s w
  have hall : (login server attempts s w).2.world.trace = (later ++ [(w.now, .began)]) ++ w.trace := by
    rw [htrace, List.append_assoc]
    rfl
  refine ⟨_, hall, ⟨w.now, later, rfl, hlater⟩, fun t n q d hq => ?_⟩
  obtain ⟨newer, older, hsplit⟩ := List.append_of_mem hq
  have hsuffix : (t, .login n q d) :: (older ++ w.trace) <:+ (login server attempts s w).2.world.trace := by
    rw [hall, hsplit, List.append_assoc]
    exact List.suffix_append newer _
  obtain ⟨target, -, rfl⟩ := LoginStart.login_of_event hsuffix (List.suffix_append older _)
  show s.recovery = _
  unfold LoginStart.recovery
  rw [hs]
  rfl

/-- A sleep is noted, whatever comes of it. -/
theorem WorldM.sleep_trace {span : Span} {res : Except Stop Unit} {w w' : World σ} (h : sleep span w = (res, w')) :
    w'.trace = (w.now, .slept span) :: w.trace := by
  unfold sleep note at h
  rw [Op.bind_of_ok (Op.modify_apply ..)] at h
  exact (wait_cases h).1

/-! ## One login after the other -/

/-- How many logins have begun. -/
def logins (events : List (Moment × Event)) : Nat := events.countP fun e => decide (e.2 = .began)

theorem logins_eq_zero {events : List (Moment × Event)} (h : ∀ e ∈ events, e.2 ≠ .began) : logins events = 0 :=
  List.countP_eq_zero.mpr fun e he => by simpa using h e he

theorem logins_append (later earlier : List (Moment × Event)) :
    logins (later ++ earlier) = logins later + logins earlier := List.countP_append

/-- The newest event is that a login has failed, and another may succeed. -/
def MayRepeat (events : List (Moment × Event)) : Prop :=
  ∃ t e earlier, events = (t, .ended (.failed e)) :: earlier ∧ (e.isTransient = true ∨ e.kind = .timeoutExpired)

/-- The events of at most `most` logins, newest first. Each but the first follows a pause, and that the failure of
the login before it. All carry the same request. -/
structure Relogins (pause : Span) (request : Bytes) (most : Nat) (events : List (Moment × Event)) : Prop where
  atMost : logins events ≤ most
  spaced : ∀ t older, (t, .began) :: older <:+ events →
    older = [] ∨ ∃ t' earlier, older = (t', .slept pause) :: earlier ∧ MayRepeat earlier
  carries : ∀ t n q d, (t, .login n q d) ∈ events → q.recovery = some request

namespace Relogins

variable {pause : Span} {request : Bytes} {most : Nat} {later first : List (Moment × Event)}

theorem nil : Relogins pause request most [] where
  atMost := Nat.zero_le _
  spaced _ _ h := absurd (List.suffix_nil.mp h) (List.cons_ne_nil _ _)
  carries _ _ _ _ h := nomatch h

theorem one (h : OneLogin request first) : Relogins pause request (most + 1) first := by
  obtain ⟨t, events, rfl, hevents⟩ := h.begins
  refine ⟨?_, fun t' older hbegan => .inl ?_, h.carries⟩
  · rw [logins_append, logins_eq_zero hevents, Nat.zero_add]
    exact Nat.succ_le_succ (Nat.zero_le _)
  · rcases cons_suffix_append_cases hbegan with ⟨between, hlater, -⟩ | hlast
    · exact absurd rfl (hevents _ (hlater.subset List.mem_cons_self))
    · exact (List.suffix_cons_iff.mp hlast).elim (fun heq => (List.cons.inj heq).2)
        fun hnil => absurd (List.suffix_nil.mp hnil) (List.cons_ne_nil _ _)

/-- Events that are no login's change nothing. -/
theorem after (h : Relogins pause request most first)
    (hquiet : ∀ e ∈ later, e.2 ≠ .began ∧ e.2.login? = none) : Relogins pause request most (later ++ first) := by
  refine ⟨?_, fun t older hbegan => ?_, fun t n q d hq => ?_⟩
  · rw [logins_append, logins_eq_zero fun e he => (hquiet e he).1, Nat.zero_add]
    exact h.atMost
  · rcases cons_suffix_append_cases hbegan with ⟨between, hlater, -⟩ | hfirst
    · exact absurd rfl (hquiet _ (hlater.subset List.mem_cons_self)).1
    · exact h.spaced t older hfirst
  · rcases List.mem_append.mp hq with hq | hq
    · cases (hquiet _ hq).2
    · exact h.carries t n q d hq

/-- After a login that has failed, and after a pause, other logins follow. -/
theorem cons (h : Relogins pause request most later) (hfirst : OneLogin request first) (hrepeat : MayRepeat first)
    (t : Moment) : Relogins pause request (most + 1) (later ++ (t, .slept pause) :: first) := by
  have hpause : ∀ e ∈ [(t, Event.slept pause)], e.2 ≠ .began ∧ e.2.login? = none :=
    List.forall_mem_singleton.mpr ⟨nofun, rfl⟩
  have hone : Relogins pause request 1 ((t, .slept pause) :: first) := (one hfirst).after hpause
  refine ⟨?_, fun t' older hbegan => ?_, fun t' n q d hq => ?_⟩
  · rw [logins_append]
    exact Nat.add_le_add h.atMost hone.atMost
  · rcases cons_suffix_append_cases hbegan with ⟨between, hlater, rfl⟩ | hfirst
    · rcases h.spaced t' between hlater with rfl | ⟨t'', earlier, rfl, s, e, rest, rfl, he⟩
      · exact .inr ⟨t, first, rfl, hrepeat⟩
      · exact .inr ⟨t'', _, rfl, s, e, _, rfl, he⟩
    · exact hone.spaced t' older hfirst
  · rcases List.mem_append.mp hq with hq | hq
    · exact h.carries t' n q d hq
    · exact hone.carries t' n q d hq

end Relogins

/-! ## The logins of a recovery -/

theorem Event.ofClosing.ne_began {e : Event} (h : e.ofClosing) : e ≠ .began := by
  rintro rfl
  exact h

namespace ConnectionM

variable {server : Server σ} {attempts : Nat} {previous : SessionState} {run run' : ConnectionRun σ}
  {res : Except Stop Established}

theorem inWorld_apply (m : WorldM σ α) (run : ConnectionRun σ) :
    inWorld m run = ((m run.world).1, { run with world := (m run.world).2 }) := rfl

theorem mayPass_iff {e : Error} : mayPass e = true ↔ e.isTransient = true ∨ e.kind = .timeoutExpired := by
  unfold mayPass
  rw [Bool.or_eq_true, beq_iff_eq]

/-- Putting a session in the place of another adds to the trace only that the old transport is given up. -/
theorem resume_trace (e : Established) (run : ConnectionRun σ) :
    Grows Event.ofClosing run.world.trace (resume e run).2.world.trace := by
  have hnotes : Keeps (ReflTransGen (WorldStep Event.ofClosing none))
      (WorldM.discard (σ := σ) run.connection.session.transport none) := WorldM.discard_notes fun _ => trivial
  have hdiscard := WorldStep.grows (hnotes run.world)
  unfold resume
  rw [Op.bind_of_ok (Op.get_apply run)]
  dsimp only
  rw [Op.bind_of_ok (Op.modify_apply ..), Op.bind_apply, inWorld_apply]
  rcases hw : WorldM.discard run.connection.session.transport none run.world with ⟨s | ⟨⟩, w⟩ <;> rw [hw] at hdiscard <;>
    exact hdiscard

/-- A login that carries a session over leaves the options of the connection alone, and is a login by them. -/
theorem relogin_login (h : relogin server attempts previous run = (res, run')) :
    run'.connection.config = run.connection.config ∧
      ∃ s : LoginStart, s.config = run.connection.config ∧ s.previous = some previous ∧ ∃ after,
        login server attempts s run.world = (res, after) ∧ run'.world = after.world := by
  unfold relogin at h
  cases h
  exact ⟨rfl, _, rfl, rfl, _, rfl, rfl⟩

/-- A login that carries a session over is one login. -/
theorem relogin_trace (h : relogin server attempts previous run = (res, run')) :
    run'.connection.config = run.connection.config ∧
      ∃ added, run'.world.trace = added ++ run.world.trace ∧ OneLogin previous.recoveryRequest.write added ∧
        ∀ e, res = .error (.failed e) → ∃ t earlier, added = (t, .ended (.failed e)) :: earlier := by
  obtain ⟨hconfig, s, -, hs, after, hlogin, hworld⟩ := relogin_login h
  obtain ⟨added, htrace, hone⟩ := oneLogin_of_login server attempts run.world hs
  rw [hlogin] at htrace
  rw [hworld]
  refine ⟨hconfig, added, htrace, hone, fun e he => ?_⟩
  subst he
  obtain ⟨t, older, hlast⟩ := LoginStart.trace_of_failed hlogin
  obtain ⟨t', later, hbegins, -⟩ := hone.begins
  rw [hlast] at htrace
  cases added with
  | nil => exact absurd hbegins.symm (List.append_ne_nil_of_right_ne_nil _ (List.cons_ne_nil _ _))
  | cons e' earlier =>
    cases (List.cons.inj htrace).1
    exact ⟨t, earlier, rfl⟩

/-- The ways in which a login is followed by what comes after it: the session is put in the place of the broken one,
the recovery ends as the login does, or it pauses and goes on. -/
theorem relogins_succ_cases {left : Nat} {res : Except Stop Unit}
    (h : relogins server attempts previous (left + 1) run = (res, run')) :
    (∃ e mid, relogin server attempts previous run = (.ok e, mid) ∧ resume e mid = (res, run')) ∨
    (∃ s, relogin server attempts previous run = (.error s, run') ∧ res = .error s) ∨
    ∃ e mid, relogin server attempts previous run = (.error (.failed e), mid) ∧ mayPass e = true ∧
      ((∃ s, inWorld (WorldM.sleep mid.connection.config.retry.recoveryPause) mid = (.error s, run') ∧ res = .error s) ∨
        ∃ later, inWorld (WorldM.sleep mid.connection.config.retry.recoveryPause) mid = (.ok (), later) ∧
          relogins server attempts previous left later = (res, run')) := by
  rw [relogins, Op.bind_apply, attempted_apply] at h
  rcases hlogin : relogin server attempts previous run with ⟨t | e, mid⟩ <;> rw [hlogin] at h
  · cases t with
    | failed e =>
      dsimp only at h
      by_cases hlast : (left = 0 || !mayPass e) = true
      · rw [if_pos hlast] at h
        cases h
        exact .inr (.inl ⟨_, rfl, rfl⟩)
      rw [if_neg hlast, Op.bind_of_ok (Op.get_apply mid)] at h
      rw [Bool.or_eq_true, not_or] at hlast
      have hpass : mayPass e = true := by simpa using hlast.2
      refine .inr (.inr ⟨e, mid, rfl, hpass, ?_⟩)
      rcases Op.bind_cases h with ⟨s, hs, rfl⟩ | ⟨⟨⟩, later, hs, h⟩
      · exact .inl ⟨s, hs, rfl⟩
      · exact .inr ⟨later, hs, h⟩
    | cut =>
      cases h
      exact .inr (.inl ⟨_, rfl, rfl⟩)
    | abandoned =>
      cases h
      exact .inr (.inl ⟨_, rfl, rfl⟩)
    | overflow =>
      cases h
      exact .inr (.inl ⟨_, rfl, rfl⟩)
    | exhausted =>
      cases h
      exact .inr (.inl ⟨_, rfl, rfl⟩)
  · exact .inl ⟨e, mid, rfl, h⟩

theorem inWorld_eq {m : WorldM σ α} {res : Except Stop α} (h : inWorld m run = (res, run')) :
    m run.world = (res, run'.world) ∧ run'.connection = run.connection := by
  rw [inWorld_apply] at h
  cases h
  exact ⟨rfl, rfl⟩

/-- The logins of a recovery follow one another, and all carry the same request. -/
theorem relogins_trace {left : Nat} {res : Except Stop Unit}
    (h : relogins server attempts previous left run = (res, run')) :
    ∃ added, run'.world.trace = added ++ run.world.trace ∧
      Relogins run.connection.config.retry.recoveryPause previous.recoveryRequest.write left added := by
  induction left generalizing run with
  | zero =>
    cases h
    exact ⟨[], rfl, .nil⟩
  | succ left ih =>
    rcases relogins_succ_cases h with ⟨e, mid, hlogin, hresume⟩ | ⟨s, hlogin, -⟩ | ⟨e, mid, hlogin, hpass, h⟩ <;>
      obtain ⟨hconfig, first, hfirst, hone, hfailed⟩ := relogin_trace hlogin
    · have hclosing := resume_trace e mid
      rw [hresume] at hclosing
      obtain ⟨closing, hclosed, hquiet⟩ := hclosing
      refine ⟨closing ++ first, ?_, (Relogins.one hone).after fun e he => ?_⟩
      · rw [hclosed, hfirst, List.append_assoc]
      · exact ⟨(hquiet e he).ne_began, (hquiet e he).asksNothing.login⟩
    · exact ⟨first, hfirst, .one hone⟩
    obtain ⟨t, earlier, hended⟩ := hfailed e rfl
    have hrepeat : MayRepeat first := ⟨t, e, earlier, hended, mayPass_iff.mp hpass⟩
    rw [hconfig] at h
    rcases h with ⟨s, hs, -⟩ | ⟨later, hs, h⟩ <;> obtain ⟨hslept, hsame⟩ := inWorld_eq hs <;>
      have hpause := WorldM.sleep_trace hslept
    · refine ⟨[(mid.world.now, .slept run.connection.config.retry.recoveryPause)] ++ first, ?_,
        (Relogins.one hone).after (List.forall_mem_singleton.mpr ⟨nofun, rfl⟩)⟩
      rw [hpause, hfirst]
      rfl
    · obtain ⟨rest, hrest, hrelogins⟩ := ih h
      rw [hsame, hconfig] at hrelogins
      refine ⟨rest ++ (mid.world.now, .slept run.connection.config.retry.recoveryPause) :: first, ?_,
        hrelogins.cons hone hrepeat _⟩
      rw [hrest, hpause, hfirst, List.append_assoc, List.cons_append]

end ConnectionM

/-! ## The lock -/

/-- The connection with its lock in another state. -/
def ConnectionRun.withLock (run : ConnectionRun σ) (lock : AccessLock) : ConnectionRun σ :=
  { run with connection := { run.connection with shared := { run.connection.shared with lock } } }

/-- Why a connection does not even try to recover its session, if it does not. -/
def Connection.refusal? (c : Connection) : Option Error :=
  if c.shared.closed then some .connectionClosed
  else if c.config.retry.recoveries = 0 || !c.session.state.isRecoverable then some .sessionNotRecoverable
  else none

namespace ConnectionM

variable {server : Server σ} {attempts : Nat} {run run' : ConnectionRun σ}

/-- Whatever an operation under the lock comes to, the lock is free after it. -/
theorem underLock_of_free (m : ConnectionM σ α) (h : run.connection.shared.lock.held = false) :
    underLock m run = ((m (run.withLock run.connection.shared.lock.taken)).1,
      (m (run.withLock run.connection.shared.lock.taken)).2.withLock .freed) := by
  have htake : takeLock run = (.ok (), run.withLock run.connection.shared.lock.taken) := by
    unfold takeLock
    rw [Op.bind_of_ok (Op.get_apply run)]
    simp only [h]
    rfl
  unfold underLock
  rw [Op.bind_of_ok htake, Op.bind_apply, Op.tryCatch_apply]
  rcases m (run.withLock run.connection.shared.lock.taken) with ⟨s | a, after⟩ <;> rfl

/-- A lock that is held is waited for, until the caller loses its patience. -/
theorem underLock_of_held (m : ConnectionM σ α) (h : run.connection.shared.lock.held = true) :
    ∃ t, underLock m run = (.error .abandoned, { run with world := { run.world with now := t } }) := by
  have hwait : ∃ t, WorldM.wait none none run.world = (.error .abandoned, { run.world with now := t }) := by
    have hnever (limit : Option Moment) :
        waitFrom run.world.now none limit = .forever ∨ ∃ t, waitFrom run.world.now none limit = .cut t := by
      cases limit with
      | none => exact .inl rfl
      | some l => exact .inr ⟨_, rfl⟩
    rw [WorldM.wait_apply]
    rcases hnever (earlier none run.world.patience) with hw | ⟨t, hw⟩ <;> rw [hw]
    · exact ⟨run.world.now, rfl⟩
    · exact ⟨t, rfl⟩
  obtain ⟨t, hwait⟩ := hwait
  refine ⟨t, ?_⟩
  have htake : takeLock run = (.error .abandoned, { run with world := { run.world with now := t } }) := by
    unfold takeLock
    rw [Op.bind_of_ok (Op.get_apply run)]
    simp only [h, if_true]
    exact Op.bind_of_error (by rw [inWorld_apply, hwait]) _
  unfold underLock
  exact Op.bind_of_error htake _

/-- A recovery is refused, or it is done under the lock. -/
theorem recover_apply (server : Server σ) (attempts : Nat) (run : ConnectionRun σ) :
    recover server attempts run = match run.connection.refusal? with
      | some e => (.error (.failed e), run)
      | none => underLock (relogins server attempts run.connection.session.state run.connection.config.retry.recoveries)
          run := by
  unfold recover Connection.refusal?
  rw [Op.bind_of_ok (Op.get_apply run)]
  dsimp only
  split
  · rfl
  split <;> rfl

/-- A recovery is refused, or it waits for the lock in vain, or its logins decide. -/
theorem recover_cases {res : Except Stop Unit} (h : recover server attempts run = (res, run')) :
    (∃ e, run.connection.refusal? = some e ∧ res = .error (.failed e) ∧ run' = run) ∨
    (run.connection.shared.lock.held = true ∧ res = .error .abandoned ∧
      ∃ t, run' = { run with world := { run.world with now := t } }) ∨
    run.connection.refusal? = none ∧ ∃ after,
      relogins server attempts run.connection.session.state run.connection.config.retry.recoveries
        (run.withLock run.connection.shared.lock.taken) = (res, after) ∧ run' = after.withLock .freed := by
  rw [recover_apply] at h
  rcases hrefusal : run.connection.refusal? with _ | e <;> rw [hrefusal] at h
  · rcases hheld : run.connection.shared.lock.held with _ | _ <;> dsimp only at h
    · rw [underLock_of_free _ hheld] at h
      cases h
      exact .inr (.inr ⟨rfl, _, rfl, rfl⟩)
    · obtain ⟨t, hwaits⟩ := underLock_of_held
        (relogins server attempts run.connection.session.state run.connection.config.retry.recoveries) hheld
      rw [hwaits] at h
      cases h
      exact .inr (.inl ⟨rfl, rfl, t, rfl⟩)
  · cases h
    exact .inl ⟨e, rfl, rfl, rfl⟩

end ConnectionM

/-- If a recovery fails, the session is as it was. However it ends, the lock is free after it, unless the recovery was
refused before it took the lock or waits for it in vain; then nothing about the connection has changed. And it has
made at most as many logins as the options say, another one only after a pause and after one that had failed in a way
that may pass, all with the same request to carry over the session as it was when the recovery began. -/
theorem recover_all_or_nothing {server : Server σ} {attempts : Nat} {run run' : ConnectionRun σ} {res : Except Stop Unit}
    (h : ConnectionM.recover server attempts run = (res, run')) :
    (∀ e, res = .error (.failed e) → run'.connection.session = run.connection.session) ∧
    (run'.connection.shared.lock = .freed ∨
      run'.connection = run.connection ∧
        ((∃ e, run.connection.refusal? = some e ∧ res = .error (.failed e)) ∨
          run.connection.shared.lock.held = true ∧ res = .error .abandoned)) ∧
    ∃ added, run'.world.trace = added ++ run.world.trace ∧
      Relogins run.connection.config.retry.recoveryPause run.connection.session.state.recoveryRequest.write
        run.connection.config.retry.recoveries added := by
  refine ⟨fun e he => ?_, ?_⟩
  · subst he
    exact (ConnectionM.recover_keeps h).session
  rw [ConnectionM.recover_apply] at h
  rcases hrefusal : run.connection.refusal? with _ | e <;> rw [hrefusal] at h
  · rcases hheld : run.connection.shared.lock.held with _ | _
    · dsimp only at h
      rw [ConnectionM.underLock_of_free _ hheld] at h
      rcases hend : ConnectionM.relogins server attempts run.connection.session.state
        run.connection.config.retry.recoveries (run.withLock run.connection.shared.lock.taken) with ⟨res', after⟩
      rw [hend] at h
      cases h
      obtain ⟨added, htrace, hrelogins⟩ := ConnectionM.relogins_trace hend
      exact ⟨.inl rfl, added, htrace, hrelogins⟩
    · obtain ⟨t, hwaits⟩ := ConnectionM.underLock_of_held
        (ConnectionM.relogins server attempts run.connection.session.state run.connection.config.retry.recoveries) hheld
      dsimp only at h
      rw [hwaits] at h
      cases h
      exact ⟨.inr ⟨rfl, .inr ⟨rfl, rfl⟩⟩, [], rfl, .nil⟩
  · cases h
    exact ⟨.inr ⟨rfl, .inl ⟨e, rfl, rfl⟩⟩, [], rfl, .nil⟩

/-- A connection that is recovered by two logins at most, and whose session has changed a slot. -/
def brokenConnection : Connection :=
  { lostConnection with
    config := { server := .ofHost "primary", retry := { recoveries := 2 } }
    shared := {}
    session :=
      { lostConnection.session with
        state := ((SessionState.new.setDatabase "master").rebase.apply ⟨1, true, [⟨5, [7]⟩]⟩) } }

/-- A server that does not answer at first, and then carries the session over. -/
def slowRun : ConnectionRun LoginScript where
  world := { server := { queue := [.hang], fallback := .success [.recoveryAck []] } }
  connection := brokenConnection

/-- The second login recovers the session. -/
theorem slowRun_recovered :
    (ConnectionM.recover (LineFaults.server {}) 20 slowRun).1 = .ok () ∧
      (ConnectionM.recover (LineFaults.server {}) 20 slowRun).2.connection.shared.lock = .freed ∧
      logins (ConnectionM.recover (LineFaults.server {}) 20 slowRun).2.world.trace = 2 ∧
      Relogins (Span.ofSeconds 10) slowRun.connection.session.state.recoveryRequest.write 2
        (ConnectionM.recover (LineFaults.server {}) 20 slowRun).2.world.trace := by
  have hok : (ConnectionM.recover (LineFaults.server {}) 20 slowRun).1 = .ok () := by decide +kernel
  have htwo : logins (ConnectionM.recover (LineFaults.server {}) 20 slowRun).2.world.trace = 2 := by decide +kernel
  rcases hend : ConnectionM.recover (LineFaults.server {}) 20 slowRun with ⟨res, run'⟩
  rw [hend] at hok htwo
  obtain ⟨-, hlock, added, htrace, hrelogins⟩ := recover_all_or_nothing hend
  rw [show slowRun.world.trace = [] from rfl, List.append_nil] at htrace
  rw [← htrace] at hrelogins
  dsimp only at hok htwo ⊢
  refine ⟨hok, ?_, htwo, hrelogins⟩
  rcases hlock with hfreed | ⟨-, ⟨e, -, he⟩ | ⟨-, hstop⟩⟩
  · exact hfreed
  · rw [hok] at he
    cases he
  · rw [hok] at hstop
    cases hstop

end TdsSession
