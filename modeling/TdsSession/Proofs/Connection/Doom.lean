import TdsSession.Connection.Connection
import TdsSession.Proofs.Login.History
import TdsSession.Proofs.Login.Rejection

/-!
# Connections that cannot be used any more

A connection is doomed when a login of it fails because the server broke the
protocol, and it gets another chance when a login starts its budget anew with a
token at hand. The flag is shared by all who write it, and the trace tells what
it is (`doomAfter`): a recovery that fails leaves a doomed connection as it was,
unless one of its logins has renewed its budget (`recover_dooms`).
-/

namespace TdsSession

open Op (Ends Keeps Stops)

variable {σ : Type}

/-! ## The flag and the trace -/

/-- Whether a connection is doomed after events, newest first, if it was doomed or not before them. -/
def doomAfter (before : Bool) : List (Moment × Event) → Bool
  | [] => before
  | (_, .restarted) :: _ => false
  | (_, .ended (.failed e)) :: earlier => doomAfter before earlier || e.dooms
  | _ :: earlier => doomAfter before earlier

/-- An event that leaves the flag alone. -/
def Event.keepsDoom : Event → Prop
  | .restarted | .ended (.failed _) => False
  | _ => True

theorem doomAfter_cons {e : Moment × Event} (h : e.2.keepsDoom) (before : Bool) (earlier : List (Moment × Event)) :
    doomAfter before (e :: earlier) = doomAfter before earlier := by
  obtain ⟨t, e⟩ := e
  cases e with
  | restarted => exact h.elim
  | ended outcome =>
    cases outcome with
    | succeeded onPartner => rfl
    | failed e => exact h.elim
  | _ => rfl

theorem doomAfter_append (before : Bool) (later earlier : List (Moment × Event)) :
    doomAfter before (later ++ earlier) = doomAfter (doomAfter before earlier) later := by
  induction later with
  | nil => rfl
  | cons e later ih =>
    rw [List.cons_append]
    by_cases h : e.2.keepsDoom
    · rw [doomAfter_cons h, doomAfter_cons h, ih]
    obtain ⟨t, e⟩ := e
    cases e with
    | restarted => rfl
    | ended outcome =>
      cases outcome with
      | succeeded onPartner => exact absurd trivial h
      | failed e => exact congrArg (· || e.dooms) ih
    | _ => exact absurd trivial h

/-- Only a renewal of a budget gives a doomed connection another chance. -/
theorem doomAfter_of_not_restarted {events : List (Moment × Event)} (h : ∀ e ∈ events, e.2 ≠ .restarted) :
    doomAfter true events = true := by
  induction events with
  | nil => rfl
  | cons e earlier ih =>
    obtain ⟨hfirst, hearlier⟩ := List.forall_mem_cons.mp h
    have hrest := ih hearlier
    by_cases hkeeps : e.2.keepsDoom
    · rw [doomAfter_cons hkeeps, hrest]
    obtain ⟨t, e⟩ := e
    cases e with
    | restarted => exact absurd rfl hfirst
    | ended outcome =>
      cases outcome with
      | succeeded onPartner => exact absurd trivial hkeeps
      | failed e => exact Bool.or_eq_true_iff.mpr (.inl hrest)
    | _ => exact absurd trivial hkeeps

/-- While a trace has grown from `old` to `new`, the flag has become `after` from `before` as the events say. -/
def DoomsBy (before : Bool) (old : List (Moment × Event)) (after : Bool) (new : List (Moment × Event)) : Prop :=
  ∃ added, new = added ++ old ∧ after = doomAfter before added

namespace DoomsBy

variable {before mid after : Bool} {old between new : List (Moment × Event)}

theorem refl (before : Bool) (old : List (Moment × Event)) : DoomsBy before old before old := ⟨[], rfl, rfl⟩

theorem trans (h₁ : DoomsBy before old mid between) (h₂ : DoomsBy mid between after new) :
    DoomsBy before old after new := by
  obtain ⟨first, rfl, rfl⟩ := h₁
  obtain ⟨second, rfl, rfl⟩ := h₂
  exact ⟨second ++ first, (List.append_assoc ..).symm, (doomAfter_append before second first).symm⟩

theorem of_grows (h : Grows Event.keepsDoom old new) (before : Bool) : DoomsBy before old before new := by
  obtain ⟨added, rfl, hadded⟩ := h
  refine ⟨added, rfl, ?_⟩
  induction added with
  | nil => rfl
  | cons e added ih =>
    obtain ⟨hfirst, hrest⟩ := List.forall_mem_cons.mp hadded
    rw [doomAfter_cons hfirst]
    exact ih hrest

theorem failed (t : Moment) (e : Error) (before : Bool) (old : List (Moment × Event)) :
    DoomsBy before old (before || e.dooms) ((t, .ended (.failed e)) :: old) := ⟨[_], rfl, rfl⟩

/-- A conflict about the partner dooms nothing. -/
theorem conflict (t : Moment) (reason : String) (before : Bool) (old : List (Moment × Event)) :
    DoomsBy before old before ((t, .ended (.failed (.invalidPartnerConfiguration reason))) :: old) :=
  ⟨[_], rfl, (Bool.or_false before).symm⟩

theorem restarted (t : Moment) (before : Bool) (old : List (Moment × Event)) :
    DoomsBy before old false ((t, .restarted) :: old) := ⟨[_], rfl, rfl⟩

end DoomsBy

/-! ## One login -/

/-- From `run` to `run'`, the flag has changed as the trace says. -/
def LoginRun.Tracks (run run' : LoginRun σ) : Prop :=
  DoomsBy run.doomed run.world.trace run'.doomed run'.world.trace

instance : IsPreorder (LoginRun σ) LoginRun.Tracks where
  refl run := .refl run.doomed run.world.trace
  trans _ _ _ := .trans

theorem Event.over.keepsDoom {n : Nat} {e : Event} (h : e.over n) : e.keepsDoom := by
  rcases h with h | rfl
  · cases e <;> trivial
  · trivial

theorem Event.ofClosing.keepsDoom {e : Event} (h : e.ofClosing) : e.keepsDoom := by
  cases e <;> trivial

namespace LoginM

variable {x : LoginContext σ} {plan : LoginPlan} {run mid : LoginRun σ}

theorem roundAttempt_tracks (x : LoginContext σ) (plan : LoginPlan) :
    Keeps LoginRun.Tracks (roundAttempt x plan : LoginM σ RoundEnd) := by
  intro run
  rcases ha : roundAttempt x plan run with ⟨res, mid⟩
  unfold LoginRun.Tracks
  rw [(RoundFrame.roundAttempt ha).doomed]
  refine .of_grows ?_ run.doomed
  rcases roundAttempt_connects ha with ⟨hsame, -⟩ | ⟨target, timeout, -, hconnects⟩
  · rw [hsame]
    exact .refl _
  · exact (Grows.cons trivial _).trans (hconnects.trace.mono fun _ => Event.over.keepsDoom)

theorem settle_tracks (x : LoginContext σ) (plan : LoginPlan) (ended : RoundEnd) :
    Keeps LoginRun.Tracks (settle x plan ended) := by
  intro mid
  have hfollows := settle_follows x plan ended mid
  generalize (settle x plan ended mid).2 = run' at hfollows
  cases hfollows with
  | atOnce => exact .refl _ _
  | renewed e he => exact .restarted _ _ _
  | slept span t hs ht hspan => exact .of_grows (.cons trivial _) _

end LoginM

/-- After a login the connection is doomed as its trace says. -/
theorem login_tracks (server : Server σ) (attempts : Nat) (s : LoginStart) (w : World σ) :
    DoomsBy s.doomed w.trace (login server attempts s w).2.doomed (login server attempts s w).2.world.trace := by
  have hbegun : DoomsBy s.doomed w.trace (s.begun w).doomed (s.begun w).world.trace :=
    .of_grows (.cons trivial _) s.doomed
  refine hbegun.trans ?_
  rcases hx : s.config.partnersConflict with _ | _
  · have hrounds := LoginM.allRounds_keeps (LoginM.roundAttempt_tracks (s.context server))
      (LoginM.settle_tracks (s.context server)) attempts (s.begun w)
    rcases hend : LoginM.allRounds (s.context server) attempts (s.begun w) with ⟨t | e, run'⟩ <;>
      rw [hend] at hrounds
    · by_cases ht : ∃ e, t = .failed e
      · obtain ⟨e, rfl⟩ := ht
        rw [LoginStart.login_of_rounds_failed hx hend]
        exact hrounds.trans (.failed _ e _ _)
      · rw [LoginStart.login_of_rounds_stopped (fun e he => ht ⟨e, he⟩) hx hend]
        exact hrounds
    · rw [LoginStart.login_apply, LoginM.establish_of_ok (x := s.context server) hx hend]
      refine hrounds.trans ?_
      rcases hconflict : e.partnerConflict? (s.context server).config with _ | conflict
      · exact .of_grows (.cons trivial _) _
      obtain ⟨t, w', hrefuse, ht, hclosing⟩ := LoginM.refuse_apply e conflict run'
      have hclosed : DoomsBy run'.doomed run'.world.trace run'.doomed w'.trace :=
        .of_grows (hclosing.mono fun _ => Event.ofClosing.keepsDoom) _
      dsimp only
      rw [hrefuse]
      cases t with
      | failed e' =>
        obtain ⟨reason, rfl⟩ := Established.eq_of_partnerConflict? hconflict
        obtain rfl := ht e' rfl
        exact hclosed.trans (.conflict _ reason _ _)
      | cut => exact hclosed
      | abandoned => exact hclosed
      | overflow => exact hclosed
      | exhausted => exact hclosed
  · rw [LoginStart.login_apply]
    unfold LoginM.establish
    simp only [show (s.context server).config.partnersConflict = true from hx, if_true]
    exact .conflict _ partnerConfiguredReason _ _

/-! ## Recovering -/

/-- From `run` to `run'`, no session has been replaced, and the flag has changed as the trace says. -/
structure ConnectionRun.Keeps (run run' : ConnectionRun σ) : Prop where
  session : run'.connection.session = run.connection.session
  doomed : DoomsBy run.connection.shared.doomed run.world.trace run'.connection.shared.doomed run'.world.trace

instance : IsPreorder (ConnectionRun σ) ConnectionRun.Keeps where
  refl _ := ⟨rfl, .refl _ _⟩
  trans _ _ _ h₁ h₂ := ⟨h₂.session.trans h₁.session, h₁.doomed.trans h₂.doomed⟩

namespace WorldM

theorem sleep_other (span : Span) : Stops (fun _ => True) Stop.IsOther (sleep span : WorldM σ Unit) :=
  (Ends.modify fun _ _ => trivial).bind fun _ _ => wait_other _ _

end WorldM

namespace ConnectionM

variable {server : Server σ} {attempts : Nat} {run run' : ConnectionRun σ} {e : Error}

theorem attempted_apply {α : Type} (m : ConnectionM σ α) (run : ConnectionRun σ) :
    attempted m run = match m run with
      | (.ok a, run') => (.ok (.ok a), run')
      | (.error (.failed e), run') => (.ok (.error e), run')
      | (.error s, run') => (.error s, run') := by
  unfold attempted
  rw [Op.tryCatch_apply, Op.map_apply]
  rcases m run with ⟨s | a, run'⟩
  · cases s <;> rfl
  · rfl

/-- Logging in anew replaces no session by itself. -/
theorem relogin_keeps (server : Server σ) (attempts : Nat) (previous : SessionState) :
    Keeps ConnectionRun.Keeps (relogin server attempts previous) := fun run =>
  ⟨rfl, login_tracks server attempts
    { config := run.connection.config
      previous := some previous
      group := run.connection.group
      doomed := run.connection.shared.doomed }
    run.world⟩

theorem inWorld_keeps {α : Type} {m : WorldM σ α} {deadline : Option Moment}
    (h : Keeps (Relation.ReflTransGen (WorldStep Event.keepsDoom deadline)) m) :
    Keeps ConnectionRun.Keeps (inWorld m) := fun run =>
  ⟨rfl, .of_grows (WorldStep.grows (h run.world)) _⟩

theorem inWorld_other {m : WorldM σ Unit} (h : Stops (fun _ => True) Stop.IsOther m) :
    Stops (fun _ => True) Stop.IsOther (inWorld m : ConnectionM σ Unit) := fun run _ => h run.world trivial

/-- Taking the lock changes nothing else, and does not fail. -/
theorem takeLock_keeps : Keeps ConnectionRun.Keeps (takeLock : ConnectionM σ Unit) := by
  unfold takeLock
  have hshare : Keeps ConnectionRun.Keeps
      (share fun s => { s with lock := s.lock.taken } : ConnectionM σ Unit) := fun run => ⟨rfl, .refl _ _⟩
  refine Keeps.get.bind fun run => ?_
  dsimp only
  split
  · exact (inWorld_keeps (WorldM.wait_keeps none)).bind fun _ => hshare
  · exact hshare

theorem takeLock_other : Stops (fun _ => True) Stop.IsOther (takeLock : ConnectionM σ Unit) := by
  unfold takeLock
  refine Ends.get.bind fun run _ => ?_
  dsimp only
  split
  · exact (inWorld_other (WorldM.wait_other none none)).bind fun _ _ => Ends.modify fun _ _ => trivial
  · exact Ends.modify fun _ _ => trivial

/-- An operation under the lock fails as it does without. -/
theorem underLock_eq_failed {α : Type} {m : ConnectionM σ α} (h : underLock m run = (.error (.failed e), run')) :
    ∃ mid after, run.Keeps mid ∧ m mid = (.error (.failed e), after) ∧ after.Keeps run' := by
  unfold underLock at h
  rcases Op.bind_cases h with ⟨s, hs, hfailed⟩ | ⟨⟨⟩, mid, htake, h⟩
  · cases hfailed
    exact absurd rfl (takeLock_other.reason trivial hs e)
  have hmid : run.Keeps mid := takeLock_keeps.of_eq htake
  rw [Op.bind_apply, Op.tryCatch_apply] at h
  rcases hm : m mid with ⟨s | a, after⟩ <;> rw [hm] at h <;> cases h
  exact ⟨mid, after, hmid, hm, rfl, .refl _ _⟩

/-- A session that is put in the place of another stays there. -/
theorem resume_other (session : Established) :
    Stops (fun _ => True) Stop.IsOther (resume session : ConnectionM σ Unit) := by
  unfold resume
  refine Ends.get.bind fun run _ => ?_
  dsimp only
  refine (Ends.modify fun _ _ => trivial).bind fun _ _ => ?_
  exact (inWorld_other (WorldM.discard_other _ none)).bind fun _ _ => Ends.modify fun _ _ => trivial

/-- Logins that all fail replace no session. -/
theorem relogins_keeps {previous : SessionState} {left : Nat}
    (h : relogins server attempts previous left run = (.error (.failed e), run')) : run.Keeps run' := by
  induction left generalizing run with
  | zero =>
    cases h
    exact refl_of _ _
  | succ left ih =>
    rw [relogins, Op.bind_apply, attempted_apply] at h
    have hkeeps := relogin_keeps server attempts previous run
    rcases hlogin : relogin server attempts previous run with ⟨t | session, mid⟩ <;> rw [hlogin] at h hkeeps
    · cases t with
      | failed e' =>
        dsimp only at h
        split at h
        · cases h
          exact hkeeps
        rw [Op.bind_of_ok (Op.get_apply mid)] at h
        have hpause : Keeps ConnectionRun.Keeps
            (inWorld (WorldM.sleep mid.connection.config.retry.recoveryPause) : ConnectionM σ Unit) :=
          inWorld_keeps ((WorldM.note_keeps trivial).bind fun _ => WorldM.wait_keeps _)
        rcases Op.bind_cases h with ⟨s, hs, hfailed⟩ | ⟨⟨⟩, later, hslept, h⟩
        · cases hfailed
          exact absurd rfl ((inWorld_other (WorldM.sleep_other _)).reason trivial hs e)
        · exact trans_of _ hkeeps (trans_of _ (hpause.of_eq hslept) (ih h))
      | cut => cases h
      | abandoned => cases h
      | overflow => cases h
      | exhausted => cases h
    · exact absurd rfl ((resume_other session).reason trivial h e)

/-- A recovery that fails leaves the session in its place, and the flag as its trace says. -/
theorem recover_keeps (h : recover server attempts run = (.error (.failed e), run')) : run.Keeps run' := by
  unfold recover at h
  rw [Op.bind_of_ok (Op.get_apply run)] at h
  dsimp only at h
  split at h
  · cases h
    exact refl_of _ _
  split at h
  · cases h
    exact refl_of _ _
  obtain ⟨mid, after, htaken, hrelogins, hfreed⟩ := underLock_eq_failed h
  exact trans_of _ htaken (trans_of _ (relogins_keeps hrelogins) hfreed)

end ConnectionM

/-- A session takes no request while its connection is doomed. -/
theorem Session.obstacle_of_doomed (s : Session) {shared : Shared} (h : shared.doomed = true) (wire : WireReport) :
    (s.obstacle? (some shared) wire).isSome = true := by
  unfold obstacle?
  dsimp only
  rw [h]
  split
  · rfl
  · rfl

/-- A recovery that fails leaves the broken session in its place, and the connection is doomed after it as its
trace says: as before, but for a login in it that has renewed its budget with a token at hand, which gives the
connection another chance, and for one that has failed because the server broke the protocol. So a connection
that was doomed before still is, and takes no request, unless a login has renewed its budget. -/
theorem recover_dooms {server : Server σ} {attempts : Nat} {run run' : ConnectionRun σ} {e : Error}
    (h : ConnectionM.recover server attempts run = (.error (.failed e), run')) :
    run'.connection.session = run.connection.session ∧
    ∃ added, run'.world.trace = added ++ run.world.trace ∧
      run'.connection.shared.doomed = doomAfter run.connection.shared.doomed added ∧
      (run.connection.shared.doomed = true → (∀ e ∈ added, e.2 ≠ .restarted) →
        run'.connection.shared.doomed = true ∧
          ∀ wire, (run'.connection.session.obstacle? (some run'.connection.shared) wire).isSome = true) := by
  obtain ⟨hsession, added, htrace, hdoomed⟩ := ConnectionM.recover_keeps h
  refine ⟨hsession, added, htrace, hdoomed, fun hbefore hnone => ?_⟩
  have hafter : run'.connection.shared.doomed = true := by
    rw [hdoomed, hbefore]
    exact doomAfter_of_not_restarted hnone
  exact ⟨hafter, run'.connection.session.obstacle_of_doomed hafter⟩

/-- The failure that an operation has ended with. -/
def failure? {α : Type} : Except Stop α → Option Error
  | .error (.failed e) => some e
  | _ => none

/-- A connection for a federated login that the server has broken off. -/
def lostConnection : Connection where
  config := federatedLogin.config
  shared := { doomed := true }
  session :=
    { transport := { number := 1, line := LineFaults.line {} 1 [] false }
      target := .ofTarget federatedLogin.config (.ofHost "primary") (.ofHost "primary")
      capabilities := .empty federatedLogin.config.loginFeatures
      state := .new
      packetSize := federatedLogin.config.packetSize
      mars := false
      partner := none
      userInstance := none
      events := [] }
  group := {}
  attempts := []

/-- A server that rejects every login. -/
def forbiddingRun : ConnectionRun LoginScript where
  world :=
    { server := { fallback := .serverError 18456 14 "login failed" }
      providers := busyWorld.providers }
  connection := lostConnection

/-- Without a token the connection stays as it was. -/
theorem lostConnection_doomed :
    failure? (ConnectionM.recover (LineFaults.server {}) 2 forbiddingRun).1 = some (.ofMessage loginFailed) ∧
      (ConnectionM.recover (LineFaults.server {}) 2 forbiddingRun).2.connection.shared.doomed = true ∧
      ∀ wire,
        ((ConnectionM.recover (LineFaults.server {}) 2 forbiddingRun).2.connection.session.obstacle?
          (some (ConnectionM.recover (LineFaults.server {}) 2 forbiddingRun).2.connection.shared) wire).isSome =
            true := by
  have hfailed : failure? (ConnectionM.recover (LineFaults.server {}) 2 forbiddingRun).1 =
      some (.ofMessage loginFailed) := by
    decide +kernel
  have hnone :
      ∀ e ∈ (ConnectionM.recover (LineFaults.server {}) 2 forbiddingRun).2.world.trace, e.2 ≠ .restarted := by
    decide +kernel
  refine ⟨hfailed, ?_⟩
  rcases hend : ConnectionM.recover (LineFaults.server {}) 2 forbiddingRun with ⟨t | ⟨⟩, run'⟩ <;>
    rw [hend] at hfailed hnone
  · cases t with
    | failed e =>
      obtain ⟨-, added, htrace, -, hdoomed⟩ := recover_dooms hend
      rw [htrace] at hnone
      exact hdoomed rfl fun e he => hnone e (List.mem_append_left _ he)
    | cut => cases hfailed
    | abandoned => cases hfailed
    | overflow => cases hfailed
    | exhausted => cases hfailed
  · cases hfailed

/-! ## A connection that gets another chance and fails -/

/-- A server that asks for a token and falls silent, and rejects the login that follows. -/
def stallingRun : ConnectionRun LoginScript where
  world :=
    { server :=
        { queue := [.respond [.fedAuthInfo ⟨"https://sts", "sql"⟩] true]
          fallback := forbiddingRun.world.server.fallback }
      providers := busyWorld.providers }
  connection := lostConnection

/-- The first attempt runs out of time with a token at hand, and that clears the flag. The second is rejected, and
the recovery fails, but nothing keeps the broken session from a request any more. -/
theorem doom_forgotten :
    stallingRun.connection.shared.doomed = true ∧
      failure? (ConnectionM.recover (LineFaults.server {}) 2 stallingRun).1 = some (.ofMessage loginFailed) ∧
      (ConnectionM.recover (LineFaults.server {}) 2 stallingRun).2.connection.shared.doomed = false ∧
      (ConnectionM.recover (LineFaults.server {}) 2 stallingRun).2.connection.session.obstacle?
        (some (ConnectionM.recover (LineFaults.server {}) 2 stallingRun).2.connection.shared) {} = none := by
  refine ⟨rfl, ?_, ?_, ?_⟩ <;> decide +kernel

end TdsSession
