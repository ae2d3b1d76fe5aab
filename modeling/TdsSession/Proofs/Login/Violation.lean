import TdsSession.Proofs.Login.Duration
import TdsSession.Proofs.Login.Heard
import TdsSession.Proofs.Login.Partner

/-!
# Servers that break the protocol

A record with which something is wrong ends the login at once, whatever the
plan and however much time is left (`LoginStart.login_of_fault`). A login that
fails in this way leaves its connection unusable, and so does one whose server
has left out what it must say; no other login does (`doomed_iff_violation`).
-/

namespace TdsSession

open Op (Keeps)

variable {σ : Type}

/-! ## The end of the login -/

/-- A provider will issue the token. -/
def Credentials.areProvided : Credentials → Bool
  | .federated .. => true
  | _ => false

theorem AttemptPlan.isSome_provided (p : AttemptPlan) : p.provided.isSome = p.config.credentials.areProvided := by
  unfold provided
  rcases p.config.credentials with _ | _ | _ <;> rfl

/-- What is wrong with a record for the client that logs in. -/
def LoginStart.fault? (s : LoginStart) (record : Record) : Option ProtocolError :=
  record.fault? s.config.loginFeatures s.config.credentials.areProvided

namespace Error

/-- A broken protocol is no matter of time, and does not pass. -/
theorem final_of_protocol (e : ProtocolError) :
    (Error.protocol e).isTimeout = false ∧ (Error.protocol e).isTransient = false := by
  refine ⟨rfl, ?_⟩
  unfold isTransient kind
  dsimp only
  split
  · rfl
  split <;> rfl

theorem dooms_iff {e : Error} :
    e.dooms = true ↔ e.kind ∈ [.protocolViolation, .invalidVersion, .invalidRoutingInfo] := by
  unfold dooms
  rcases e.kind <;> decide

theorem dooms_protocol (e : ProtocolError) : (Error.protocol e).dooms = true := by
  unfold dooms kind
  dsimp only
  split
  · rfl
  split <;> rfl

/-- What may pass, and what has taken too long, leaves the connection usable. -/
theorem not_dooms {e : Error} (h : e.isTransient = true ∨ e.isTimeout = true ∨ e.kind = .timeoutExpired) :
    e.dooms = false := by
  unfold dooms
  rcases h with htransient | htimeout | hkind
  · unfold isTransient at htransient
    rcases hkind : e.kind <;> rw [hkind] at htransient <;> first | rfl | cases htransient
  · cases e with
    | server number severity state text server =>
      unfold kind
      dsimp only
      split
      · rfl
      split <;> rfl
    | authentication e =>
      unfold kind
      dsimp only
      split <;> rfl
    | connectTimeout host => rfl
    | _ => cases htimeout
  · rw [hkind]
    rfl

end Error

namespace LoginStart

variable {s : LoginStart} {server : Server σ} {attempts : Nat} {w : World σ}

/-- A record with which something is wrong is the last thing that happens in a login, but for its end. -/
theorem login_of_fault {t : Moment} {n : Nat} {record : Record} {older : List (Moment × Event)} {e : ProtocolError}
    (h : (t, .received n record) :: older <:+ (login server attempts s w).2.world.trace) (hnew : w.trace <:+ older)
    (hfault : s.fault? record = some e) :
    (login server attempts s w).1 = .error (.failed (.protocol e)) ∧
      (login server attempts s w).2.world.trace =
        (t, .ended (.failed (.protocol e))) :: (t, .received n record) :: older := by
  obtain ⟨r, hr, target, timeout, res, after, added, earlier, ha, htrace, hheard, hearlier, rfl⟩ :=
    heard_of_event (by rintro ⟨⟩) (by rintro ⟨⟩) (by rintro ⟨⟩) rfl h hnew
  have hfault : ((s.context server).attempt target timeout r.run.world.now).fault? record = some e := by
    unfold AttemptPlan.fault?
    rw [AttemptPlan.isSome_provided]
    exact hfault
  obtain ⟨rfl, rfl, hnow⟩ := hheard.of_fault hearlier hfault
  obtain ⟨htimeout, htransient⟩ := Error.final_of_protocol e
  rw [login_of_failed hr (LoginM.round_of_final ha htimeout htransient)]
  refine ⟨rfl, ?_⟩
  show (after.world.now, _) :: after.world.trace = _
  rw [htrace, hnow]
  rfl

end LoginStart

/-! ## The connection after a login -/

/-- From `run` to `run'`, a connection that can be used stays so. -/
def LoginRun.StaysUsable (run run' : LoginRun σ) : Prop := run.doomed = false → run'.doomed = false

instance : IsPreorder (LoginRun σ) LoginRun.StaysUsable where
  refl _ := id
  trans _ _ _ h₁ h₂ := h₂ ∘ h₁

namespace LoginM

theorem roundAttempt_staysUsable (x : LoginContext σ) (plan : LoginPlan) :
    Keeps LoginRun.StaysUsable (roundAttempt x plan : LoginM σ RoundEnd) := by
  intro run hrun
  rcases ha : roundAttempt x plan run with ⟨res, mid⟩
  exact (RoundFrame.roundAttempt ha).doomed.trans hrun

theorem settle_staysUsable (x : LoginContext σ) (plan : LoginPlan) (ended : RoundEnd) :
    Keeps LoginRun.StaysUsable (settle x plan ended) := by
  intro mid hmid
  have hfollows := settle_follows x plan ended mid
  generalize (settle x plan ended mid).2 = run' at hfollows
  cases hfollows with
  | atOnce => exact hmid
  | renewed e he => rfl
  | slept span t hs ht hspan => exact hmid

end LoginM

/-- The failure of a login decides whether its connection can be used after it. -/
theorem LoginStart.doomed_of_login {server : Server σ} {attempts : Nat} {s : LoginStart} {w : World σ}
    (h : s.doomed = false) :
    (login server attempts s w).2.doomed = match (login server attempts s w).1 with
      | .error (.failed e) => e.dooms
      | _ => false := by
  rcases hx : s.config.partnersConflict with _ | _
  · have hrounds := LoginM.allRounds_keeps (LoginM.roundAttempt_staysUsable (s.context server))
      (LoginM.settle_staysUsable (s.context server)) attempts (s.begun w) h
    rcases hend : LoginM.allRounds (s.context server) attempts (s.begun w) with ⟨t | e, run'⟩ <;> rw [hend] at hrounds
    · by_cases ht : ∃ e, t = .failed e
      · obtain ⟨e, rfl⟩ := ht
        rw [login_of_rounds_failed hx hend]
        show (run'.doomed || e.dooms) = e.dooms
        rw [show run'.doomed = false from hrounds, Bool.false_or]
      · rw [login_of_rounds_stopped (fun e he => ht ⟨e, he⟩) hx hend]
        cases t with
        | failed e => exact absurd ⟨e, rfl⟩ ht
        | cut => exact hrounds
        | abandoned => exact hrounds
        | overflow => exact hrounds
        | exhausted => exact hrounds
    · rw [login_apply, LoginM.establish_of_ok (x := s.context server) hx hend]
      rcases hconflict : e.partnerConflict? (s.context server).config with _ | conflict
      · exact hrounds
      obtain ⟨t, w', hrefuse, ht, -⟩ := LoginM.refuse_apply e conflict run'
      dsimp only
      rw [hrefuse]
      cases t with
      | failed e' =>
        obtain ⟨reason, rfl⟩ := Established.eq_of_partnerConflict? hconflict
        obtain rfl := ht e' rfl
        exact hrounds
      | cut => exact hrounds
      | abandoned => exact hrounds
      | overflow => exact hrounds
      | exhausted => exact hrounds
  · rw [login_of_conflict server attempts w hx]
    exact h

/-- After a login on a connection that could be used, the connection is doomed exactly if the login has failed because
the server broke the protocol, in the protocol itself, in its version or in a redirect. So it ends, at once, with any
record with which something is wrong; and it is not doomed if the login has succeeded, or has failed with what may pass
or has taken too long. -/
theorem doomed_iff_violation {server : Server σ} {attempts : Nat} {s : LoginStart} {w : World σ}
    (h : s.doomed = false) :
    ((login server attempts s w).2.doomed = true ↔ ∃ e, (login server attempts s w).1 = .error (.failed e) ∧
      e.kind ∈ [.protocolViolation, .invalidVersion, .invalidRoutingInfo]) ∧
    (∀ t n record older e, (t, .received n record) :: older <:+ (login server attempts s w).2.world.trace →
      w.trace <:+ older → s.fault? record = some e →
      (login server attempts s w).1 = .error (.failed (.protocol e)) ∧
        (login server attempts s w).2.world.trace =
          (t, .ended (.failed (.protocol e))) :: (t, .received n record) :: older ∧
        (Error.protocol e).kind ∈ [.protocolViolation, .invalidVersion, .invalidRoutingInfo] ∧
        (login server attempts s w).2.doomed = true) ∧
    ((login server attempts s w).1.isOk → (login server attempts s w).2.doomed = false) ∧
    ∀ e, (login server attempts s w).1 = .error (.failed e) →
      e.isTransient = true ∨ e.isTimeout = true ∨ e.kind = .timeoutExpired →
      (login server attempts s w).2.doomed = false := by
  have hdoomed : (login server attempts s w).2.doomed = match (login server attempts s w).1 with
      | .error (.failed e) => e.dooms
      | _ => false := LoginStart.doomed_of_login h
  refine ⟨?_, fun t n record older e hreceived hnew hfault => ?_, fun hok => ?_, fun e he hpasses => ?_⟩
  · rw [hdoomed]
    constructor
    · intro hdooms
      split at hdooms
      · exact ⟨_, ‹_›, Error.dooms_iff.mp hdooms⟩
      · cases hdooms
    · rintro ⟨e, he, hkind⟩
      rw [he]
      exact Error.dooms_iff.mpr hkind
  · obtain ⟨hfailed, htrace⟩ := LoginStart.login_of_fault hreceived hnew hfault
    rw [hfailed] at hdoomed
    exact ⟨hfailed, htrace, Error.dooms_iff.mp (Error.dooms_protocol e), hdoomed.trans (Error.dooms_protocol e)⟩
  · rcases hlogin : (login server attempts s w).1 with t | e <;> rw [hlogin] at hok hdoomed
    · cases hok
    · exact hdoomed
  · rw [he] at hdoomed
    exact hdoomed.trans (Error.not_dooms hpasses)

/-- A redirect to no port. -/
def portlessRedirect : Record := .routing ⟨0, 0, "second", none⟩

/-- A server that is busy, and sends the next login on to no port; after that it would let everybody in. -/
def portlessWorld : World LoginScript where
  server :=
    { queue := [.serverError 40613 14 "busy", .success [portlessRedirect]]
      fallback := .success [] }

/-- The first attempt is repeated. The second ends the login, and leaves the connection unusable. -/
theorem portlessWorld_doomed :
    plainLogin.doomed = false ∧ plainLogin.fault? portlessRedirect = some (.invalidRouting .zeroPort) ∧
      ∃ t older, (t, .received 2 portlessRedirect) :: older <:+
          (login (LineFaults.server {}) 3 plainLogin portlessWorld).2.world.trace ∧
        (login (LineFaults.server {}) 3 plainLogin portlessWorld).1 =
          .error (.failed (.protocol (.invalidRouting .zeroPort))) ∧
        (login (LineFaults.server {}) 3 plainLogin portlessWorld).2.world.connects = 2 ∧
        (login (LineFaults.server {}) 3 plainLogin portlessWorld).2.doomed = true := by
  have hmem : (100000000, .received 2 portlessRedirect) ∈
      (login (LineFaults.server {}) 3 plainLogin portlessWorld).2.world.trace := by decide +kernel
  have hfault : plainLogin.fault? portlessRedirect = some (.invalidRouting .zeroPort) := by decide +kernel
  have hconnects : (login (LineFaults.server {}) 3 plainLogin portlessWorld).2.world.connects = 2 := by decide +kernel
  obtain ⟨later, older, htrace⟩ := List.append_of_mem hmem
  obtain ⟨-, hends, -⟩ := @doomed_iff_violation _ (LineFaults.server {}) 3 plainLogin portlessWorld rfl
  obtain ⟨hfailed, -, -, hdoomed⟩ := hends _ _ _ _ _ ⟨later, htrace.symm⟩ List.nil_suffix hfault
  exact ⟨rfl, hfault, _, older, ⟨later, htrace.symm⟩, hfailed, hconnects, hdoomed⟩

end TdsSession
