import TdsSession.Proofs.Address.SharedCache
import TdsSession.Proofs.Login.Isolation

/-!
# The session that a login opens

A login that succeeds has opened its session in one attempt, over one
transport. `LoginStart.opened_of_login` gives that attempt with all that its
session follows from (`LoginStart.OpenedIn`): the state that the attempt started
from, the answer to its handshake, and the records of its response.
-/

namespace TdsSession

open Op (Keeps)

variable {σ : Type}

/-- From `run` to `run'`, aliases have been looked up by the options `c`. -/
def LoginRun.LooksUp (c : Config) (run run' : LoginRun σ) : Prop := AliasCache.After c run.base.aliases run'.base.aliases

instance (c : Config) : IsPreorder (LoginRun σ) (LoginRun.LooksUp c) where
  refl _ := .refl _
  trans _ _ _ := .trans

/-- No alias that has been looked up is forgotten from `run` to `run'`. -/
def LoginRun.Remembers (run run' : LoginRun σ) : Prop := run'.base.aliases.Remembers run.base.aliases

namespace LoginM

variable {x : LoginContext σ} {plan : LoginPlan} {run mid : LoginRun σ} {r r' : RoundStart σ}

/-- The state that attempts start from is left alone by each of them. -/
theorem tryTarget_base {target : Target} {timeout : Option Span} {res : Except Stop RoundEnd}
    (h : tryTarget x target timeout run = (res, mid)) : mid.base = run.base := by
  have attempted {res : Except Stop AttemptEnd} {after : LoginRun σ}
      (hattempt : attempt x.server (x.attempt target timeout run.world.now) run = (res, after)) :
      after.base = run.base := by
    rcases attempt_frame hattempt with ⟨rfl, -⟩ | hframe
    · rfl
    · exact hframe.base
  cases res with
  | ok ended =>
    obtain ⟨res, after, last, hattempt, hleads, rfl⟩ := tryTarget_eq_ok h
    rw [← attempted hattempt]
    cases hleads <;> rfl
  | error s =>
    obtain ⟨res, hattempt, -⟩ := tryTarget_eq_error h
    exact attempted hattempt

theorem roundTarget_looksUp (x : LoginContext σ) (plan : LoginPlan) :
    Keeps (LoginRun.LooksUp x.config) (roundTarget x plan : LoginM σ Target) := by
  intro run
  rw [roundTarget_apply]
  rcases plan.route with _ | target
  · rcases plan.source x.config run.partner with e | source
    · exact refl_of _ _
    · simp only [resolve_apply]
      rcases h : Target.resolve x.config true run.base.aliases source with e | ⟨target, aliases⟩
      · exact refl_of _ _
      · exact .of_resolve h
  · exact refl_of _ _

theorem roundAttempt_looksUp (x : LoginContext σ) (plan : LoginPlan) :
    Keeps (LoginRun.LooksUp x.config) (roundAttempt x plan : LoginM σ RoundEnd) := by
  have htimeout : Keeps (LoginRun.LooksUp x.config) (roundTimeout x plan : LoginM σ (Option Span)) := by
    intro run
    rw [roundTimeout_snd]
    exact refl_of _ _
  have htry (target : Target) (timeout : Option Span) :
      Keeps (LoginRun.LooksUp x.config) (tryTarget x target timeout : LoginM σ RoundEnd) := by
    intro run
    rcases h : tryTarget x target timeout run with ⟨res, mid⟩
    unfold LoginRun.LooksUp
    rw [tryTarget_base h]
    exact .refl _
  refine Keeps.bind (fun run => refl_of (LoginRun.LooksUp x.config) run) fun _ => ?_
  exact (roundTarget_looksUp x plan).bind fun target => htimeout.bind fun timeout => htry target timeout

theorem roundAttempt_remembers (x : LoginContext σ) (plan : LoginPlan) :
    Keeps LoginRun.Remembers (roundAttempt x plan : LoginM σ RoundEnd) :=
  fun run => (roundAttempt_looksUp x plan run).remembers

/-- What follows an attempt leaves the state that attempts start from alone. -/
theorem base_of_before (h : r.Before x r') :
    ∃ ended mid, roundAttempt x r.plan r.run = (.ok ended, mid) ∧ r'.run.base = mid.base := by
  obtain ⟨ended, mid, ha, hc⟩ := before_cases h
  refine ⟨ended, mid, ha, ?_⟩
  generalize r.plan = plan, r'.plan = plan', r'.run = run' at hc
  cases hc <;> rfl

end LoginM

/-- The attempt from `run` to `mid` has opened the session `e`: after the answer `ack` to its handshake, its records
have come to the response `res`. -/
structure LoginStart.OpenedIn (s : LoginStart) (w : World σ) (run mid : LoginRun σ) (ack : HandshakeAnswer)
    (res : Response) (e : Established) : Prop where
  /-- The attempt is one of this login. -/
  trace : w.trace <:+ run.world.trace
  connects : ∃ target timeout, Connects run mid target timeout
  number : e.transport.number = run.world.connects + 1
  base : mid.base.bare = s.base
  aliases : mid.base.aliases.Remembers (s.run w).base.aliases
  answer : shown Event.answer? (sinceConnected mid.world.trace) = [ack]
  response : ((s.planFor e.target).firstResponse mid.base ack).advanceAll
    (received (sinceConnected mid.world.trace)) = .ok res
  state : e.state = res.session

namespace LoginStart

variable {s : LoginStart} {server : Server σ} {attempts : Nat} {w : World σ} {r : RoundStart σ} {run mid : LoginRun σ}
  {ack : HandshakeAnswer} {res : Response} {e : Established}

theorem suffix_of_mem_course (h : r ∈ s.course server attempts w) : w.trace <:+ r.run.world.trace := by
  refine course_induction (P := fun r => w.trace <:+ r.run.world.trace) (fun _ _ => List.suffix_cons ..)
    (fun r r' hr hbefore => ?_) h
  exact hr.trans (LoginM.round_suffix hbefore)

/-- The aliases of a round are what the login has begun with, and what has been looked up since. -/
theorem looksUp_of_mem_course (h : r ∈ s.course server attempts w) :
    AliasCache.After s.config (s.run w).base.aliases r.run.base.aliases := by
  refine course_induction (P := fun r => AliasCache.After s.config (s.run w).base.aliases r.run.base.aliases)
    (fun _ _ => .refl _) (fun r r' hr hbefore => ?_) h
  obtain ⟨ended, mid, ha, hbase⟩ := LoginM.base_of_before hbefore
  rw [hbase]
  exact hr.trans ((LoginM.roundAttempt_looksUp _ _).of_eq ha)

theorem remembers_of_mem_course (h : r ∈ s.course server attempts w) :
    r.run.base.aliases.Remembers (s.run w).base.aliases := (looksUp_of_mem_course h).remembers

/-- A login that succeeds has opened its session in the attempt of its last round. -/
theorem opened_in_course (h : (login server attempts s w).1 = .ok e) :
    ∃ r ∈ s.course server attempts w, ∃ mid ack res e₀,
      LoginM.roundAttempt (s.context server) r.plan r.run = (.ok (.opened e₀), mid) ∧ s.OpenedIn w r.run mid ack res e ∧
      (login server attempts s w).2.world.trace = (mid.world.now, .ended (.succeeded e.onPartner)) :: mid.world.trace := by
  obtain ⟨r, hr, run', hround, htrace⟩ := login_eq_ok h
  obtain ⟨e₀, onPartner, target, timeout, ha, rfl, hconnects⟩ := LoginM.round_eq_opened hround
  obtain ⟨aliases, res, after, -, hattempt, htry, -, -, hexchange⟩ := LoginM.roundAttempt_exchange ha hconnects
  have hbase := LoginM.tryTarget_base htry
  obtain ⟨res', after', last, hattempt', hleads, -⟩ := LoginM.tryTarget_eq_ok htry
  obtain ⟨rfl, rfl⟩ := Prod.mk.inj (hattempt.symm.trans hattempt')
  cases hleads
  cases hexchange with
  | concluded ack response t mid hack hhandshake hlogin hread hend ht hconclude =>
    obtain ⟨-, -, -, rfl⟩ := LoginM.conclude_eq_opened hconclude
    refine ⟨r, hr, run', ack, response, _, ha, ?_, htrace⟩
    exact {
      trace := suffix_of_mem_course hr
      connects := ⟨target, timeout, hconnects⟩
      number := ht.1
      base := by
        rw [hbase]
        exact base_of_mem_course hr
      aliases := (remembers_of_mem_course hr).trans ((LoginM.roundAttempt_remembers _ _).of_eq ha)
      answer := hack
      response := by
        rw [hbase]
        exact hread
      state := rfl }

theorem opened_of_login (h : (login server attempts s w).1 = .ok e) :
    ∃ run mid ack res, s.OpenedIn w run mid ack res e ∧
      (login server attempts s w).2.world.trace = (mid.world.now, .ended (.succeeded e.onPartner)) :: mid.world.trace := by
  obtain ⟨r, -, mid, ack, res, e₀, -, hopened, htrace⟩ := opened_in_course h
  exact ⟨r.run, mid, ack, res, hopened, htrace⟩

namespace OpenedIn

/-- What is said about the session has been received over its transport. -/
theorem received_over (h : s.OpenedIn w run mid ack res e) {record : Record}
    (hrecord : record ∈ received (sinceConnected mid.world.trace)) :
    ∃ t, (t, .received e.transport.number record) ∈ sinceConnected mid.world.trace := by
  obtain ⟨target, timeout, hconnects⟩ := h.connects
  obtain ⟨t, event, hevent, hshows⟩ := mem_shown.mp hrecord
  have hover := hconnects.over_of_mem_sinceConnected hevent
  cases event <;> cases hshows
  rename_i n
  obtain rfl : n = run.world.connects + 1 := hover.elim id nofun
  exact ⟨t, h.number ▸ hevent⟩

/-- What has happened over the transport of the session is part of this login. -/
theorem added (h : s.OpenedIn w run mid ack res e) :
    ∃ added, mid.world.trace = added ++ w.trace ∧ sinceConnected mid.world.trace ⊆ added := by
  obtain ⟨target, timeout, hconnects⟩ := h.connects
  obtain ⟨between, hbetween⟩ := h.trace
  refine ⟨sinceConnected mid.world.trace ++ (run.world.now, .connected (run.world.connects + 1) target timeout) :: between,
    ?_, fun e => List.mem_append_left _⟩
  rw [List.append_assoc, List.cons_append, hbetween]
  exact hconnects.trace_eq

end OpenedIn

end LoginStart

end TdsSession
