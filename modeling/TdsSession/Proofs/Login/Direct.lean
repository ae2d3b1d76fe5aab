import TdsSession.Proofs.Login.Clock
import TdsSession.Proofs.Login.Verdict

/-!
# Servers that speak for themselves

In its answer to a login a server may name a partner, send the login on, or ask
for a token. With a server that does none of these (`Server.Direct`) a login
knows of no partner and has got no token (`LoginRun.Alone`), no attempt is
redirected, and no session has a partner (`LoginM.roundAttempt_direct`). Then
no attempt asks the clock for more than its own time limit, either.
-/

namespace TdsSession

open Op (Ends Stops)

variable {σ : Type}

/-- The record names no partner, sends nobody on, and asks for no token. -/
structure Record.Direct (record : Record) : Prop where
  partner : record.partner? = none
  routing : record.routing? = none
  tokenRequest : record.tokenRequest? = none

/-- Whatever the server is asked for, all its records are direct. -/
def Server.Direct (server : Server σ) : Prop :=
  ∀ st n target timeout line, (server.connect st n target timeout).1.value = .ok line →
    ∀ record ∈ line.records, record.value.Direct

/-- Neither a partner nor a redirect has been read. -/
structure Response.Direct (r : Response) : Prop where
  partner : r.partner? = none
  routing : r.routing? = none

/-- No server has named a partner, and no token has been got. -/
structure LoginRun.Alone (run : LoginRun σ) : Prop where
  partner : run.partner = none
  token : run.tokenRetry = .notStarted

/-- The attempt has not been redirected, and if it has opened a session, that has no partner. -/
def AttemptEnd.Direct : AttemptEnd → Prop
  | .opened e => e.partner = none
  | .routed _ => False

def RoundEnd.Direct : RoundEnd → Prop
  | .opened e => e.partner = none
  | .routed _ => False
  | .failed _ => True

/-- Without a token the budget is not renewed. -/
theorem LoginRun.Alone.not_renews {run : LoginRun σ} (h : run.Alone) (e : Error) : ¬ run.Renews e :=
  fun hrenews => nomatch h.token.symm.trans hrenews.1

theorem Response.Direct.take {r : Response} {record : Record} {step : ResponseStep} (h : r.Direct)
    (hrecord : record.Direct) (htake : r.take record = .ok step) : (step.response r).Direct := by
  obtain ⟨hpartner, hrouting⟩ := named_of_take htake
  rw [hrecord.partner, h.partner] at hpartner
  rw [hrecord.routing, h.routing] at hrouting
  exact ⟨hpartner, hrouting⟩

/-! ## Attempts -/

theorem WorldM.connect_direct {server : Server σ} (h : server.Direct) (target : Target) (timeout : Option Span)
    (deadline : Option Moment) :
    Ends (fun _ => True) (fun t => ∀ record ∈ t.line.records, record.value.Direct) (· ≠ .overflow)
      (connect server target timeout deadline) := by
  refine Ends.get.bind fun w _ => ?_
  refine Op.ends_set_bind trivial ?_
  refine (wait_stops _ _).bind fun _ _ => ?_
  rcases hvalue : (server.connect w.server (w.connects + 1) target timeout).1.value with e | line
  · exact Ends.throw nofun
  · exact Ends.pure (h _ _ _ _ _ hvalue)

namespace LoginM

variable {x : LoginContext σ} {p : AttemptPlan} {α : Type}

/-- What happens in the world names no partner and gets no token. -/
theorem inWorld_alone {P : α → Prop} {E : Stop → Prop} {m : WorldM σ α} (h : Ends (fun _ => True) P E m) :
    Ends LoginRun.Alone P E (inWorld m) := fun run hrun => ⟨⟨hrun.partner, hrun.token⟩, (h run.world trivial).2⟩

theorem enter_alone {E : Stop → Prop} (phase : LoginPhase) : Stops LoginRun.Alone E (enter phase : LoginM σ Unit) :=
  Ends.modify fun _ hrun => ⟨hrun.partner, hrun.token⟩

theorem call_alone (t : Transport) (answer : Call α) (event : Bool → Event) (deadline : Option Moment) :
    Stops (fun _ : World σ => True) (· ≠ .overflow) (WorldM.call t answer event deadline) :=
  WorldM.call_stops (fun _ => nofun) (fun _ _ _ => trivial) (WorldM.wait_stops _ _)

theorem note_alone (e : Event) : Stops LoginRun.Alone (· ≠ .overflow) (inWorld (WorldM.note e) : LoginM σ Unit) :=
  inWorld_alone (WorldM.note_stops fun _ _ => trivial)

theorem readResponse_direct (t : Transport) {records : List (Delayed Record)}
    (hrecords : ∀ record ∈ records, record.value.Direct) {r : Response} (hr : r.Direct) :
    Ends LoginRun.Alone (fun read => read.1.Direct) (· ≠ .overflow)
      (readResponse p t records r : LoginM σ (Response × List (Delayed Record))) := by
  have waited (delay : Option Span) :
      Stops LoginRun.Alone (· ≠ .overflow) (inWorld (WorldM.wait delay p.deadline) : LoginM σ Unit) :=
    inWorld_alone (WorldM.wait_stops delay p.deadline)
  induction records generalizing r with
  | nil =>
    refine (waited _).bind fun _ _ => ?_
    exact (Ends.ofExcept _ fun _ => nofun).bind fun _ _ => Ends.fail nofun
  | cons record rest ih =>
    have hrecord := hrecords record List.mem_cons_self
    have hrest := fun next hnext => hrecords next (List.mem_cons_of_mem record hnext)
    refine (waited _).bind fun _ _ => ?_
    refine (note_alone _).bind fun _ _ => ?_
    split
    · exact Ends.fail nofun
    · rename_i r' htake
      have hr' : r'.Direct := hr.take hrecord htake
      refine Op.ends_modify_bind (fun run hrun => ⟨?_, hrun.token⟩) (ih hrest hr')
      show r'.partner?.or run.partner = none
      rw [hr'.partner, hrun.partner]
      rfl
    · rename_i r' htake
      exact (note_alone _).bind fun _ _ => Ends.pure (hr.take hrecord htake)
    · rename_i info htake
      exact nomatch hrecord.tokenRequest.symm.trans (Response.take_eq_wantsToken_iff.mp htake)

theorem conclude_direct (t : Transport) {r : Response} (hr : r.Direct) :
    Ends LoginRun.Alone AttemptEnd.Direct (· ≠ .overflow) (conclude p t r : LoginM σ AttemptEnd) := by
  have discarded : Stops LoginRun.Alone (· ≠ .overflow)
      (inWorld (WorldM.discard t p.deadline) : LoginM σ Unit) :=
    inWorld_alone (WorldM.discard_stops (fun _ _ _ => trivial) (WorldM.wait_stops _ _))
  unfold conclude
  dsimp only
  split
  · exact discarded.bind fun _ _ => Ends.fail nofun
  split
  · rename_i hrouting
    exact nomatch hr.routing.symm.trans hrouting
  split
  · exact Ends.fail nofun
  split
  · exact Ends.fail nofun
  · exact Ends.pure hr.partner

theorem logIn_direct {t : Transport} (ht : ∀ record ∈ t.line.records, record.value.Direct) :
    Ends LoginRun.Alone AttemptEnd.Direct (· ≠ .overflow) (logIn p t : LoginM σ AttemptEnd) := by
  have handshake : Stops (fun _ => True) (· ≠ .overflow)
      (WorldM.handshake t p.handshake p.deadline : WorldM σ HandshakeAnswer) :=
    (call_alone t _ _ _).bind fun _ _ => (WorldM.note_stops fun _ _ => trivial).bind fun _ _ => Ends.pure trivial
  refine (enter_alone _).bind fun _ _ => ?_
  refine (inWorld_alone handshake).bind fun ack _ => ?_
  refine Ends.get.bind fun run _ => ?_
  refine (enter_alone _).bind fun _ _ => ?_
  refine (inWorld_alone (call_alone t _ _ _)).bind fun _ _ => ?_
  refine (enter_alone _).bind fun _ _ => ?_
  have hbegun : Response.Direct
      { capabilities := .empty p.config.loginFeatures
        session := run.base.setEncrypted ack.encryption } := ⟨rfl, rfl⟩
  exact (readResponse_direct t ht hbegun).bind fun read hread => conclude_direct _ hread

theorem attempt_direct {server : Server σ} (h : server.Direct) (p : AttemptPlan) :
    Ends LoginRun.Alone AttemptEnd.Direct (· ≠ .overflow) (attempt server p) := by
  have provider : Stops LoginRun.Alone (· ≠ .overflow) (requireProvider p : LoginM σ Unit) := by
    unfold requireProvider
    split
    · exact Ends.get.bind fun _ _ => (Ends.ofExcept _ fun _ => nofun).bind fun _ _ => Ends.pure trivial
    · exact Ends.pure trivial
  refine provider.bind fun _ _ => ?_
  refine (enter_alone _).bind fun _ _ => ?_
  exact (inWorld_alone (WorldM.connect_direct h _ _ _)).bind fun t ht => logIn_direct ht

theorem timedAttempt_direct {server : Server σ} (h : server.Direct) (p : AttemptPlan) :
    Ends LoginRun.Alone (fun ended => ∀ a, ended = .ok a → a.Direct) (· ≠ .overflow) (timedAttempt server p) := by
  refine Ends.tryCatch ((attempt_direct h p).map fun a ha a' heq => ?_) fun s hs => ?_
  · cases heq
    exact ha
  · cases s with
    | failed e => exact Ends.pure fun _ heq => nomatch heq
    | cut => exact Ends.pure fun _ heq => nomatch heq
    | abandoned => exact Ends.throw hs
    | overflow => exact absurd rfl hs
    | exhausted => exact Ends.throw hs

theorem tryTarget_direct (h : x.server.Direct) (target : Target) (timeout : Option Span) :
    Ends LoginRun.Alone RoundEnd.Direct (· ≠ .overflow) (tryTarget x target timeout) := by
  have noted (ended : RoundEnd) (hended : ended.Direct) : Ends LoginRun.Alone RoundEnd.Direct (· ≠ .overflow) (do
      modify (LoginRun.finished · target ended)
      return ended : LoginM σ RoundEnd) :=
    Op.ends_modify_bind (fun _ hrun => ⟨hrun.partner, hrun.token⟩) (Ends.pure hended)
  refine Ends.get.bind fun run _ => ?_
  refine (timedAttempt_direct h _).bind fun ended hended => ?_
  rcases ended with e | e | next
  · exact noted (.failed e) trivial
  · exact noted (.opened e) (hended _ rfl)
  · exact (hended _ rfl).elim

/-! ## Rounds -/

variable {plan : LoginPlan} {run mid : LoginRun σ}

/-- The attempt of a round leaves the login alone, is not redirected, and overflows the clock only with its time
limit. -/
theorem roundAttempt_direct (h : x.server.Direct) (hrun : run.Alone) {res : Except Stop RoundEnd}
    (ha : roundAttempt x plan run = (res, mid)) :
    mid.Alone ∧ (∀ ended, res = .ok ended → ended.Direct) ∧
      (res = .error .overflow → (roundTimeout x plan run).1 = .error .overflow) := by
  unfold roundAttempt at ha
  rw [Op.bind_of_ok (enter_apply ..)] at ha
  obtain ⟨aliases, haliases, -⟩ := roundTarget_snd x plan { run with phase := .resolvingIdentity }
  have htarget := roundTarget_ne_overflow x plan { run with phase := .resolvingIdentity }
  rcases ht : roundTarget x plan { run with phase := .resolvingIdentity } with ⟨s | target, after⟩ <;>
    rw [ht] at haliases htarget
  · rw [Op.bind_of_error ht] at ha
    cases ha
    have hmid : mid = run.resolving aliases := haliases
    subst hmid
    exact ⟨⟨hrun.partner, hrun.token⟩, fun _ hok => (nomatch hok), fun hover => absurd (by cases hover; rfl) htarget⟩
  rw [Op.bind_of_ok ht] at ha
  have hafter : after = run.resolving aliases := haliases
  subst hafter
  have halone : (run.resolving aliases).Alone := ⟨hrun.partner, hrun.token⟩
  have hsame := roundTimeout_snd x plan (run.resolving aliases)
  have htimeout : (roundTimeout x plan (run.resolving aliases)).1 = _ := roundTimeout_resolving aliases
  rcases hl : roundTimeout x plan (run.resolving aliases) with ⟨s | timeout, after⟩ <;>
    rw [hl] at hsame htimeout <;> cases hsame
  · rw [Op.bind_of_error hl] at ha
    cases ha
    exact ⟨halone, fun _ hok => (nomatch hok), fun hover => by cases hover; exact htimeout.symm⟩
  · rw [Op.bind_of_ok hl] at ha
    have ha : tryTarget x target timeout (run.resolving aliases) = (res, mid) := ha
    have hends := tryTarget_direct h target timeout
    have hmid := (hends _ halone).1
    rw [ha] at hmid
    refine ⟨hmid, fun ended hok => hends.value halone (ha.trans (by rw [hok])), fun hover => ?_⟩
    exact absurd rfl (hends.reason halone (ha.trans (by rw [hover])))

end LoginM

end TdsSession
