import TdsSession.Proofs.Login.Course

/-!
# The transport of an open session

A login leaves open the transport on which its last attempt has logged in, with
the records taken off that it has read. What holds of how a server closes its
transports (`Server.Closes`) therefore holds of the session that is opened
(`LoginM.rounds_gives`).
-/

namespace TdsSession

open Op (Ends Gives)

variable {σ : Type} {C : Call Unit → Prop}

/-- Whatever it is asked for, `C` holds of how the server answers when its transport is closed. -/
def Server.Closes (server : Server σ) (C : Call Unit → Prop) : Prop :=
  ∀ st n target timeout line, (server.connect st n target timeout).1.value = .ok line → C line.disconnect

/-- A transport that closes at once does close. -/
theorem Server.Closes.of_atOnce {server : Server σ} (h : server.Closes fun c => c.delay = some 0) :
    server.Closes fun c => c.delay ≠ none := by
  intro st n target timeout line hline hnone
  rw [h st n target timeout line hline] at hnone
  cases hnone

/-- If the attempt has opened a session, `C` holds of how its transport is closed. -/
def AttemptEnd.Closes (C : Call Unit → Prop) : AttemptEnd → Prop
  | .opened e => C e.transport.line.disconnect
  | .routed _ => True

def RoundEnd.Closes (C : Call Unit → Prop) : RoundEnd → Prop
  | .opened e => C e.transport.line.disconnect
  | .routed _ | .failed _ => True

def Round.Closes (C : Call Unit → Prop) : Round → Prop
  | .opened e => C e.transport.line.disconnect
  | .again _ => True

theorem WorldM.connect_gives {server : Server σ} (h : server.Closes C) (target : Target)
    (timeout : Option Span) (deadline : Option Moment) :
    Gives (fun t => C t.line.disconnect) (connect server target timeout deadline) := by
  refine Gives.after fun w => ?_
  refine Gives.after fun _ => ?_
  refine Gives.after fun _ => ?_
  rcases hvalue : (server.connect w.server (w.connects + 1) target timeout).1.value with e | line
  · exact Ends.throw trivial
  · exact Ends.pure (h _ _ _ _ _ hvalue)

namespace LoginM

variable {x : LoginContext σ}

theorem conclude_gives (p : AttemptPlan) {t : Transport} (h : C t.line.disconnect) (r : Response) :
    Gives (AttemptEnd.Closes C) (conclude p t r : LoginM σ AttemptEnd) := by
  unfold conclude
  dsimp only
  split
  · exact Gives.after fun _ => Ends.fail trivial
  split
  · exact Gives.after fun _ => Ends.pure trivial
  split
  · exact Ends.fail trivial
  split
  · exact Ends.fail trivial
  · exact Ends.pure h

theorem logIn_gives (p : AttemptPlan) {t : Transport} (h : C t.line.disconnect) :
    Gives (AttemptEnd.Closes C) (logIn p t : LoginM σ AttemptEnd) := by
  refine Gives.after fun _ => ?_
  refine Gives.after fun _ => ?_
  refine Gives.after fun _ => ?_
  refine Gives.after fun _ => ?_
  refine Gives.after fun _ => ?_
  refine Gives.after fun _ => ?_
  refine Gives.after fun read => ?_
  exact conclude_gives p (t := { t with line := { t.line with records := read.2 } }) h read.1

theorem attempt_gives {server : Server σ} (h : server.Closes C) (p : AttemptPlan) :
    Gives (AttemptEnd.Closes C) (attempt server p) := by
  refine Gives.after fun _ => ?_
  refine Gives.after fun _ => ?_
  have hconnect : Gives (fun t => C t.line.disconnect)
      (inWorld (WorldM.connect server p.target p.timeout p.deadline)) :=
    Ends.inWorld (WorldM.connect_gives h p.target p.timeout p.deadline)
  exact hconnect.bind fun t ht => logIn_gives p ht

/-- A redirect opens no session. -/
theorem followRedirect_gives (c : Config) (source : Target) (target : Routing) :
    Gives (RoundEnd.Closes C) (followRedirect c source target : LoginM σ RoundEnd) := by
  refine Gives.after fun run => ?_
  split
  · exact Ends.pure trivial
  refine Gives.after fun expired => ?_
  split
  · exact Ends.pure trivial
  · exact Gives.after fun _ => Ends.pure trivial

theorem tryTarget_gives (h : x.server.Closes C) (target : Target) (timeout : Option Span) :
    Gives (RoundEnd.Closes C) (tryTarget x target timeout) := by
  refine Gives.after fun run => ?_
  have htimed : Gives (fun ended : Except Error AttemptEnd => ∀ a, ended = .ok a → a.Closes C)
      (timedAttempt x.server (x.attempt target timeout run.world.now)) := by
    refine Ends.tryCatch ((attempt_gives h _).map fun a ha a' heq => ?_) fun s _ => ?_
    · cases heq
      exact ha
    · cases s with
      | failed e => exact Ends.pure fun _ heq => nomatch heq
      | cut => exact Ends.pure fun _ heq => nomatch heq
      | abandoned => exact Ends.throw trivial
      | overflow => exact Ends.throw trivial
      | exhausted => exact Ends.throw trivial
  have noted {ended : RoundEnd} (hended : ended.Closes C) : Gives (RoundEnd.Closes C) (do
      modify (LoginRun.finished · target ended)
      return ended : LoginM σ RoundEnd) := Gives.after fun _ => Ends.pure hended
  refine htimed.bind fun ended hended => ?_
  rcases ended with e | e | next
  · exact noted trivial
  · have hopened : (RoundEnd.opened e).Closes C := hended _ rfl
    exact noted hopened
  · exact (followRedirect_gives x.config target next).bind fun _ hended => noted hended

theorem roundAttempt_gives (h : x.server.Closes C) (plan : LoginPlan) :
    Gives (RoundEnd.Closes C) (roundAttempt x plan) := by
  refine Gives.after fun _ => ?_
  refine Gives.after fun target => ?_
  refine Gives.after fun timeout => ?_
  exact tryTarget_gives h target timeout

/-- A failure opens no session. -/
theorem afterSingleFailure_gives (x : LoginContext σ) (p : SinglePlan) (e : Error) :
    Gives (Round.Closes C) (afterSingleFailure x p e) := by
  refine Gives.after fun run => ?_
  dsimp only
  split
  · split
    · exact Ends.fail trivial
    · exact Gives.after fun _ => Gives.after fun _ => Ends.pure trivial
  · exact Gives.after fun _ => Ends.pure trivial

theorem afterPairFailure_gives (p : PairPlan) (e : Error) :
    Gives (Round.Closes C) (afterPairFailure p e : LoginM σ Round) := by
  refine Gives.after fun expired => ?_
  dsimp only
  split
  · exact Ends.fail trivial
  split
  · exact Gives.after fun _ => Ends.pure trivial
  · exact Ends.pure trivial

theorem settle_gives {plan : LoginPlan} {ended : RoundEnd} (h : ended.Closes C) :
    Gives (Round.Closes C) (settle x plan ended) := by
  cases ended with
  | opened e =>
    cases plan with
    | single p => exact Ends.pure h
    | pair p =>
      unfold settle acceptSession
      dsimp only
      split
      · exact Ends.fail trivial
      · exact Ends.pure h
  | routed target => exact Ends.pure trivial
  | failed e =>
    refine Gives.after fun renewed => ?_
    dsimp only
    split
    · exact Ends.pure trivial
    split
    · exact Ends.fail trivial
    cases plan with
    | single p => exact afterSingleFailure_gives x p e
    | pair p => exact afterPairFailure_gives p e

theorem round_gives (h : x.server.Closes C) (plan : LoginPlan) : Gives (Round.Closes C) (round x plan) :=
  (roundAttempt_gives h plan).bind fun _ hended => settle_gives hended

/-- What holds of how the server closes its transports holds of the session that the rounds open. -/
theorem rounds_gives (h : x.server.Closes C) (attempts : Nat) (plan : LoginPlan) :
    Gives (fun e => C e.transport.line.disconnect) (rounds x attempts plan) := by
  induction attempts generalizing plan with
  | zero => exact Ends.throw trivial
  | succ attempts ih =>
    refine (round_gives h plan).bind fun r hr => ?_
    cases r with
    | opened e => exact Ends.pure hr
    | again plan' => exact ih plan'

theorem allRounds_gives (h : x.server.Closes C) (attempts : Nat) :
    Gives (fun e => C e.transport.line.disconnect) (allRounds x attempts) :=
  Gives.after fun plan => rounds_gives h attempts plan

end LoginM

end TdsSession
