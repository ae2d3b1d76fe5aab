import TdsSession.Proofs.Login.Attempt

/-!
# An attempt by its parts

Most of what an attempt does is to note events and to take over what it is
told. Only its waits take time, and only getting a token asks for anything but
the server. So what these two keep is kept by the attempt, and why they stop is
why it stops (`AttemptPlan.Bears.attempt`).
-/

namespace TdsSession

open Op (Ends Stops)

variable {σ α : Type}

namespace WorldM

variable {I : World σ → Prop} {E : Stop → Prop} {deadline : Option Moment}

theorem ofExcept_stops (hE : ∀ e, E (.failed e)) (r : Except Error α) :
    Stops I E (ofExcept r : WorldM σ α) := by
  cases r with
  | ok a => exact Ends.pure trivial
  | error e => exact Ends.throw (hE e)

theorem note_stops {e : Event} (hnote : ∀ w, I w → I (w.record e)) : Stops I E (note e : WorldM σ Unit) :=
  Ends.modify hnote

/-- A call ends as the wait for its answer does, or fails. -/
theorem call_stops (hE : ∀ e, E (.failed e)) {t : Transport} {answer : Call α} {event : Bool → Event}
    (hnote : ∀ w d, I w → I (w.record (event d)))
    (h : Stops I E (wait (t.answered answer).delay deadline : WorldM σ Unit)) :
    Stops I E (call t answer event deadline : WorldM σ α) :=
  (note_stops fun w => hnote w _).bind fun _ _ => h.bind fun _ _ => ofExcept_stops hE _

/-- Closing a transport that is not needed any more does not fail. -/
theorem discard_stops {t : Transport} (hnote : ∀ w d, I w → I (w.record (.disconnected t.number d)))
    (h : Stops I E (wait (t.answered t.line.disconnect).delay deadline : WorldM σ Unit)) :
    Stops I E (discard t deadline : WorldM σ Unit) := by
  have hcall : Stops I (fun s => (∀ e, s ≠ .failed e) → E s) (disconnect t deadline : WorldM σ Unit) := by
    unfold disconnect
    split
    · exact call_stops (fun e he => absurd rfl (he e)) hnote (h.mono fun _ hs _ => hs)
    · exact Ends.pure trivial
  refine hcall.tryCatch fun s hs => ?_
  cases s with
  | failed e => exact Ends.pure trivial
  | cut => exact Ends.throw (hs fun _ h => nomatch h)
  | abandoned => exact Ends.throw (hs fun _ h => nomatch h)
  | overflow => exact Ends.throw (hs fun _ h => nomatch h)
  | exhausted => exact Ends.throw (hs fun _ h => nomatch h)

end WorldM

/-- `J` holds of the budget and the world all through an attempt, and the attempt stops for no reason but
failures and those of which `E` holds, as far as its waits and its token go. There are no sleeps but those
of getting a token. -/
structure AttemptPlan.Bears (p : AttemptPlan) (J : Budget → World σ → Prop) (E : Stop → Prop) : Prop where
  failed : ∀ e, E (.failed e)
  noted : ∀ b w e, ¬ e.isSleep → J b w → J b (w.record e)
  connecting : ∀ b w server connects, J b w → J b { w with server, connects }
  waits : ∀ b delay, Stops (J b) E (WorldM.wait delay p.deadline)
  fetches : ∀ method info,
    Stops (fun run => J run.budget run.world) E (LoginM.fetchToken p method info)

namespace AttemptPlan.Bears

variable {p : AttemptPlan} {J : Budget → World σ → Prop} {E : Stop → Prop} (h : p.Bears J E)

/-- An operation in the world does not touch the budget. -/
theorem inWorld {P : α → Prop} {m : WorldM σ α} (hm : ∀ b, Ends (J b) P E m) :
    Ends (fun run => J run.budget run.world) P E (LoginM.inWorld m) :=
  fun run hrun => hm run.budget run.world hrun

include h

theorem note {e : Event} (he : ¬ e.isSleep) :
    Stops (fun run => J run.budget run.world) E (LoginM.inWorld (WorldM.note e) : LoginM σ Unit) :=
  inWorld fun b => WorldM.note_stops fun w => h.noted b w e he

theorem call {β : Type} (t : Transport) (answer : Call β) {event : Bool → Event} (he : ∀ d, ¬ (event d).isSleep)
    (b : Budget) : Stops (J b) E (WorldM.call t answer event p.deadline : WorldM σ β) :=
  WorldM.call_stops h.failed (fun w d => h.noted b w _ (he d)) (h.waits b _)

theorem showToken (t : Transport) (info : FedAuthInfo) :
    Stops (fun run => J run.budget run.world) E (LoginM.showToken p t info : LoginM σ Unit) := by
  unfold LoginM.showToken
  split
  · exact Ends.fail (h.failed _)
  · refine (h.fetches _ info).bind fun token _ => ?_
    refine Op.ends_modify_bind (fun run hrun => h.noted _ _ _ id hrun) ?_
    exact inWorld fun b => h.call t _ (fun _ => id) b

theorem readResponse (t : Transport) (records : List (Delayed Record)) (r : Response) :
    Stops (fun run => J run.budget run.world) E
      (LoginM.readResponse p t records r : LoginM σ (Response × List (Delayed Record))) := by
  induction records generalizing r with
  | nil =>
    refine (inWorld fun b => h.waits b _).bind fun _ _ => ?_
    exact (Ends.ofExcept _ h.failed).bind fun _ _ => Ends.fail (h.failed _)
  | cons record rest ih =>
    refine (inWorld fun b => h.waits b _).bind fun _ _ => ?_
    refine (h.note id).bind fun _ _ => ?_
    split
    · exact Ends.fail (h.failed _)
    · exact Op.ends_modify_bind (fun _ hrun => hrun) (ih _)
    · exact (h.note id).bind fun _ _ => Ends.pure trivial
    · exact (h.showToken t _).bind fun _ _ => ih _

theorem conclude (t : Transport) (r : Response) :
    Stops (fun run => J run.budget run.world) E (LoginM.conclude p t r : LoginM σ AttemptEnd) := by
  have discarded : Stops (fun run => J run.budget run.world) E
      (LoginM.inWorld (WorldM.discard t p.deadline) : LoginM σ Unit) :=
    inWorld fun b => WorldM.discard_stops (fun w _ => h.noted b w _ id) (h.waits b _)
  unfold LoginM.conclude
  dsimp only
  split
  · exact discarded.bind fun _ _ => Ends.fail (h.failed _)
  split
  · exact discarded.bind fun _ _ => Ends.pure trivial
  split
  · exact Ends.fail (h.failed _)
  split
  · exact Ends.fail (h.failed _)
  · exact Ends.pure trivial

theorem logIn (t : Transport) :
    Stops (fun run => J run.budget run.world) E (LoginM.logIn p t : LoginM σ AttemptEnd) := by
  have enter (phase : LoginPhase) :
      Stops (fun run => J run.budget run.world) E (LoginM.enter phase : LoginM σ Unit) :=
    Ends.modify fun _ hrun => hrun
  refine (enter _).bind fun _ _ => ?_
  have handshake (b : Budget) :
      Stops (J b) E (WorldM.handshake t p.handshake p.deadline : WorldM σ HandshakeAnswer) :=
    (h.call t _ (fun _ => id) b).bind fun _ _ =>
      (WorldM.note_stops fun w => h.noted b w _ id).bind fun _ _ => Ends.pure trivial
  refine (inWorld handshake).bind fun ack _ => ?_
  refine Ends.get.bind fun run _ => ?_
  refine (enter _).bind fun _ _ => ?_
  refine (inWorld fun b => h.call t _ (fun _ => id) b).bind fun _ _ => ?_
  refine (enter _).bind fun _ _ => ?_
  refine (h.readResponse t _ _).bind fun read _ => ?_
  exact h.conclude { t with line := { t.line with records := read.2 } } read.1

theorem connect (server : Server σ) (b : Budget) :
    Stops (J b) E (WorldM.connect server p.target p.timeout p.deadline) := by
  refine Ends.get.bind fun w hw => ?_
  refine Op.ends_set_bind (h.connecting _ _ _ _ (h.noted _ _ _ id hw)) ?_
  refine (h.waits b _).bind fun _ _ => ?_
  exact (WorldM.ofExcept_stops h.failed _).bind fun _ _ => Ends.pure trivial

/-- What the waits of an attempt and its token keep is kept by the attempt, and it stops as they do. -/
theorem attempt (server : Server σ) :
    Stops (fun run => J run.budget run.world) E (LoginM.attempt server p) := by
  have provider : Stops (fun run => J run.budget run.world) E (LoginM.requireProvider p : LoginM σ Unit) := by
    unfold LoginM.requireProvider
    split
    · exact Ends.get.bind fun _ _ => (Ends.ofExcept _ h.failed).bind fun _ _ => Ends.pure trivial
    · exact Ends.pure trivial
  refine provider.bind fun _ _ => ?_
  refine Op.ends_modify_bind (fun _ hrun => hrun) ?_
  exact (inWorld (h.connect server)).bind fun t _ => h.logIn t

end AttemptPlan.Bears

end TdsSession
