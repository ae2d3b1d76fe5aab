import TdsSession.Proofs.Login.Stops

/-!
# When a round is followed by another

The ways in which a login goes on after an attempt (`Continues`) are ways that
it does go on, if its caller waits for as long as it takes: nothing cuts the
sleep short that comes first. So what happens before a round, and where the next
one starts, can be read off the end of the attempt (`before_iff`). A round that
no other follows is the last, and the login ends as it does
(`login_of_round_error`).
-/

namespace TdsSession

variable {σ : Type}

/-! ## One round -/

namespace LoginM

variable {x : LoginContext σ} {plan plan' : LoginPlan} {mid run' : LoginRun σ} {e : Error} {span : Span}

/-- A login whose caller waits for as long as it takes sleeps for as long as it was meant to. -/
theorem sleep_of_patient {w : World σ} (hw : w.Patient) :
    WorldM.sleep span w = (.ok (), { w.record (.slept span) with now := w.now + span }) := by
  have hsleep : Op.Stops World.Patient (fun _ => False) (WorldM.sleep span : WorldM σ Unit) :=
    (WorldM.note_stops fun _ hw => hw).bind fun _ _ => WorldM.wait_ends_of_delay (Option.some_ne_none span)
  rcases h : WorldM.sleep span w with ⟨s | _, w'⟩
  · exact (hsleep.reason hw h).elim
  · rw [sleep_eq_ok h]

theorem sleepOrExpire_of_canSleep (hpatient : mid.Patient) (h : mid.budget.canSleep mid.world.now span = .ok true) :
    sleepOrExpire e span mid = (.ok (), mid.slept span) := by
  unfold sleepOrExpire
  rw [Op.bind_apply, askBudget_apply, h]
  show inWorld (WorldM.sleep span) mid = _
  rw [inWorld_apply, sleep_of_patient hpatient]
  rfl

theorem planPair_of_slice {c : Config} {partner : DataSource} {onPartner : Bool} {slice : Span}
    (hb : mid.budget.slice = .ok slice) : planPair c partner onPartner mid =
      (.ok (.pair { partner, slice, backoff := c.retry.backoff, onPartner }), mid) := by
  unfold planPair
  rw [Op.bind_of_ok (Op.get_apply mid), hb]
  rfl

/-- While the budget lasts, what follows a failure on a pair depends on whether both hosts have failed. -/
theorem afterPairFailure_of_not_spent {p : PairPlan} (hends : mid.budget.EndsInClock)
    (hb : ¬ mid.budget.Spent mid.world.now) :
    afterPairFailure p e mid =
      if (p.failed + 1) % 2 = 0 then (do
        sleepOrExpire e p.backoff.current
        return .again (.pair { p.failedOnce with backoff := p.backoff.next }) : LoginM σ Round) mid
      else (.ok (.again (.pair p.failedOnce)), mid) := by
  unfold afterPairFailure
  rw [Op.bind_apply, askBudget_apply, Budget.isExpired_of_not_spent hends hb]
  simp only [ofClock_ok_apply, Bool.false_eq_true, if_false]
  show (if (p.failed + 1) % 2 = 0 then _ else _ : LoginM σ Round) mid = _
  split <;> rfl

/-- Each of the ways to go on is taken. -/
theorem settle_of_continues {ended : RoundEnd} (hpatient : mid.Patient) (hends : mid.budget.EndsInClock)
    (h : Continues x mid plan ended plan' run') : settle x plan ended mid = (.ok (.again plan'), run') := by
  cases h with
  | routed _ target => rfl
  | renewed _ e he => exact settle_of_renews he
  | slept p e he ht hp hs =>
    rw [settle_of_transient he ht]
    show afterSingleFailure x p e mid = _
    unfold afterSingleFailure
    rw [Op.bind_of_ok (Op.get_apply mid), hp]
    exact Op.bind_of_ok (sleepOrExpire_of_canSleep hpatient hs) _
  | switched p e he ht name hp hm partner hs slice hb =>
    rw [settle_of_transient he ht]
    show afterSingleFailure x p e mid = _
    unfold afterSingleFailure
    rw [Op.bind_of_ok (Op.get_apply mid), hp]
    simp only [hm, hs, Bool.false_eq_true, if_false]
    exact Op.bind_of_ok (planPair_of_slice hb) _
  | alternated p e he ht hb hodd =>
    rw [settle_of_transient he ht]
    show afterPairFailure p e mid = _
    rw [afterPairFailure_of_not_spent hends hb, if_neg hodd]
  | sleptAlternated p e he ht hb heven hs =>
    rw [settle_of_transient he ht]
    show afterPairFailure p e mid = _
    rw [afterPairFailure_of_not_spent hends hb, if_pos heven]
    exact Op.bind_of_ok (sleepOrExpire_of_canSleep hpatient hs) _

/-- A round is followed by another exactly if its attempt ends, and this is one of the ways to go on from there. -/
theorem before_iff {r r' : RoundStart σ} (hpatient : r.run.Patient) :
    r.Before x r' ↔ ∃ ended mid, roundAttempt x r.plan r.run = (.ok ended, mid) ∧
      Continues x mid r.plan ended r'.plan r'.run := by
  refine ⟨before_cases, fun ⟨ended, mid, ha, hc⟩ => ?_⟩
  have hmid : mid.Patient := (RoundFrame.roundAttempt ha).patience.trans hpatient
  exact Op.bind_eq_ok.mpr ⟨ended, mid, ha, settle_of_continues hmid (roundAttempt_endsInClock ha) hc⟩

/-- The caller does not change its mind between two rounds. -/
theorem patience_of_continues {ended : RoundEnd} (h : Continues x mid plan ended plan' run') :
    run'.world.patience = mid.world.patience := by
  cases h <;> rfl

/-- A round makes no connection after its attempt. -/
theorem round_connects {run : LoginRun σ} {ended : Except Stop RoundEnd} (ha : roundAttempt x plan run = (ended, mid)) :
    (round x plan run).2.world.connects = mid.world.connects := by
  unfold round
  rw [Op.bind_apply, ha]
  cases ended with
  | error t => rfl
  | ok ended => exact (settle_keeps x plan ended mid).connects

/-- A round whose attempt opens no session stops, or another follows. -/
theorem round_stops_or_again {run : LoginRun σ} {ended : Except Stop RoundEnd}
    (ha : roundAttempt x plan run = (ended, mid)) (hno : ∀ e, ended ≠ .ok (.opened e)) :
    (∃ t, (round x plan run).1 = .error t) ∨ ∃ plan', (round x plan run).1 = .ok (.again plan') := by
  unfold round
  rw [Op.bind_apply, ha]
  rcases ended with t | ended
  · exact .inl ⟨t, rfl⟩
  have hcloses : ended.Closes fun _ => False := by
    cases ended with
    | opened e => exact absurd rfl (hno e)
    | routed target => trivial
    | failed e => trivial
  rcases hs : settle x plan ended mid with ⟨t | e | plan', after⟩
  · exact .inl ⟨t, congrArg Prod.fst hs⟩
  · exact ((settle_gives hcloses).value trivial hs).elim
  · exact .inr ⟨plan', congrArg Prod.fst hs⟩

end LoginM

/-! ## All rounds -/

namespace LoginStart

variable {s : LoginStart} {server : Server σ} {attempts : Nat} {w : World σ} {r : RoundStart σ}

/-- A caller that waits for as long as it takes does so in every round. -/
theorem patient_of_mem_course (hw : w.Patient) (h : r ∈ s.course server attempts w) : r.run.Patient := by
  refine course_induction (P := fun r => r.run.Patient) (fun _ _ => hw) (fun r r' hr hbefore => ?_) h
  obtain ⟨ended, mid, ha, hc⟩ := LoginM.before_cases hbefore
  exact (LoginM.patience_of_continues hc).trans ((RoundFrame.roundAttempt ha).patience.trans hr)

/-- A round that stops is the last of the login, which ends as it does and makes no other connection. -/
theorem login_of_round_error {t : Stop} (h : r ∈ s.course server attempts w)
    (hround : (LoginM.round (s.context server) r.plan r.run).1 = .error t) :
    (login server attempts s w).1 = .error t ∧ (login server attempts s w).2.world.connects =
      (LoginM.round (s.context server) r.plan r.run).2.world.connects := by
  by_cases ht : ∃ e, t = .failed e
  · obtain ⟨e, rfl⟩ := ht
    rw [login_of_failed h (Prod.ext hround rfl)]
    exact ⟨rfl, rfl⟩
  · rw [login_of_stopped (fun e he => ht ⟨e, he⟩) h (Prod.ext hround rfl)]
    exact ⟨rfl, rfl⟩

/-- If a round opens no session and no other follows it, the login fails after its attempt. -/
theorem fails_of_last {ended : Except Stop RoundEnd} {mid : LoginRun σ} (h : r ∈ s.course server attempts w)
    (ha : LoginM.roundAttempt (s.context server) r.plan r.run = (ended, mid)) (hno : ∀ e, ended ≠ .ok (.opened e))
    (hlast : ∀ r', ¬ r.Before (s.context server) r') :
    (login server attempts s w).2.world.connects = mid.world.connects ∧
      ∃ t, (login server attempts s w).1 = .error t := by
  rcases LoginM.round_stops_or_again ha hno with ⟨t, hround⟩ | ⟨plan', hround⟩
  · obtain ⟨hlogin, hconnects⟩ := login_of_round_error h hround
    exact ⟨hconnects.trans (LoginM.round_connects ha), t, hlogin⟩
  · exact (hlast ⟨plan', (LoginM.round (s.context server) r.plan r.run).2⟩ (Prod.ext hround rfl)).elim

end LoginStart

end TdsSession
