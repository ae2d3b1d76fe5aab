import TdsSession.Proofs.Login.Alternation
import TdsSession.Proofs.Login.Stops

/-!
# Turns of a pair

Where the rounds with two hosts stand can be told from how many attempts have
failed in a way that may pass, and from the redirects that each side has been
given (`LoginContext.turn`): the side whose turn it is, the time for the
attempt, and how long the next sleep is. Each round hands that on to the next
(`AtTurn.next`), so it holds at all of them (`atTurn_of_course`).
-/

namespace TdsSession

open Op (Keeps)

variable {σ : Type}

/-! ## Sleeps -/

/-- The span of a sleep. -/
def Event.slept? : Event → Option Span
  | .slept d => some d
  | _ => none

/-- The sleeps that have begun from `w` to `w'`, oldest first. -/
def World.sleepsSince (w w' : World σ) : List Span :=
  ((w'.trace.take (w'.trace.length - w.trace.length)).filterMap fun e => e.2.slept?).reverse

theorem World.sleepsSince_self (w : World σ) : w.sleepsSince w = [] := by
  unfold sleepsSince
  rw [Nat.sub_self]
  rfl

theorem World.sleepsSince_cons {w w' : World σ} {t : Moment} {e : Event} (h : w'.trace = (t, e) :: w.trace) :
    w.sleepsSince w' = e.slept?.toList := by
  unfold sleepsSince
  rw [h, List.length_cons, Nat.add_sub_cancel_left]
  cases e <;> rfl

/-! ## What a round has come to -/

namespace RoundStart

/-- The attempt of the round has failed in a way that may pass, and the budget is not renewed for it. -/
def failed (x : LoginContext σ) (r : RoundStart σ) : Bool :=
  match LoginM.roundAttempt x r.plan r.run with
  | (.ok (.failed e), mid) => e.isTransient && !decide (mid.Renews e)
  | _ => false

/-- Where the attempt of the round has been redirected to. -/
def routedTo (x : LoginContext σ) (r : RoundStart σ) : Option Target :=
  match LoginM.roundAttempt x r.plan r.run with
  | (.ok (.routed target), _) => some target
  | _ => none

/-- The sleeps between the attempt of the round and the next round. -/
def sleeps (x : LoginContext σ) (r : RoundStart σ) : List Span :=
  match LoginM.roundAttempt x r.plan r.run with
  | (.ok ended, mid) => mid.world.sleepsSince (LoginM.settle x r.plan ended mid).2.world
  | _ => []

variable {x : LoginContext σ} {r : RoundStart σ} {mid : LoginRun σ} {e : Error}

theorem failed_of_failed (ha : LoginM.roundAttempt x r.plan r.run = (.ok (.failed e), mid)) :
    r.failed x = true ↔ e.isTransient ∧ ¬ mid.Renews e := by
  unfold failed
  rw [ha]
  simp

theorem failed_of_routed {target : Target} (ha : LoginM.roundAttempt x r.plan r.run = (.ok (.routed target), mid)) :
    r.failed x = false ∧ r.routedTo x = some target := by
  unfold failed routedTo
  rw [ha]
  exact ⟨rfl, rfl⟩

theorem routedTo_of_failed (ha : LoginM.roundAttempt x r.plan r.run = (.ok (.failed e), mid)) :
    r.routedTo x = none := by
  unfold routedTo
  rw [ha]

theorem sleeps_eq {ended : RoundEnd} {res : Except Stop Round} {run' : LoginRun σ}
    (ha : LoginM.roundAttempt x r.plan r.run = (.ok ended, mid))
    (hs : LoginM.settle x r.plan ended mid = (res, run')) : r.sleeps x = mid.world.sleepsSince run'.world := by
  unfold sleeps
  rw [ha]
  dsimp only
  rw [hs]

end RoundStart

/-- The redirect that a side of a pair has been given last. -/
def LoginContext.remembered (x : LoginContext σ) (rounds : List (RoundStart σ)) (onPartner : Bool) : Option Target :=
  rounds.reverse.findSome? fun r => if r.plan.onPartner = onPartner then r.routedTo x else none

/-- How many attempts of some rounds have failed in a way that may pass, without a renewal of the budget. -/
def LoginContext.failures (x : LoginContext σ) (rounds : List (RoundStart σ)) : Nat := rounds.countP (·.failed x)

/-- Where two hosts stand after `rounds`, if they start from `first`. -/
def LoginContext.turn (x : LoginContext σ) (first : PairPlan) (rounds : List (RoundStart σ)) : PairPlan where
  partner := first.partner
  slice := first.slice
  backoff := first.backoff.after (x.failures rounds / 2)
  onPartner := first.onPartner ^^ decide (x.failures rounds % 2 = 1)
  failed := x.failures rounds
  primaryRoute := x.remembered rounds false
  partnerRoute := x.remembered rounds true

namespace LoginContext

variable {x : LoginContext σ} {first : PairPlan} {rounds : List (RoundStart σ)} {r : RoundStart σ}

theorem failures_nil : x.failures ([] : List (RoundStart σ)) = 0 := rfl

theorem failures_concat : x.failures (rounds ++ [r]) = x.failures rounds + (r.failed x).toNat := by
  unfold failures
  rw [List.countP_append, List.countP_singleton]
  cases r.failed x <;> rfl

theorem remembered_concat (onPartner : Bool) : x.remembered (rounds ++ [r]) onPartner =
    (if r.plan.onPartner = onPartner then r.routedTo x else none).or (x.remembered rounds onPartner) := by
  unfold remembered
  rw [List.reverse_append, List.reverse_singleton, List.singleton_append, List.findSome?_cons]
  rcases if r.plan.onPartner = onPartner then r.routedTo x else none with _ | target <;> rfl

/-- Nothing is to be remembered if there has been no redirect. -/
theorem remembered_concat_of_none (h : r.routedTo x = none) (onPartner : Bool) :
    x.remembered (rounds ++ [r]) onPartner = x.remembered rounds onPartner := by
  rw [remembered_concat, h, ite_self, Option.none_or]

theorem turn_route : (x.turn first rounds).route = x.remembered rounds (x.turn first rounds).onPartner := by
  unfold PairPlan.route
  rcases hside : (x.turn first rounds).onPartner <;> rfl

/-- Before the first round two hosts stand where they start from. -/
theorem turn_nil (hfirst : first.failed = 0) (hprimary : first.primaryRoute = none)
    (hpartner : first.partnerRoute = none) : x.turn first [] = first := by
  obtain ⟨partner, slice, backoff, onPartner, failed, primaryRoute, partnerRoute⟩ := first
  cases hfirst
  cases hprimary
  cases hpartner
  unfold turn
  rw [failures_nil, Nat.zero_div, Nat.zero_mod]
  show PairPlan.mk _ _ _ (onPartner ^^ false) _ _ _ = _
  rw [Bool.xor_false]
  rfl

/-- If there has been neither a failure nor a redirect, it is the same turn. -/
theorem turn_of_kept (first : PairPlan) (rounds : List (RoundStart σ)) (hfailed : r.failed x = false)
    (hrouted : r.routedTo x = none) :
    x.turn first (rounds ++ [r]) = x.turn first rounds := by
  unfold turn
  rw [failures_concat, hfailed, remembered_concat_of_none hrouted, remembered_concat_of_none hrouted]
  rfl

/-- A redirect is remembered for the side that has been given it. -/
theorem turn_of_routed {target : Target} (hfailed : r.failed x = false) (hrouted : r.routedTo x = some target)
    (hplan : r.plan = .pair (x.turn first rounds)) :
    x.turn first (rounds ++ [r]) = (x.turn first rounds).withRoute target := by
  have hturn : r.plan.onPartner = (x.turn first rounds).onPartner := by rw [hplan]; rfl
  unfold PairPlan.withRoute
  by_cases hside : (x.turn first rounds).onPartner = true
  · rw [if_pos hside]
    unfold turn
    rw [failures_concat, hfailed, remembered_concat, remembered_concat, hrouted, hturn.trans hside]
    rfl
  · rw [if_neg hside]
    unfold turn
    rw [failures_concat, hfailed, remembered_concat, remembered_concat, hrouted,
      hturn.trans (Bool.eq_false_iff.mpr hside)]
    rfl

/-- After a failure it is the other side's turn, and after two the next sleep is another. -/
theorem turn_of_failed (first : PairPlan) (rounds : List (RoundStart σ)) (hfailed : r.failed x = true)
    (hrouted : r.routedTo x = none) :
    x.turn first (rounds ++ [r]) =
      { (x.turn first rounds).failedOnce with backoff := first.backoff.after ((x.failures rounds + 1) / 2) } := by
  unfold turn PairPlan.failedOnce
  rw [failures_concat, hfailed, remembered_concat_of_none hrouted, remembered_concat_of_none hrouted, Bool.toNat_true]
  congr 1
  have hflip : decide ((x.failures rounds + 1) % 2 = 1) = !decide (x.failures rounds % 2 = 1) := by
    rw [← decide_not]
    exact decide_eq_decide.mpr (by omega)
  rw [hflip]
  cases first.onPartner <;> simp

end LoginContext

/-- Where a round of a pair stands after the rounds before it. -/
structure AtTurn (x : LoginContext σ) (first : PairPlan) (total : Option Span) (rounds : List (RoundStart σ))
    (r : RoundStart σ) : Prop where
  plan : r.plan = .pair (x.turn first rounds)
  total : r.run.budget.total = total
  sleeps : rounds.flatMap (·.sleeps x) = first.backoff.take (x.failures rounds / 2)

namespace AtTurn

variable {x : LoginContext σ} {first : PairPlan} {total : Option Span} {rounds : List (RoundStart σ)}
  {r r' : RoundStart σ}

/-- Each round hands its turn on. -/
theorem next (h : AtTurn x first total rounds r) (hbefore : r.Before x r') :
    AtTurn x first total (rounds ++ [r]) r' := by
  obtain ⟨ended, mid, ha, hs⟩ := Op.bind_eq_ok.mp hbefore
  have hc := LoginM.settle_eq_again hs
  have htotal : mid.budget.total = total := (congrArg Budget.total (RoundFrame.roundAttempt ha).budget).trans h.total
  have hsleeps := RoundStart.sleeps_eq ha hs
  -- neither a redirect nor a renewal is a failure or a sleep
  have kept (hfailed : r.failed x = false) (hr : r.sleeps x = []) :
      (rounds ++ [r]).flatMap (·.sleeps x) = first.backoff.take (x.failures (rounds ++ [r]) / 2) := by
    rw [List.flatMap_append, List.flatMap_singleton, hr, List.append_nil, LoginContext.failures_concat, hfailed]
    exact h.sleeps
  -- a failure is one of the two of a pair
  have failed {sleeps : List Span} (hfailed : r.failed x = true) (hr : r.sleeps x = sleeps) :
      (rounds ++ [r]).flatMap (·.sleeps x) = first.backoff.take (x.failures rounds / 2) ++ sleeps ∧
        x.failures (rounds ++ [r]) = x.failures rounds + 1 := by
    rw [List.flatMap_append, List.flatMap_singleton, hr, h.sleeps, LoginContext.failures_concat, hfailed]
    exact ⟨rfl, rfl⟩
  obtain ⟨plan', run'⟩ := r'
  rw [h.plan] at hc
  cases hc with
  | routed _ target =>
    obtain ⟨hfailed, hrouted⟩ := RoundStart.failed_of_routed ha
    have hturn := LoginContext.turn_of_routed hfailed hrouted h.plan
    exact ⟨by rw [hturn], htotal, kept hfailed (hsleeps.trans (World.sleepsSince_self _))⟩
  | renewed _ e he =>
    have hfailed : r.failed x = false := Bool.eq_false_iff.mpr fun hf => ((RoundStart.failed_of_failed ha).mp hf).2 he
    have hturn := LoginContext.turn_of_kept first rounds hfailed (RoundStart.routedTo_of_failed ha)
    exact ⟨by rw [hturn], htotal, kept hfailed (hsleeps.trans (World.sleepsSince_cons (e := .restarted) rfl))⟩
  | alternated _ e he ht hb hodd =>
    have hfailed : r.failed x = true := (RoundStart.failed_of_failed ha).mpr ⟨ht, he⟩
    have hturn := LoginContext.turn_of_failed first rounds hfailed (RoundStart.routedTo_of_failed ha)
    have hhalf : (x.failures rounds + 1) / 2 = x.failures rounds / 2 := by
      change (x.failures rounds + 1) % 2 ≠ 0 at hodd
      omega
    obtain ⟨hslept, hfailures⟩ := failed hfailed (hsleeps.trans (World.sleepsSince_self _))
    refine ⟨by rw [hturn, hhalf]; rfl, htotal, ?_⟩
    rw [hslept, hfailures, hhalf, List.append_nil]
  | sleptAlternated _ e he ht hb heven hs =>
    have hfailed : r.failed x = true := (RoundStart.failed_of_failed ha).mpr ⟨ht, he⟩
    have hturn := LoginContext.turn_of_failed first rounds hfailed (RoundStart.routedTo_of_failed ha)
    have hhalf : (x.failures rounds + 1) / 2 = x.failures rounds / 2 + 1 := by
      change (x.failures rounds + 1) % 2 = 0 at heven
      omega
    obtain ⟨hslept, hfailures⟩ := failed hfailed (hsleeps.trans (World.sleepsSince_cons (e := .slept _) rfl))
    refine ⟨by rw [hturn, hhalf, Backoff.after_succ]; rfl, htotal, ?_⟩
    rw [hslept, hfailures, hhalf, Backoff.take_succ]
    rfl

end AtTurn

/-! ## The end of the rounds -/

/-- A sleep does not fail; at most it is cut off. -/
theorem WorldM.sleep_ne_failed (span : Span) (w : World σ) (e : Error) :
    (sleep span w).1 ≠ .error (.failed e) := by
  unfold sleep note
  rw [Op.bind_of_ok (Op.modify_apply ..), wait_apply]
  rcases waitFrom (w.record (.slept span)).now (some span) (earlier none (w.record (.slept span)).patience) with
    t | t | _
  · exact nofun
  · unfold cutReason
    dsimp only
    split <;> exact nofun
  · exact nofun

namespace LoginM

variable {x : LoginContext σ} {mid : LoginRun σ} {p : PairPlan} {e : Error}

/-- Time runs out before a sleep exactly if the budget does not allow it. -/
theorem sleepOrExpire_expired_iff {span : Span} :
    (sleepOrExpire e span mid).1 = .error (.failed (.timeoutExpiredAfter e)) ↔
      mid.budget.canSleep mid.world.now span = .ok false := by
  unfold sleepOrExpire
  rw [Op.bind_apply, askBudget_apply]
  rcases mid.budget.canSleep mid.world.now span with o | _ | _
  · exact ⟨nofun, nofun⟩
  · exact ⟨fun _ => rfl, fun _ => rfl⟩
  · exact ⟨fun h => absurd h (WorldM.sleep_ne_failed span mid.world _), nofun⟩

/-- An error is not its own cause. -/
theorem ne_timeoutExpiredAfter (e : Error) : e ≠ .timeoutExpiredAfter e := by
  intro h
  have hsize := congrArg sizeOf h
  simp at hsize

theorem afterPairFailure_expired_iff :
    (afterPairFailure p e mid).1 = .error (.failed (.timeoutExpiredAfter e)) ↔ mid.budget.Spent mid.world.now ∨
      (p.failed + 1) % 2 = 0 ∧ mid.budget.canSleep mid.world.now p.backoff.current = .ok false := by
  unfold afterPairFailure
  rw [Op.bind_apply, askBudget_apply]
  rcases hx : mid.budget.isExpired mid.world.now with o | expired
  · refine iff_of_false nofun ?_
    have hno : mid.budget.remaining mid.world.now = .error .overflow := by
      rcases Budget.remaining_cases mid.budget mid.world.now with ⟨-, hleft⟩ | ⟨-, hleft⟩
      · unfold Budget.isExpired at hx
        rw [hleft] at hx
        cases hx
      · exact hleft
    unfold Budget.Spent Budget.canSleep
    rw [hno]
    exact not_or.mpr ⟨nofun, fun h => nomatch h.2⟩
  have hspent := Budget.isExpired_iff hx
  rw [ofClock_ok_apply]
  cases expired with
  | true => exact iff_of_true rfl (.inl (hspent.mp rfl))
  | false =>
    have hb : ¬ mid.budget.Spent mid.world.now := fun hs => nomatch hspent.mpr hs
    rw [or_iff_right hb]
    dsimp only
    rw [if_neg nofun]
    split
    · rename_i heven
      rw [and_iff_right (show (p.failed + 1) % 2 = 0 from heven), ← sleepOrExpire_expired_iff (e := e), Op.bind_apply]
      rcases hsleep : sleepOrExpire e p.failedOnce.backoff.current mid with ⟨s | _, run'⟩ <;>
        rw [show sleepOrExpire e p.backoff.current mid = _ from hsleep]
      · exact iff_of_eq (by rw [Except.error.injEq, Except.error.injEq])
      · exact iff_of_false nofun nofun
    · rename_i hodd
      exact iff_of_false nofun fun h => hodd h.1

theorem settle_expired_iff : (settle x (.pair p) (.failed e) mid).1 = .error (.failed (.timeoutExpiredAfter e)) ↔
    (e.isTransient ∧ ¬ mid.Renews e) ∧ (mid.budget.Spent mid.world.now ∨
      (p.failed + 1) % 2 = 0 ∧ mid.budget.canSleep mid.world.now p.backoff.current = .ok false) := by
  rw [settle_failed_apply]
  by_cases he : mid.Renews e
  · rw [if_pos he]
    exact iff_of_false nofun fun h => h.1.2 he
  rw [if_neg he]
  by_cases ht : e.isTransient
  · rw [if_pos ht, and_iff_right ⟨ht, he⟩]
    exact afterPairFailure_expired_iff
  · rw [if_neg ht]
    refine iff_of_false (fun h => ?_) fun h => ht h.1.1
    exact ne_timeoutExpiredAfter e (Stop.failed.inj (Except.error.inj h))

/-! ## All rounds -/

/-- An attempt on a pair connects to the target of the round for the time of the turn. -/
theorem roundAttempt_pair {run : LoginRun σ} {res : Except Stop RoundEnd}
    (h : roundAttempt x (.pair p) run = (res, mid)) {target : Target} {timeout : Option Span}
    (hc : Connects run mid target timeout) :
    (roundTarget x (.pair p) run).1 = .ok target ∧
      timeout = some (run.budget.cut run.world.now (p.slice * ((p.failed + 2) / 2))) := by
  obtain ⟨htarget, htimeout⟩ := (roundAttempt_timed h).2 target timeout hc
  exact ⟨htarget, (roundTimeout_pair_eq htimeout).1⟩

end LoginM

/-- Where the rounds of a pair start. -/
def LoginContext.firstTurn (x : LoginContext σ) (partner : DataSource) (onPartner : Bool) (total : Option Span) :
    PairPlan where
  partner := partner
  slice := total.getD Budget.sliceBase * Budget.slicePercent / 100
  backoff := x.config.retry.backoff
  onPartner := onPartner

namespace LoginM

variable {x : LoginContext σ} {attempts : Nat} {plan : LoginPlan} {start mid : LoginRun σ} {partner : DataSource}
  {onPartner : Bool} {rounds later : List (RoundStart σ)} {r : RoundStart σ}

theorem planPair_eq_ok {run : LoginRun σ} (h : planPair x.config partner onPartner start = (.ok plan, run)) :
    plan = .pair (x.firstTurn partner onPartner start.budget.total) := by
  unfold planPair at h
  rw [Op.bind_of_ok (Op.get_apply start), Op.bind_apply, Budget.slice_eq] at h
  split at h
  · rename_i hslice
    split at hslice <;> cases hslice
    cases h
    rfl
  · cases h

/-- Where each round of a pair stands. -/
theorem atTurn_of_course {run : LoginRun σ} (hplan : planPair x.config partner onPartner start = (.ok plan, run))
    (hcourse : course x attempts plan start = rounds ++ r :: later) :
    AtTurn x (x.firstTurn partner onPartner start.budget.total) start.budget.total rounds r := by
  cases planPair_eq_ok hplan
  refine course_split_induction (P := AtTurn x _ start.budget.total) ⟨?_, rfl, ?_⟩ (fun _ _ _ h hb => h.next hb) hcourse
  · rw [LoginContext.turn_nil rfl rfl rfl]
  · rw [LoginContext.failures_nil]
    rfl

theorem roundTarget_pair {p : PairPlan} {run : LoginRun σ} {target : Target}
    (h : (roundTarget x (.pair p) run).1 = .ok target) :
    p.route = some target ∨ p.route = none ∧
      ∃ source, (if p.onPartner then partnerSource p.partner run.partner else .ok x.config.server) = .ok source ∧
        (resolve x.config source run).1 = .ok target := by
  rw [roundTarget_apply, LoginPlan.source_pair, show (LoginPlan.pair p).route = p.route from rfl] at h
  rcases hroute : p.route with _ | redirect <;> rw [hroute] at h
  · refine .inr ⟨rfl, ?_⟩
    rcases hsource : (if p.onPartner then partnerSource p.partner run.partner else .ok x.config.server) with
      e | source <;> rw [hsource] at h
    · cases h
    · exact ⟨source, rfl, h⟩
  · cases h
    exact .inl rfl

end LoginM

namespace AtTurn

variable {x : LoginContext σ} {first : PairPlan} {total : Option Span} {rounds : List (RoundStart σ)}
  {r r' : RoundStart σ} {mid : LoginRun σ}

/-- A failure hands the turn to the other side, after a sleep if both sides have failed. -/
theorem before (h : AtTurn x first total rounds r) {res : Except Stop RoundEnd}
    (ha : LoginM.roundAttempt x r.plan r.run = (res, mid)) (hbefore : r.Before x r') :
    r'.plan.onPartner = (r.plan.onPartner ^^ r.failed x) ∧ (r.failed x = true →
      r'.run = if (x.failures rounds + 1) % 2 = 0 then mid.slept (first.backoff.after (x.failures rounds / 2)).current
        else mid) := by
  obtain ⟨ended, mid', ha', hs⟩ := Op.bind_eq_ok.mp hbefore
  cases ha.symm.trans ha'
  have hc := LoginM.settle_eq_again hs
  have hside : r.plan.onPartner = (x.turn first rounds).onPartner := by rw [h.plan]; rfl
  obtain ⟨plan', run'⟩ := r'
  rw [h.plan] at hc
  rw [hside]
  cases hc with
  | routed _ target =>
    rw [(RoundStart.failed_of_routed ha).1, Bool.xor_false]
    refine ⟨?_, nofun⟩
    show ((x.turn first rounds).withRoute target).onPartner = _
    unfold PairPlan.withRoute
    split <;> rfl
  | renewed _ e he =>
    rw [Bool.eq_false_iff.mpr fun hf => ((RoundStart.failed_of_failed ha).mp hf).2 he, Bool.xor_false]
    exact ⟨rfl, nofun⟩
  | alternated _ e he ht hb hodd =>
    rw [(RoundStart.failed_of_failed ha).mpr ⟨ht, he⟩, Bool.xor_true]
    exact ⟨rfl, fun _ => (if_neg hodd).symm⟩
  | sleptAlternated _ e he ht hb heven hs =>
    rw [(RoundStart.failed_of_failed ha).mpr ⟨ht, he⟩, Bool.xor_true]
    exact ⟨rfl, fun _ => (if_pos heven).symm⟩

/-- The rounds end for want of time after a failure if none is left, or no more than for the next sleep. -/
theorem expired_iff (h : AtTurn x first total rounds r) {e : Error}
    (ha : LoginM.roundAttempt x r.plan r.run = (.ok (.failed e), mid)) :
    (LoginM.round x r.plan r.run).1 = .error (.failed (.timeoutExpiredAfter e)) ↔ r.failed x = true ∧
      (mid.budget.LeavesAtMost mid.world.now 0 ∨ (x.failures rounds + 1) % 2 = 0 ∧
        mid.budget.LeavesAtMost mid.world.now (first.backoff.after (x.failures rounds / 2)).current) := by
  have hends := LoginM.roundAttempt_endsInClock ha
  unfold LoginM.round
  rw [Op.bind_of_ok ha, h.plan, LoginM.settle_expired_iff, RoundStart.failed_of_failed ha,
    Budget.spent_iff_leavesAtMost hends, Budget.canSleep_eq_false_iff hends]
  rfl

end AtTurn

/-- Let `f` be how many attempts of a pair have failed in a way that may pass. The next goes to the other side than the
first exactly if `f` is odd, where that has been redirected to or else to its data source, for as many slices as there
have been pairs, and one more. With each such failure, and in no other way, it becomes the other side's turn, after the
next sleep if both have failed. The rounds end for want of time exactly if none is left after such a failure, or none
beyond that sleep. -/
theorem pair_turns {x : LoginContext σ} {attempts : Nat} {plan : LoginPlan} {start run mid : LoginRun σ}
    {partner : DataSource} {onPartner : Bool} {rounds later : List (RoundStart σ)} {r : RoundStart σ}
    {res : Except Stop RoundEnd} (hplan : LoginM.planPair x.config partner onPartner start = (.ok plan, run))
    (hcourse : LoginM.course x attempts plan start = rounds ++ r :: later)
    (ha : LoginM.roundAttempt x r.plan r.run = (res, mid)) :
    let f := x.failures rounds
    let side := onPartner ^^ decide (f % 2 = 1)
    let slice := start.budget.total.getD (Span.ofSeconds 15) * 8 / 100
    let sleep := (x.config.retry.backoff.after (f / 2)).current
    r.plan.onPartner = side ∧
    (∀ target timeout, Connects r.run mid target timeout →
      (x.remembered rounds side = some target ∨ x.remembered rounds side = none ∧
        ∃ source, (if side then partnerSource partner r.run.partner else .ok x.config.server) = .ok source ∧
          (LoginM.resolve x.config source r.run).1 = .ok target) ∧
      timeout = some (r.run.budget.cut r.run.world.now (slice * ((f + 2) / 2)))) ∧
    rounds.flatMap (·.sleeps x) = x.config.retry.backoff.take (f / 2) ∧
    (∀ r', r.Before x r' → r'.plan.onPartner = (r.plan.onPartner ^^ r.failed x) ∧
      (r.failed x = true → r'.run = if (f + 1) % 2 = 0 then mid.slept sleep else mid)) ∧
    ∀ e, res = .ok (.failed e) →
      ((LoginM.rounds x attempts plan start).1 = .error (.failed (.timeoutExpiredAfter e)) ∧ later = [] ↔
        r.failed x = true ∧ (mid.budget.LeavesAtMost mid.world.now 0 ∨
          (f + 1) % 2 = 0 ∧ mid.budget.LeavesAtMost mid.world.now sleep)) := by
  have hturn := LoginM.atTurn_of_course hplan hcourse
  refine ⟨?_, fun target timeout hc => ?_, hturn.sleeps, fun r' hbefore => hturn.before ha hbefore, fun e he => ?_⟩
  · rw [hturn.plan]
    rfl
  · rw [hturn.plan] at ha
    obtain ⟨htarget, htimeout⟩ := LoginM.roundAttempt_pair ha hc
    have hside := LoginM.roundTarget_pair htarget
    rw [LoginContext.turn_route] at hside
    exact ⟨hside, htimeout⟩
  · subst he
    refine (LoginM.rounds_stop_iff (fun h => ?_) hcourse).trans (hturn.expired_iff ha)
    cases h

/-- A pair whose first sleep is as long as its budget. -/
def idlePair : LoginStart where
  config :=
    { pairedLogin.config with retry := { initialBackoff := Span.ofSeconds 1, maxBackoff := Span.ofSeconds 1 } }

/-- What it starts from, its first round where nobody is let in, the state in which that ends, and its second. -/
def idlePlan : PairPlan where
  partner := .ofHost "mirror"
  slice := 80000000
  backoff := idlePair.config.retry.backoff
  onPartner := false

def idleContext : LoginContext LoginScript := idlePair.context (LineFaults.server {})

def idleRound : RoundStart LoginScript := ⟨.pair idlePlan, idlePair.begun closedWorld⟩

def idleRoundEnd : LoginRun LoginScript := (LoginM.roundAttempt idleContext idleRound.plan idleRound.run).2

def idleTurn : RoundStart LoginScript := ⟨.pair idlePlan.failedOnce, idleRoundEnd⟩

def idleTurnEnd : LoginRun LoginScript := (LoginM.roundAttempt idleContext idleTurn.plan idleTurn.run).2

/-- It is the partner's turn once the primary has refused, for a first slice, and no sleep fits after that. -/
theorem idleTurn_runs_out :
    idleTurn.plan.onPartner = true ∧
      (∀ target timeout, Connects idleTurn.run idleTurnEnd target timeout → timeout = some 80000000) ∧
      (LoginM.rounds idleContext 2 idleRound.plan idleRound.run).1 =
        .error (.failed (.timeoutExpiredAfter (.io "connection to mirror refused by script"))) := by
  have hplan : LoginM.planPair idleContext.config (.ofHost "mirror") false idleRound.run =
      (.ok idleRound.plan, idleRound.run) := by rfl
  have hround : LoginM.round idleContext idleRound.plan idleRound.run = (.ok (.again idleTurn.plan), idleTurn.run) := by
    rfl
  have hrefused : (LoginM.roundAttempt idleContext idleTurn.plan idleTurn.run).1 =
      .ok (.failed (.io "connection to mirror refused by script")) := by rfl
  have hfailures : idleContext.failures [idleRound] = 1 := by decide +kernel
  have hfailed : idleTurn.failed idleContext = true := by decide +kernel
  obtain ⟨later, hsecond, -⟩ := LoginM.course_succ idleContext 0 idleTurn.plan idleTurn.run
  have hcourse : LoginM.course idleContext 2 idleRound.plan idleRound.run = [idleRound] ++ idleTurn :: later := by
    rw [LoginM.course, hround]
    exact congrArg _ hsecond
  have ha : LoginM.roundAttempt idleContext idleTurn.plan idleTurn.run =
      (.ok (.failed (.io "connection to mirror refused by script")), idleTurnEnd) := Prod.ext hrefused rfl
  obtain ⟨hside, hconnects, -, -, hends⟩ := pair_turns hplan hcourse ha
  rw [hfailures] at hside hconnects hends
  refine ⟨hside, fun target timeout hc => (hconnects target timeout hc).2.trans (by decide +kernel), ?_⟩
  exact ((hends _ rfl).mpr ⟨hfailed, .inr ⟨rfl, Span.ofSeconds 1, by rfl, by decide +kernel⟩⟩).1

end TdsSession
