import Mathlib.Algebra.Order.Floor.Div
import TdsSession.Proofs.Login.Duration
import TdsSession.Proofs.Login.TimeBudget

/-!
# How many attempts a login makes

A round that is followed by another uses something up: a redirect, a sleep, the
renewal of the budget, the change to two hosts, or the turn of the second host
of a pair. `LoginRun.roundsLeft` counts what is left of all these. It goes down
with every round (`LoginM.roundsLeft_lt`), so that a login with a budget and
with sleeps that are not empty comes to an end, after a number of attempts that
depends on its options alone (`login_terminates`).
-/

namespace TdsSession

variable {σ : Type}

/-! ## Sleeps -/

/-- How many sleeps of at least `δ` end before a budget does of which `left` is left. -/
def sleepsWithin (δ left : Span) : Nat := (left - 1) / δ

theorem sleepsWithin_mono {δ left left' : Span} (h : left ≤ left') :
    sleepsWithin δ left ≤ sleepsWithin δ left' :=
  Nat.div_le_div_right (Nat.sub_le_sub_right h 1)

/-- A sleep leaves one sleep less. -/
theorem sleepsWithin_sub {δ d left : Span} (hδ : 0 < δ) (hd : δ ≤ d) (h : d < left) :
    sleepsWithin δ (left - d) + 1 ≤ sleepsWithin δ left := by
  unfold sleepsWithin
  rw [← Nat.add_div_right _ hδ]
  refine Nat.div_le_div_right ?_
  simp only [Span] at *
  omega

theorem sleepsWithin_add_one {δ total : Span} (hδ : 0 < δ) (h : 0 < total) :
    sleepsWithin δ total + 1 = total ⌈/⌉ δ := by
  rw [Nat.ceilDiv_eq_add_pred_div, sleepsWithin, ← Nat.add_div_right _ hδ]
  congr 1
  simp only [Span] at *
  omega

/-- No sleep is shorter than `δ`, and the sleeps of the schedule do not go beyond its ceiling. -/
structure Backoff.AtLeast (δ : Span) (b : Backoff) : Prop where
  le_current : δ ≤ b.current
  current_le : b.current ≤ b.ceiling

theorem Backoff.AtLeast.next {δ : Span} {b : Backoff} (h : b.AtLeast δ) : b.next.AtLeast δ :=
  have hnext := Backoff.current_le_next h.current_le
  ⟨Nat.le_trans h.le_current hnext.1, hnext.2⟩

theorem Backoff.AtLeast.start (initial ceiling : Span) :
    (Backoff.start initial ceiling).AtLeast (min initial ceiling) :=
  ⟨Nat.le_refl _, Backoff.current_start_le initial ceiling⟩

/-! ## What is left -/

namespace LoginPlan

/-- The sleeps of a plan. -/
def backoff : LoginPlan → Backoff
  | .single p => p.backoff
  | .pair p => p.backoff

/-- How many rounds follow without a sleep, a redirect or a renewal, at most. -/
def spare : LoginPlan → Nat
  | .single _ => 2
  | .pair p => if p.failed % 2 = 0 then 1 else 0

theorem spare_withRoute (plan : LoginPlan) (target : Target) : (plan.withRoute target).spare = plan.spare := by
  cases plan with
  | single p => rfl
  | pair p =>
    show spare (.pair (p.withRoute target)) = _
    unfold PairPlan.withRoute
    split <;> rfl

theorem backoff_withRoute (plan : LoginPlan) (target : Target) :
    (plan.withRoute target).backoff = plan.backoff := by
  cases plan with
  | single p => rfl
  | pair p =>
    show backoff (.pair (p.withRoute target)) = _
    unfold PairPlan.withRoute
    split <;> rfl

end LoginPlan

namespace LoginRun

/-- How often the budget can still be renewed. -/
def renewalsLeft (run : LoginRun σ) : Nat := if run.tokenRetry = .retrying then 0 else 1

/-- A renewal is the only one. -/
theorem renewalsLeft_of_renews {run : LoginRun σ} {e : Error} (h : run.Renews e) :
    run.renewalsLeft = 1 ∧ run.restarted.renewalsLeft = 0 := by
  refine ⟨?_, rfl⟩
  unfold renewalsLeft
  rw [h.1, if_neg (by decide)]

/-- How many rounds may follow one that starts from `run` with `plan`, if the budget is `total` and no sleep
is shorter than `δ`. -/
def roundsLeft (c : Config) (δ total : Span) (plan : LoginPlan) (run : LoginRun σ) : Nat :=
  2 * (sleepsWithin δ (run.budget.start + total - run.world.now) + run.renewalsLeft * sleepsWithin δ total) +
    (c.redirect.limit - run.redirects) + run.renewalsLeft + plan.spare

end LoginRun

/-- A round of a login with a budget starts when the flag for the token is in step with the trace, and no
sleep is shorter than `δ`. -/
structure RoundStart.Paced (δ total : Span) (r : RoundStart σ) : Prop where
  limited : r.run.budget.total = some total
  token : r.run.tokenRetry = .ofTrace r.run.world.trace
  sleeps : r.plan.backoff.AtLeast δ

/-! ## A round uses something up -/

namespace LoginM

variable {x : LoginContext σ} {attempts : Nat} {plan plan' : LoginPlan} {run run' mid : LoginRun σ}
  {r r' : RoundStart σ} {δ total : Span}

/-- A redirect that is followed is one of those that the options allow. -/
theorem redirects_of_routed {target : Target} (h : roundAttempt x plan run = (.ok (.routed target), mid)) :
    run.redirects < x.config.redirect.limit ∧ mid.redirects = run.redirects + 1 := by
  obtain ⟨source, -, hcounted, hlimit⟩ := roundAttempt_recorded h
  exact ⟨hlimit rfl, hcounted⟩

/-- An attempt does not make a renewal possible again. -/
theorem renewalsLeft_le {r : Except Stop RoundEnd} (ha : roundAttempt x plan run = (r, mid))
    (htoken : run.tokenRetry = .ofTrace run.world.trace) : mid.renewalsLeft ≤ run.renewalsLeft := by
  unfold LoginRun.renewalsLeft
  by_cases hrun : run.tokenRetry = .retrying
  · have hrenewed := (TokenRetry.ofTrace_eq_retrying_iff _).mp (htoken ▸ hrun)
    have hmid : mid.tokenRetry = .retrying := by
      rw [(RoundFrame.roundAttempt ha).token htoken]
      exact (TokenRetry.ofTrace_eq_retrying_iff _).mpr (hrenewed.mono (roundAttempt_grows ha))
    rw [if_pos hmid]
    exact Nat.zero_le _
  · rw [if_neg hrun]
    split <;> decide

/-- An attempt uses up a redirect if it ends with one, and gives nothing back. -/
theorem roundsLeft_of_attempt {ended : RoundEnd} (ha : roundAttempt x plan run = (.ok ended, mid))
    (htoken : run.tokenRetry = .ofTrace run.world.trace) :
    mid.roundsLeft x.config δ total plan + (if ended matches .routed _ then 1 else 0) ≤
      run.roundsLeft x.config δ total plan := by
  have hframe := RoundFrame.roundAttempt ha
  have hsleeps : sleepsWithin δ (mid.budget.start + total - mid.world.now) ≤
      sleepsWithin δ (run.budget.start + total - run.world.now) := by
    rw [hframe.budget]
    exact sleepsWithin_mono (Nat.sub_le_sub_left hframe.now _)
  have hrenewals := renewalsLeft_le ha htoken
  have hlater : mid.renewalsLeft * sleepsWithin δ total ≤ run.renewalsLeft * sleepsWithin δ total :=
    Nat.mul_le_mul_right _ hrenewals
  have hredirects : x.config.redirect.limit - mid.redirects + (if ended matches .routed _ then 1 else 0) ≤
      x.config.redirect.limit - run.redirects := by
    have hmono := hframe.redirects
    cases ended with
    | routed target =>
      obtain ⟨hlt, heq⟩ := redirects_of_routed ha
      simp only [if_true]
      omega
    | opened e =>
      simp only [Bool.false_eq_true, if_false]
      omega
    | failed e =>
      simp only [Bool.false_eq_true, if_false]
      omega
  unfold LoginRun.roundsLeft
  omega

/-- After a sleep there is one sleep less. -/
theorem sleepsWithin_slept {span : Span} (ht : mid.budget.total = some total) (hδ : 0 < δ) (hs : δ ≤ span)
    (hfits : mid.budget.canSleep mid.world.now span = .ok true) :
    sleepsWithin δ ((mid.slept span).budget.start + total - (mid.slept span).world.now) + 1 ≤
      sleepsWithin δ (mid.budget.start + total - mid.world.now) := by
  have hend := Budget.add_lt_of_canSleep ht hfits
  have hspan : span < mid.budget.start + total - mid.world.now := by
    simp only [Moment, Span] at *
    omega
  have hleft : (mid.slept span).budget.start + total - (mid.slept span).world.now =
      mid.budget.start + total - mid.world.now - span := (Nat.sub_sub ..).symm
  rw [hleft]
  exact sleepsWithin_sub hδ hs hspan

/-- What follows a failure uses something up. -/
theorem roundsLeft_of_continues {ended : RoundEnd} (hc : Continues x mid plan ended plan' run')
    (ht : mid.budget.total = some total) (hδ : 0 < δ) (hs : plan.backoff.AtLeast δ) :
    run'.roundsLeft x.config δ total plan' + (if ended matches .routed _ then 0 else 1) ≤
      mid.roundsLeft x.config δ total plan := by
  cases hc with
  | routed plan target =>
    unfold LoginRun.roundsLeft
    rw [LoginPlan.spare_withRoute]
    exact Nat.le_refl _
  | renewed plan e he =>
    obtain ⟨hbefore, hafter⟩ := LoginRun.renewalsLeft_of_renews he
    have hleft : mid.restarted.budget.start + total - mid.restarted.world.now = total :=
      Nat.add_sub_cancel_left ..
    have hredirects : mid.restarted.redirects = mid.redirects := rfl
    unfold LoginRun.roundsLeft
    rw [hbefore, hafter, hleft, hredirects]
    simp only [Bool.false_eq_true, if_false]
    omega
  | slept p e he htr hp hfits =>
    have hshort : δ ≤ p.backoff.current := hs.le_current
    have hsleeps := sleepsWithin_slept ht hδ hshort hfits
    unfold LoginRun.roundsLeft
    show 2 * (_ + mid.renewalsLeft * _) + (x.config.redirect.limit - mid.redirects) + mid.renewalsLeft + 2 + 1 ≤
      _ + 2
    omega
  | switched p e he htr name hp hm partner hparse slice hb =>
    exact Nat.le_refl _
  | alternated p e he htr hb hodd =>
    have hspare : (LoginPlan.pair p).spare = 1 ∧ (LoginPlan.pair p.failedOnce).spare = 0 := by
      unfold LoginPlan.spare PairPlan.failedOnce
      constructor
      · exact if_pos (by omega)
      · exact if_neg hodd
    unfold LoginRun.roundsLeft
    rw [hspare.1, hspare.2]
    exact Nat.le_refl _
  | sleptAlternated p e he htr hb heven hfits =>
    have hshort : δ ≤ p.backoff.current := hs.le_current
    have hsleeps := sleepsWithin_slept ht hδ hshort hfits
    have hspare : (LoginPlan.pair { p.failedOnce with backoff := p.backoff.next }).spare = 1 :=
      if_pos heven
    unfold LoginRun.roundsLeft
    rw [hspare]
    show 2 * (_ + mid.renewalsLeft * _) + (x.config.redirect.limit - mid.redirects) + mid.renewalsLeft + 1 + 1 ≤ _
    omega

/-- The sleeps of the next round are those of this one, the next ones, or those of the beginning. -/
theorem atLeast_of_continues {ended : RoundEnd} (hc : Continues x mid plan ended plan' run')
    (hx : x.config.retry.backoff.AtLeast δ) (hs : plan.backoff.AtLeast δ) : plan'.backoff.AtLeast δ := by
  cases hc with
  | routed plan target =>
    rw [LoginPlan.backoff_withRoute]
    exact hs
  | renewed => exact hs
  | slept => exact hs.next
  | switched => exact hx
  | alternated => exact hs
  | sleptAlternated => exact hs.next

/-- A round that is followed by another leaves less to be used up. -/
theorem roundsLeft_lt (h : r.Before x r') (hδ : 0 < δ) (hx : x.config.retry.backoff.AtLeast δ)
    (hr : r.Paced δ total) :
    r'.Paced δ total ∧ r'.run.roundsLeft x.config δ total r'.plan < r.run.roundsLeft x.config δ total r.plan := by
  obtain ⟨ended, mid, ha, hc⟩ := before_cases h
  have hmid : mid.budget.total = some total := by
    rw [(RoundFrame.roundAttempt ha).budget]
    exact hr.limited
  constructor
  · refine ⟨?_, tokenRetry_of_before h hr.token, atLeast_of_continues hc hx hr.sleeps⟩
    rw [total_of_before h]
    exact hr.limited
  · have hattempt : mid.roundsLeft x.config δ total r.plan + _ ≤ _ := roundsLeft_of_attempt ha hr.token
    have hafter := roundsLeft_of_continues hc hmid hδ hr.sleeps
    cases ended with
    | routed target =>
      simp only [if_true] at hattempt hafter
      omega
    | opened e =>
      simp only [Bool.false_eq_true, if_false] at hattempt hafter
      omega
    | failed e =>
      simp only [Bool.false_eq_true, if_false] at hattempt hafter
      omega

/-- The rounds are no more than what is left to be used up, and one. -/
theorem length_course_le (hδ : 0 < δ) (hx : x.config.retry.backoff.AtLeast δ) (attempts : Nat)
    (h : RoundStart.Paced δ total ⟨plan, run⟩) :
    (course x attempts plan run).length ≤ run.roundsLeft x.config δ total plan + 1 := by
  induction attempts generalizing plan run with
  | zero => exact Nat.zero_le _
  | succ attempts ih =>
    obtain ⟨rest, hcourse, hrest⟩ := course_succ x attempts plan run
    rw [hcourse, List.length_cons]
    rcases hrest with ⟨rfl, -⟩ | ⟨plan', run', hround, rfl⟩
    · exact Nat.succ_le_succ (Nat.zero_le _)
    · have hbefore : RoundStart.Before x ⟨plan, run⟩ ⟨plan', run'⟩ := hround
      obtain ⟨hnext, hlt⟩ := roundsLeft_lt hbefore hδ hx h
      exact Nat.succ_le_succ (Nat.le_trans (ih hnext) hlt)

/-! ## Enough attempts -/

/-- Where there are fewer rounds than are allowed, allowing fewer changes nothing. -/
theorem rounds_eq_of_length (h : (course x (attempts + 1) plan run).length ≤ attempts) :
    rounds x (attempts + 1) plan run = rounds x attempts plan run := by
  induction attempts generalizing plan run with
  | zero => exact absurd h (by simp [course])
  | succ attempts ih =>
    obtain ⟨rest, hcourse, hrest⟩ := course_succ x (attempts + 1) plan run
    rw [hcourse, List.length_cons] at h
    rw [rounds, rounds, Op.bind_apply, Op.bind_apply]
    rcases hround : round x plan run with ⟨s | e | plan', run'⟩
    · rfl
    · rfl
    · rcases hrest with ⟨-, hlast⟩ | ⟨plan'', run'', hround', rfl⟩
      · exact absurd hround (hlast plan' run')
      · rw [hround] at hround'
        cases hround'
        exact ih (Nat.le_of_succ_le_succ h)

/-- Only a round too many exhausts the attempts. -/
theorem length_course_of_exhausted (hrun : run.Limited) (h : rounds x attempts plan run = (.error .exhausted, run')) :
    (course x (attempts + 1) plan run).length = attempts + 1 := by
  induction attempts generalizing plan run with
  | zero =>
    obtain ⟨rest, hcourse, ⟨rfl, -⟩ | ⟨plan', run', -, rfl⟩⟩ := course_succ x 0 plan run <;>
      rw [hcourse] <;> rfl
  | succ attempts ih =>
    have hend := round_ends (x := x) plan run hrun
    obtain ⟨rest, hcourse, hrest⟩ := course_succ x (attempts + 1) plan run
    rw [rounds, Op.bind_apply] at h
    rcases hround : round x plan run with ⟨s | e | plan', mid⟩ <;> rw [hround] at h hend
    · cases h
      exact hend.2.elim
    · cases h
    · rcases hrest with ⟨-, hlast⟩ | ⟨plan'', run'', hround', rfl⟩
      · exact absurd hround (hlast plan' mid)
      · rw [hround] at hround'
        cases hround'
        rw [hcourse, List.length_cons, ih hend.1 h]

/-! ## Attempts -/

end LoginM

/-- No attempt is made, no connection, and no redirect is followed. -/
structure LoginRun.Idles (run run' : LoginRun σ) : Prop where
  attempts : run'.attempts = run.attempts
  connects : run'.world.connects = run.world.connects
  redirects : run'.redirects = run.redirects

instance : IsPreorder (LoginRun σ) LoginRun.Idles where
  refl _ := ⟨rfl, rfl, rfl⟩
  trans _ _ _ h₁ h₂ :=
    ⟨h₂.attempts.trans h₁.attempts, h₂.connects.trans h₁.connects, h₂.redirects.trans h₁.redirects⟩

theorem Follows.idles {mid run' : LoginRun σ} (h : Follows mid run') : mid.Idles run' := by
  cases h <;> exact ⟨rfl, rfl, rfl⟩

namespace LoginM

variable {x : LoginContext σ} {attempts : Nat} {plan : LoginPlan} {run mid : LoginRun σ}

/-- An attempt is recorded once. -/
theorem roundAttempt_attempts {r : Except Stop RoundEnd} (h : roundAttempt x plan run = (r, mid)) :
    mid.attempts.length ≤ run.attempts.length + 1 := by
  cases r with
  | ok ended =>
    obtain ⟨target, hattempts, -⟩ := roundAttempt_recorded h
    rw [hattempts]
    exact Nat.le_refl _
  | error s =>
    rw [(roundAttempt_unrecorded h).1]
    exact Nat.le_succ _

/-- A round makes one attempt and one connection at most. -/
theorem round_attempts (x : LoginContext σ) (plan : LoginPlan) (run : LoginRun σ) :
    (round x plan run).2.attempts.length ≤ run.attempts.length + 1 ∧
      (round x plan run).2.world.connects ≤ run.world.connects + 1 := by
  have attempt {r : Except Stop RoundEnd} {mid : LoginRun σ} (ha : roundAttempt x plan run = (r, mid)) :
      mid.attempts.length ≤ run.attempts.length + 1 ∧ mid.world.connects ≤ run.world.connects + 1 := by
    refine ⟨roundAttempt_attempts ha, ?_⟩
    rcases roundAttempt_connects ha with ⟨hsame, -⟩ | ⟨target, timeout, -, hconnects⟩
    · rw [hsame]
      exact Nat.le_succ _
    · exact Nat.le_of_eq hconnects.connects
  rcases ha : roundAttempt x plan run with ⟨s | ended, mid⟩
  · rw [round, Op.bind_of_error ha]
    exact attempt ha
  · rw [round, Op.bind_of_ok ha]
    obtain ⟨hattempts, hconnects, -⟩ := (settle_follows x plan ended mid).idles
    rw [hattempts, hconnects]
    exact attempt ha

theorem rounds_attempts (x : LoginContext σ) (attempts : Nat) (plan : LoginPlan) (run : LoginRun σ) :
    (rounds x attempts plan run).2.attempts.length ≤
        run.attempts.length + (course x attempts plan run).length ∧
      (rounds x attempts plan run).2.world.connects ≤
        run.world.connects + (course x attempts plan run).length := by
  induction attempts generalizing plan run with
  | zero => exact ⟨Nat.le_refl _, Nat.le_refl _⟩
  | succ attempts ih =>
    have hone := round_attempts x plan run
    obtain ⟨rest, hcourse, hrest⟩ := course_succ x attempts plan run
    rw [rounds, hcourse, List.length_cons, Op.bind_apply]
    rcases hround : round x plan run with ⟨s | e | plan', run'⟩ <;> rw [hround] at hone <;> dsimp only at hone ⊢
    · omega
    · show run'.attempts.length ≤ _ ∧ run'.world.connects ≤ _
      omega
    · rcases hrest with ⟨-, hlast⟩ | ⟨plan'', run'', hround', rfl⟩
      · exact absurd hround (hlast plan' run')
      · rw [hround] at hround'
        cases hround'
        have hmore := ih plan' run'
        omega

end LoginM

/-- After its rounds a login makes no attempt. -/
theorem LoginM.establish_idles {x : LoginContext σ} (attempts : Nat) (run : LoginRun σ)
    (hx : x.config.partnersConflict = false) :
    (allRounds x attempts run).2.Idles (establish x attempts run).2 := by
  refine establish_keeps hx (fun _ _ => ⟨rfl, rfl, rfl⟩) fun e conflict run' _ => ?_
  refine refuse_keeps (fun _ _ => ⟨rfl, rfl, rfl⟩) ?_ conflict run'
  refine Op.Keeps.inWorld (WorldM.discard_keeps e.transport) fun run w hw => ⟨rfl, ?_, rfl⟩
  have hframe : SettleFrame (Event.ofCall e.transport.number) run { run with world := w } := .inWorld hw
  exact hframe.connects

namespace LoginStart

variable {s : LoginStart} {server : Server σ} {attempts : Nat} {w : World σ}

theorem login_idles (server : Server σ) (attempts : Nat) (s : LoginStart) (w : World σ) :
    (LoginM.establish (s.context server) attempts (s.begun w)).2.Idles (login server attempts s w).2 :=
  login_keeps (R := LoginRun.Idles) (fun _ _ => ⟨rfl, rfl, rfl⟩) (fun _ _ => ⟨rfl, rfl, rfl⟩) server attempts s w

/-- The first plan has the sleeps of the options. -/
theorem firstPlan_backoff {c : Config} {plan : LoginPlan} {run run' : LoginRun σ}
    (h : LoginM.firstPlan c run = (.ok plan, run')) : plan.backoff = c.retry.backoff ∧ plan.spare ≤ 2 := by
  rw [LoginM.firstPlan_apply] at h
  rcases hslice : run.budget.slice with o | slice <;> rw [hslice] at h
  · cases h
  rcases hpartner : c.partner with _ | partner <;> rw [hpartner] at h <;> cases h
  · exact ⟨rfl, Nat.le_refl _⟩
  · exact ⟨rfl, Nat.le_succ 1⟩

section

variable {total : Span} (ht : s.config.loginBudget = some total)
  (hδ : 0 < min s.config.retry.initialBackoff s.config.retry.maxBackoff)

include ht hδ

/-- A login has no more rounds than its options allow. -/
theorem length_course_le (server : Server σ) (attempts : Nat) (w : World σ) :
    (s.course server attempts w).length ≤
      4 * (total ⌈/⌉ min s.config.retry.initialBackoff s.config.retry.maxBackoff) + s.config.redirect.limit := by
  rcases course_cases s server attempts w with ⟨hnil, -⟩ | ⟨plan, -, hplan, hcourse⟩
  · rw [hnil]
    exact Nat.zero_le _
  have hx : s.config.retry.backoff.AtLeast (min s.config.retry.initialBackoff s.config.retry.maxBackoff) :=
    .start ..
  obtain ⟨hbackoff, hspare⟩ := firstPlan_backoff hplan
  have hpaced : RoundStart.Paced (min s.config.retry.initialBackoff s.config.retry.maxBackoff) total
      ⟨plan, s.begun w⟩ := ⟨ht, rfl, hbackoff ▸ hx⟩
  have hlength := LoginM.length_course_le (x := s.context server) hδ hx attempts hpaced
  have hpos : 0 < total := Nat.pos_of_ne_zero fun h0 => loginBudget_ne_zero s.config (by rw [ht, h0])
  have hleft : (s.begun w).budget.start + total - (s.begun w).world.now = total := Nat.add_sub_cancel_left ..
  have hrenewals : (s.begun w).renewalsLeft = 1 := rfl
  rw [hcourse, ← sleepsWithin_add_one hδ hpos]
  refine Nat.le_trans hlength ?_
  unfold LoginRun.roundsLeft
  rw [hleft, hrenewals]
  show 2 * _ + (s.config.redirect.limit - 0) + 1 + plan.spare + 1 ≤ _
  omega

end

/-- A login makes no more attempts than it has rounds. -/
theorem attempts_le (server : Server σ) (attempts : Nat) (s : LoginStart) (w : World σ) :
    (login server attempts s w).2.attempts.length ≤ (s.course server attempts w).length ∧
      (login server attempts s w).2.world.connects ≤ w.connects + (s.course server attempts w).length := by
  have hlogin := login_idles server attempts s w
  rw [hlogin.attempts, hlogin.connects]
  rcases hx : s.config.partnersConflict with _ | _
  · have hestablish := LoginM.establish_idles (x := s.context server) attempts (s.begun w) hx
    rw [hestablish.attempts, hestablish.connects]
    rcases LoginM.firstPlan_cases s.config (s.begun w) with ⟨plan, hplan⟩ | hover
    · have hrounds := LoginM.rounds_attempts (s.context server) attempts plan (s.begun w)
      rw [allRounds_eq hplan, course_eq hx hplan]
      exact ⟨Nat.le_trans hrounds.1 (Nat.le_of_eq (Nat.zero_add _)), hrounds.2⟩
    · rw [allRounds_of_overflow hover]
      exact ⟨Nat.zero_le _, Nat.le_add_right ..⟩
  · unfold LoginM.establish
    simp only [show (s.context server).config.partnersConflict = true from hx, if_true]
    exact ⟨Nat.zero_le _, Nat.le_add_right ..⟩

/-- A login depends on its rounds alone. -/
theorem login_congr {attempts' : Nat}
    (h : s.config.partnersConflict = false →
      LoginM.allRounds (s.context server) attempts (s.begun w) =
        LoginM.allRounds (s.context server) attempts' (s.begun w)) :
    login server attempts s w = login server attempts' s w := by
  have hestablish : LoginM.establish (s.context server) attempts (s.begun w) =
      LoginM.establish (s.context server) attempts' (s.begun w) := by
    unfold LoginM.establish
    split
    · rfl
    · rename_i hx
      dsimp only
      rw [Op.bind_apply, Op.bind_apply, LoginM.attempted_apply, LoginM.attempted_apply,
        h (Bool.eq_false_iff.mpr hx)]
  rw [login_apply, login_apply, hestablish]

/-- Where there are fewer rounds than are allowed, allowing one less changes nothing. -/
theorem login_succ (h : (s.course server (attempts + 1) w).length ≤ attempts) :
    login server (attempts + 1) s w = login server attempts s w := by
  refine login_congr fun hx => ?_
  rcases LoginM.firstPlan_cases s.config (s.begun w) with ⟨plan, hplan⟩ | hover
  · rw [course_eq hx hplan] at h
    rw [allRounds_eq hplan, allRounds_eq hplan, LoginM.rounds_eq_of_length h]
  · rw [allRounds_of_overflow hover, allRounds_of_overflow hover]

/-- Where there are fewer rounds than are allowed, the attempts are not exhausted. -/
theorem allRounds_ne_exhausted (ht : s.config.loginBudget ≠ none) (hw : w.Patient)
    (hx : s.config.partnersConflict = false) (h : (s.course server (attempts + 1) w).length ≤ attempts) :
    (LoginM.allRounds (s.context server) attempts (s.begun w)).1 ≠ .error .exhausted := by
  rcases LoginM.firstPlan_cases s.config (s.begun w) with ⟨plan, hplan⟩ | hover
  · rw [course_eq hx hplan] at h
    rw [allRounds_eq hplan]
    intro hexhausted
    have hlimited : (s.begun w).Limited := ⟨hw, ht⟩
    rw [LoginM.length_course_of_exhausted hlimited (Prod.ext hexhausted rfl)] at h
    exact Nat.not_succ_le_self _ h
  · rw [allRounds_of_overflow hover]
    rintro ⟨⟩

/-- A login whose slices the clock cannot show makes no attempt. -/
theorem login_of_slice_overflow (hx : s.config.partnersConflict = false)
    (hslice : Span.limit ≤ s.config.loginBudget.getD Budget.sliceBase * Budget.slicePercent) :
    login server attempts s w = (.error .overflow, s.begun w) := by
  have hover : (s.begun w).budget.slice = .error .overflow := by
    rw [Budget.slice_eq]
    exact if_neg (Nat.not_lt.mpr hslice)
  have hplan : LoginM.firstPlan s.config (s.begun w) = (.error .overflow, s.begun w) := by
    rw [LoginM.firstPlan_apply, hover]
  exact login_of_rounds_stopped (fun _ => nofun) hx (allRounds_of_overflow hplan)

end LoginStart

/-- A login with a budget and with sleeps that are not empty makes only so many attempts, and to allow it more
changes nothing. A caller that waits for it is left waiting exactly if the login opens a session whose server
names a partner that the options do not allow, over a transport that never closes. Otherwise the login succeeds
or fails, or the clock cannot show a time. -/
theorem login_terminates (server : Server σ) (s : LoginStart) (w : World σ) {total : Span}
    (ht : s.config.loginBudget = some total)
    (hδ : 0 < min s.config.retry.initialBackoff s.config.retry.maxBackoff) :
    ∃ most, most ≤ 4 * (total ⌈/⌉ min s.config.retry.initialBackoff s.config.retry.maxBackoff) +
        s.config.redirect.limit ∧
      (∀ attempts, (login server attempts s w).2.attempts.length ≤ most ∧
        (login server attempts s w).2.world.connects ≤ w.connects + most) ∧
      (∀ attempts, most ≤ attempts → login server attempts s w = login server most s w) ∧
      (w.Patient →
        (∀ t, (login server most s w).1 = .error t → t.ofRound ∨ t = .abandoned) ∧
        ((login server most s w).1 = .error .abandoned ↔
          LoginM.StuckClosing (s.context server) most (s.begun w)) ∧
        (server.Closes (fun c => c.delay ≠ none) → ∀ t, (login server most s w).1 = .error t → t.ofRound)) := by
  have hbudget : s.config.loginBudget ≠ none := by
    rw [ht]
    exact Option.some_ne_none total
  obtain ⟨most, hmost, hlength⟩ : ∃ most, most ≤ 4 * (total ⌈/⌉ min s.config.retry.initialBackoff
      s.config.retry.maxBackoff) + s.config.redirect.limit ∧
      ∀ attempts w, (s.course server attempts w).length ≤ most :=
    ⟨_, Nat.le_refl _, LoginStart.length_course_le ht hδ server⟩
  refine ⟨most, hmost, fun attempts => ?_, fun attempts hle => ?_, fun hw => ?_⟩
  · obtain ⟨hattempts, hconnects⟩ := LoginStart.attempts_le server attempts s w
    exact ⟨Nat.le_trans hattempts (hlength attempts w),
      Nat.le_trans hconnects (Nat.add_le_add_left (hlength attempts w) _)⟩
  · induction attempts, hle using Nat.le_induction with
    | base => rfl
    | succ attempts hle ih => rw [LoginStart.login_succ (Nat.le_trans (hlength _ w) hle), ih]
  · have hends {t : Stop} (h : (login server most s w).1 = .error t) : t.ofRound ∨
        (t = .abandoned ∧ LoginM.StuckClosing (s.context server) most (s.begun w)) := by
      rcases LoginStart.login_ends hbudget hw h with hround | ⟨-, hx, hexhausted⟩ | hstuck
      · exact .inl hround
      · exact absurd hexhausted (LoginStart.allRounds_ne_exhausted hbudget hw hx (hlength _ w))
      · exact .inr hstuck
    exact ⟨fun t h => (hends h).imp_right And.left, LoginStart.login_abandoned_iff hbudget hw,
      fun hclose t h => (hends h).resolve_right fun hstuck => LoginM.not_stuckClosing hclose hstuck.2⟩

/-- A world in which every connection is refused. -/
def refusingWorld : World LoginScript := { server := {} }

/-- A login that has a second and begins with sleeps of a tenth of it makes four attempts if all are refused,
where fifty are the most that its options allow. -/
theorem refusingWorld_terminates :
    (login (LineFaults.server {}) 50 hastyLogin refusingWorld).2.world.connections =
        [(0, "primary", some 1000000000), (100000000, "primary", some 900000000),
          (300000000, "primary", some 700000000), (700000000, "primary", some 300000000)] ∧
      ∃ most, most ≤ 50 ∧
        (∀ attempts, (login (LineFaults.server {}) attempts hastyLogin refusingWorld).2.attempts.length ≤ most) ∧
        (∀ attempts, most ≤ attempts → login (LineFaults.server {}) attempts hastyLogin refusingWorld =
          login (LineFaults.server {}) most hastyLogin refusingWorld) ∧
        ∀ t, (login (LineFaults.server {}) most hastyLogin refusingWorld).1 = .error t → t.ofRound := by
  obtain ⟨most, hmost, hattempts, hsame, hends⟩ :=
    login_terminates (LineFaults.server {}) hastyLogin refusingWorld rfl (by decide)
  have hcloses : (LineFaults.server {}).Closes fun c => c.delay ≠ none :=
    (LineFaults.server_closes {}).of_atOnce
  refine ⟨by decide +kernel, most, ?_, fun attempts => (hattempts attempts).1, hsame, (hends rfl).2.2 hcloses⟩
  rw [Nat.ceilDiv_eq_add_pred_div] at hmost
  exact hmost

/-- The same server, except that its transports never close. -/
def Server.neverClosing (server : Server σ) : Server σ where
  connect st n target timeout :=
    let (answer, next) := server.connect st n target timeout
    let sealed (line : Line) : Line := { line with disconnect := { line.disconnect with delay := none } }
    ({ answer with value := answer.value.map sealed }, next)

/-- A login to a host with many addresses. -/
def spreadLogin : LoginStart := { config := { server := .ofHost "primary", multiSubnet := true } }

/-- A server that lets everybody in, and names a partner. -/
def pairedWorld : World LoginScript :=
  { server := { fallback := .success [.textChange .mirroringPartner "mirror" ""] } }

/-- A login that has all the time that a span can hold. -/
def endlessLogin : LoginStart :=
  { config := { server := .ofHost "primary", timeout := Span.ofSeconds 18446744073709551615 } }

/-- A login with the default budget waits for ever for the session that it has opened to close; and one with the
longest budget overflows the clock before its first attempt. -/
theorem spreadLogin_never_ends :
    pairedWorld.Patient ∧ spreadLogin.config.loginBudget = some (Span.ofSeconds 15) ∧
      0 < min spreadLogin.config.retry.initialBackoff spreadLogin.config.retry.maxBackoff ∧
      (login (LineFaults.server {}).neverClosing 1 spreadLogin pairedWorld).1 = .error .abandoned ∧
      (login (LineFaults.server {}).neverClosing 1 spreadLogin pairedWorld).2.world.connects = 1 ∧
    endlessLogin.config.loginBudget = some (Span.ofSeconds 18446744073709551615) ∧
      0 < min endlessLogin.config.retry.initialBackoff endlessLogin.config.retry.maxBackoff ∧
      (login (LineFaults.server {}) 1 endlessLogin pairedWorld).1 = .error .overflow := by
  have hstuck : LoginM.StuckClosing (spreadLogin.context (LineFaults.server {}).neverClosing) 1
      (spreadLogin.begun pairedWorld) := by decide +kernel
  have hbudget : spreadLogin.config.loginBudget ≠ none := by decide
  have hpatient : pairedWorld.Patient := rfl
  refine ⟨hpatient, by decide, by decide, (LoginStart.login_abandoned_iff hbudget hpatient).mpr hstuck,
    by decide +kernel, by decide, by decide, ?_⟩
  rw [LoginStart.login_of_slice_overflow (by decide) (by decide)]

end TdsSession
