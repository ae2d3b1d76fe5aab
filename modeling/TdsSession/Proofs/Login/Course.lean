import TdsSession.Login.Login
import TdsSession.Proofs.Login.Settle

/-!
# The course of a login

A login goes through rounds, each of which starts from a plan and a state. This
module lists them: `LoginStart.course` is the list of the starts of all rounds
of a login, oldest first.

* `LoginStart.course_induction`: what holds at the first round, and is handed
  on from each round to the next, holds at every round;
* `LoginStart.login_of_failed`: a round that fails ends the login with its error;
* `LoginStart.round_of_connected`: every connection that the trace of a login
  shows has been tried by one of its rounds.
-/

namespace TdsSession

open Op (Keeps)

variable {σ : Type}

/-- Where a round starts: what it follows, and the state of the login then. -/
structure RoundStart (σ : Type) where
  plan : LoginPlan
  run : LoginRun σ

namespace LoginM

/-- The starts of at most `attempts` rounds, of which the first is given. -/
def course (x : LoginContext σ) : (attempts : Nat) → LoginPlan → LoginRun σ → List (RoundStart σ)
  | 0, _, _ => []
  | attempts + 1, plan, run => ⟨plan, run⟩ ::
    match round x plan run with
    | (.ok (.again plan'), run') => course x attempts plan' run'
    | _ => []

end LoginM

/-- The round that starts at `r` is followed by the one that starts at `r'`. -/
def RoundStart.Before (x : LoginContext σ) (r r' : RoundStart σ) : Prop :=
  LoginM.round x r.plan r.run = (.ok (.again r'.plan), r'.run)

/-- The connections that have been tried, oldest first: when, to which host, and for how long. -/
def World.connections (w : World σ) : List (Moment × String × Option Span) :=
  w.history.filterMap fun
    | (t, .connected _ target timeout) => some (t, target.host, timeout)
    | _ => none

namespace LoginStart

/-- The state of a login that has just begun. -/
def begun (s : LoginStart) (w : World σ) : LoginRun σ := { s.run w with world := w.record .began }

/-- The starts of the rounds of a login with at most the given number of attempts, oldest first. -/
def course (s : LoginStart) (server : Server σ) (attempts : Nat) (w : World σ) : List (RoundStart σ) :=
  if s.config.partnersConflict then []
  else match LoginM.firstPlan s.config (s.begun w) with
    | (.ok plan, run) => LoginM.course (s.context server) attempts plan run
    | _ => []

end LoginStart

/-! ## Rounds in a row -/

namespace LoginM

variable {x : LoginContext σ} {attempts : Nat} {plan : LoginPlan} {run run' : LoginRun σ} {r r' : RoundStart σ}
  {earlier later : List (RoundStart σ)}

/-- After the first round come the rounds from where it leads, if it is followed by any. -/
theorem course_succ (x : LoginContext σ) (attempts : Nat) (plan : LoginPlan) (run : LoginRun σ) :
    ∃ rest, course x (attempts + 1) plan run = ⟨plan, run⟩ :: rest ∧
      (rest = [] ∧ (∀ plan' run', round x plan run ≠ (.ok (.again plan'), run')) ∨
        ∃ plan' run', round x plan run = (.ok (.again plan'), run') ∧ rest = course x attempts plan' run') := by
  rw [course]
  rcases round x plan run with ⟨s | e | plan', run'⟩
  · exact ⟨[], rfl, .inl ⟨rfl, fun _ _ h => nomatch h⟩⟩
  · exact ⟨[], rfl, .inl ⟨rfl, fun _ _ h => nomatch h⟩⟩
  · exact ⟨_, rfl, .inr ⟨plan', run', rfl, rfl⟩⟩

/-- A round is the first, or it follows one. -/
theorem mem_course_cases (h : r ∈ course x attempts plan run) :
    r = ⟨plan, run⟩ ∨ ∃ r₀, [r₀, r] <:+: course x attempts plan run := by
  induction attempts generalizing plan run with
  | zero => cases h
  | succ attempts ih =>
    obtain ⟨rest, hcourse, hrest⟩ := course_succ x attempts plan run
    rw [hcourse] at h ⊢
    rcases List.mem_cons.mp h with rfl | h
    · exact .inl rfl
    rcases hrest with ⟨rfl, -⟩ | ⟨plan', run', -, rfl⟩
    · cases h
    right
    rcases ih h with rfl | ⟨r₀, hr₀⟩
    · refine ⟨⟨plan, run⟩, List.IsPrefix.isInfix ?_⟩
      cases attempts with
      | zero => cases h
      | succ attempts =>
        obtain ⟨rest, hcourse, -⟩ := course_succ x attempts plan' run'
        rw [hcourse]
        exact ⟨rest, rfl⟩
    · exact ⟨r₀, hr₀.trans (List.suffix_cons ..).isInfix⟩

/-- Rounds that stand next to each other follow each other. -/
theorem before_of_adjacent (h : [r, r'] <:+: course x attempts plan run) : r.Before x r' := by
  induction attempts generalizing plan run with
  | zero => cases List.eq_nil_of_infix_nil h
  | succ attempts ih =>
    obtain ⟨rest, hcourse, hrest⟩ := course_succ x attempts plan run
    rw [hcourse] at h
    rcases hrest with ⟨rfl, -⟩ | ⟨plan', run', hround, rfl⟩
    · exact absurd h.length_le (by simp)
    rcases List.infix_cons_iff.mp h with hhead | htail
    · obtain ⟨rfl, hnext⟩ := List.cons_prefix_cons.mp hhead
      cases attempts with
      | zero => cases List.prefix_nil.mp hnext
      | succ attempts =>
        obtain ⟨rest, hcourse', -⟩ := course_succ x attempts plan' run'
        rw [hcourse'] at hnext
        obtain ⟨rfl, -⟩ := List.cons_prefix_cons.mp hnext
        exact hround
    · exact ih htail

/-- What holds before the first round, and is handed on by each round to those after it, holds at every round of the
rounds before it. -/
theorem course_split_induction {P : List (RoundStart σ) → RoundStart σ → Prop} (first : P [] ⟨plan, run⟩)
    (next : ∀ earlier r r', P earlier r → r.Before x r' → P (earlier ++ [r]) r')
    (h : course x attempts plan run = earlier ++ r :: later) : P earlier r := by
  induction attempts generalizing plan run earlier P with
  | zero => exact absurd h.symm (List.append_ne_nil_of_right_ne_nil _ (List.cons_ne_nil _ _))
  | succ attempts ih =>
    obtain ⟨rest, hcourse, hrest⟩ := course_succ x attempts plan run
    rw [hcourse] at h
    cases earlier with
    | nil =>
      cases h
      exact first
    | cons r₀ earlier =>
      obtain ⟨rfl, htail⟩ := List.cons.inj h
      rcases hrest with ⟨rfl, -⟩ | ⟨plan', run', hround, rfl⟩
      · exact absurd htail.symm (List.append_ne_nil_of_right_ne_nil _ (List.cons_ne_nil _ _))
      · exact ih (P := fun earlier r => P (⟨plan, run⟩ :: earlier) r) (next [] ⟨plan, run⟩ ⟨plan', run'⟩ first hround)
          (fun earlier r r' => next (⟨plan, run⟩ :: earlier) r r') htail

/-- What holds at the first round, and is handed on from round to round, holds at every round. -/
theorem course_induction {P : RoundStart σ → Prop} (first : P ⟨plan, run⟩)
    (next : ∀ r r', P r → r.Before x r' → P r') (h : r ∈ course x attempts plan run) : P r := by
  obtain ⟨earlier, later, hsplit⟩ := List.append_of_mem h
  exact course_split_induction (P := fun _ r => P r) first (fun _ r r' => next r r') hsplit

/-- From any of its rounds on, the course and what it comes to are as if they began there. -/
theorem course_split (h : course x attempts plan run = earlier ++ r :: later) :
    ∃ left, attempts = earlier.length + (left + 1) ∧ course x (left + 1) r.plan r.run = r :: later ∧
      rounds x attempts plan run = rounds x (left + 1) r.plan r.run := by
  induction attempts generalizing plan run earlier with
  | zero => exact absurd h.symm (List.append_ne_nil_of_right_ne_nil _ (List.cons_ne_nil _ _))
  | succ attempts ih =>
    obtain ⟨rest, hcourse, hrest⟩ := course_succ x attempts plan run
    rw [hcourse] at h
    cases earlier with
    | nil =>
      cases h
      exact ⟨attempts, (Nat.zero_add _).symm, hcourse, rfl⟩
    | cons r₀ earlier =>
      obtain ⟨rfl, htail⟩ := List.cons.inj h
      rcases hrest with ⟨rfl, -⟩ | ⟨plan', run', hround, rfl⟩
      · exact absurd htail.symm (List.append_ne_nil_of_right_ne_nil _ (List.cons_ne_nil _ _))
      · obtain ⟨left, hleft, hcourse, hrounds⟩ := ih htail
        refine ⟨left, by rw [hleft, List.length_cons]; omega, hcourse, ?_⟩
        rw [rounds, Op.bind_of_ok hround]
        exact hrounds

/-- The rounds go on from each of them as they would begin there. -/
theorem rounds_eq_of_mem (h : r ∈ course x attempts plan run) :
    ∃ left, rounds x attempts plan run = rounds x (left + 1) r.plan r.run := by
  obtain ⟨earlier, later, hsplit⟩ := List.append_of_mem h
  obtain ⟨left, -, -, hrounds⟩ := course_split hsplit
  exact ⟨left, hrounds⟩

/-- What follows a round are the rounds from where it leads, as far as there may be any. -/
theorem later_cases (h : course x attempts plan run = earlier ++ r :: later) :
    later = [] ∧ (∀ plan' run', round x r.plan r.run = (.ok (.again plan'), run') → attempts = earlier.length + 1) ∨
      ∃ r' later', later = r' :: later' ∧ r.Before x r' := by
  obtain ⟨left, hleft, hcourse, -⟩ := course_split h
  obtain ⟨rest, hcons, hrest⟩ := course_succ x left r.plan r.run
  obtain rfl : later = rest := (List.cons.inj (hcourse.symm.trans hcons)).2
  rcases hrest with ⟨rfl, hlast⟩ | ⟨plan', run', hround, rfl⟩
  · exact .inl ⟨rfl, fun plan' run' hround => absurd hround (hlast plan' run')⟩
  · cases left with
    | zero => exact .inl ⟨rfl, fun _ _ _ => hleft⟩
    | succ left =>
      obtain ⟨later', hlater, -⟩ := course_succ x left plan' run'
      exact .inr ⟨⟨plan', run'⟩, later', hlater, hround⟩

/-- The rounds stop at the round that does. -/
theorem rounds_stop_iff {s : Stop} (hs : s ≠ .exhausted) (h : course x attempts plan run = earlier ++ r :: later) :
    (rounds x attempts plan run).1 = .error s ∧ later = [] ↔ (round x r.plan r.run).1 = .error s := by
  obtain ⟨left, -, hcourse, hrounds⟩ := course_split h
  rw [hrounds, rounds, Op.bind_apply]
  rw [course] at hcourse
  have hlater := (List.cons.inj hcourse).2
  rcases hround : round x r.plan r.run with ⟨s' | e | plan', run'⟩ <;> rw [hround] at hlater
  · rw [and_iff_left (show later = [] from hlater.symm)]
    exact iff_of_eq (by rw [Except.error.injEq, Except.error.injEq])
  · exact iff_of_false (fun h => nomatch h.1) (fun h => nomatch h)
  · refine iff_of_false (fun ⟨hstopped, hnil⟩ => ?_) (fun h => nomatch h)
    cases left with
    | zero => exact hs (Except.error.inj hstopped).symm
    | succ left =>
      obtain ⟨rest, hcons, -⟩ := course_succ x left plan' run'
      exact List.cons_ne_nil _ _ (hcons.symm.trans (hlater.trans hnil))

/-- A round that stops is the last, and the rounds end as it does. -/
theorem rounds_of_stopped {s : Stop} (h : r ∈ course x attempts plan run)
    (hr : round x r.plan r.run = (.error s, run')) : rounds x attempts plan run = (.error s, run') := by
  obtain ⟨left, hrounds⟩ := rounds_eq_of_mem h
  rw [hrounds, rounds, Op.bind_of_error hr]

/-- A round that opens a session is the last. -/
theorem rounds_of_opened {e : Established} (h : r ∈ course x attempts plan run)
    (hr : round x r.plan r.run = (.ok (.opened e), run')) : rounds x attempts plan run = (.ok e, run') := by
  obtain ⟨left, hrounds⟩ := rounds_eq_of_mem h
  rw [hrounds, rounds, Op.bind_of_ok hr]
  rfl

/-- Rounds that open a session do so in the last of them. -/
theorem rounds_eq_ok {e : Established} (h : rounds x attempts plan run = (.ok e, run')) :
    ∃ r ∈ course x attempts plan run, round x r.plan r.run = (.ok (.opened e), run') := by
  induction attempts generalizing plan run with
  | zero => cases h
  | succ attempts ih =>
    rw [rounds] at h
    rw [course]
    obtain ⟨res, mid, hround, h⟩ := Op.bind_eq_ok.mp h
    rw [hround]
    cases res with
    | opened e' =>
      cases h
      exact ⟨⟨plan, run⟩, List.mem_cons_self, hround⟩
    | again plan' =>
      obtain ⟨r, hr, hopened⟩ := ih h
      exact ⟨r, List.mem_cons_of_mem _ hr, hopened⟩

/-- The rounds end where the last of them does. -/
theorem rounds_snd (x : LoginContext σ) (attempts : Nat) (plan : LoginPlan) (run : LoginRun σ) :
    (rounds x attempts plan run).2 = run ∨
      ∃ r ∈ course x attempts plan run, (rounds x attempts plan run).2 = (round x r.plan r.run).2 := by
  induction attempts generalizing plan run with
  | zero => exact .inl rfl
  | succ attempts ih =>
    right
    rw [rounds, course, Op.bind_apply]
    rcases hround : round x plan run with ⟨s | e | plan', run'⟩
    · exact ⟨⟨plan, run⟩, List.mem_cons_self, by rw [hround]⟩
    · exact ⟨⟨plan, run⟩, List.mem_cons_self, by rw [hround]; rfl⟩
    · rcases ih plan' run' with hlast | ⟨r, hr, hlast⟩
      · exact ⟨⟨plan, run⟩, List.mem_cons_self, by rw [hround]; exact hlast⟩
      · exact ⟨r, List.mem_cons_of_mem _ hr, hlast⟩

section

variable {R : LoginRun σ → LoginRun σ → Prop} [IsPreorder (LoginRun σ) R]

/-- What every attempt keeps, and whatever follows one, a round keeps. -/
theorem round_keeps (hattempt : ∀ plan, Keeps R (roundAttempt x plan))
    (hsettle : ∀ plan ended, Keeps R (settle x plan ended)) (plan : LoginPlan) : Keeps R (round x plan) :=
  (hattempt plan).bind fun ended => hsettle plan ended

/-- What every attempt keeps, and whatever follows one, any number of rounds keep. -/
theorem rounds_keeps (hattempt : ∀ plan, Keeps R (roundAttempt x plan))
    (hsettle : ∀ plan ended, Keeps R (settle x plan ended)) (attempts : Nat) (plan : LoginPlan) :
    Keeps R (rounds x attempts plan) := by
  induction attempts generalizing plan with
  | zero => exact Keeps.throw _
  | succ attempts ih =>
    refine (round_keeps hattempt hsettle plan).bind fun res => ?_
    cases res with
    | opened e => exact Keeps.pure _
    | again plan' => exact ih plan'

end

/-- A round that is followed by another is an attempt and one of the ways to go on. -/
theorem before_cases (h : r.Before x r') :
    ∃ ended mid, roundAttempt x r.plan r.run = (.ok ended, mid) ∧
      Continues x mid r.plan ended r'.plan r'.run := by
  obtain ⟨ended, mid, ha, hs⟩ := Op.bind_eq_ok.mp h
  exact ⟨ended, mid, ha, settle_eq_again hs⟩

/-! ### The trace of the rounds -/

/-- What the attempt of a round adds to the trace: its connection, and what happens over it. -/
theorem attempt_event {r : Except Stop RoundEnd} {e : Moment × Event} {older : List (Moment × Event)}
    (ha : roundAttempt x plan run = (r, run')) (he : e :: older <:+ run'.world.trace)
    (hnew : run.world.trace <:+ older) :
    e.2.over (run.world.connects + 1) ∨
    older = run.world.trace ∧ ∃ target timeout, (roundTarget x plan run).1 = .ok target ∧
      e = (run.world.now, .connected (run.world.connects + 1) target timeout) := by
  have hlong : ¬ e :: older <:+ run.world.trace := not_cons_suffix hnew
  rcases roundAttempt_connects ha with ⟨hsame, -⟩ | ⟨target, timeout, htarget, hconnects⟩
  · rw [hsame] at he
    exact absurd he hlong
  rcases hconnects.trace.cons_suffix_cases he with ⟨hover, -⟩ | he
  · exact .inl hover
  rcases List.suffix_cons_iff.mp he with heq | he
  · cases heq
    exact .inr ⟨rfl, target, timeout, htarget, rfl⟩
  · exact absurd he hlong

/-- A round makes no connection but that of its attempt. -/
theorem connected_of_round {r : Except Stop Round} {t : Moment} {n : Nat} {target : Target}
    {timeout : Option Span} {older : List (Moment × Event)} (h : round x plan run = (r, run'))
    (hc : (t, .connected n target timeout) :: older <:+ run'.world.trace) (hnew : run.world.trace <:+ older) :
    older = run.world.trace ∧ t = run.world.now ∧ n = run.world.connects + 1 ∧
      (roundTarget x plan run).1 = .ok target := by
  have attempt {r : Except Stop RoundEnd} {mid : LoginRun σ} (ha : roundAttempt x plan run = (r, mid))
      (hc : (t, .connected n target timeout) :: older <:+ mid.world.trace) :
      older = run.world.trace ∧ t = run.world.now ∧ n = run.world.connects + 1 ∧
        (roundTarget x plan run).1 = .ok target := by
    rcases attempt_event ha hc hnew with (hover | hover) | ⟨hold, target', timeout', htarget, heq⟩
    · exact hover.elim
    · cases hover
    · cases heq
      exact ⟨hold, rfl, rfl, htarget⟩
  rcases Op.bind_cases h with ⟨s, ha, -⟩ | ⟨ended, mid, ha, hs⟩
  · exact attempt ha hc
  · have hframe := (settle_keeps x plan ended).of_eq hs
    rcases hframe.trace.cons_suffix_cases hc with ⟨hbetween, -⟩ | hc
    · exact hbetween.elim
    · exact attempt ha hc

/-- What the trace holds after the attempt of a round, it holds after the round. -/
theorem attempt_suffix {ended : Except Stop RoundEnd} {mid : LoginRun σ}
    (h : roundAttempt x plan run = (ended, mid)) : mid.world.trace <:+ (round x plan run).2.world.trace := by
  rw [round, Op.bind_apply, h]
  cases ended with
  | error s => exact List.suffix_refl _
  | ok ended => exact (settle_keeps x plan ended mid).trace.suffix

theorem round_suffix {r : Except Stop Round} (h : round x plan run = (r, run')) :
    run.world.trace <:+ run'.world.trace := by
  rcases ha : roundAttempt x plan run with ⟨ended, mid⟩
  have hround := attempt_suffix ha
  rw [h] at hround
  rcases roundAttempt_connects ha with ⟨hsame, -⟩ | ⟨target, timeout, -, hconnects⟩
  · rw [hsame] at hround
    exact hround
  · exact ((List.suffix_cons ..).trans hconnects.trace.suffix).trans hround

theorem rounds_suffix (x : LoginContext σ) (attempts : Nat) (plan : LoginPlan) (run : LoginRun σ) :
    run.world.trace <:+ (rounds x attempts plan run).2.world.trace := by
  induction attempts generalizing plan run with
  | zero => exact List.suffix_refl _
  | succ attempts ih =>
    rw [rounds, Op.bind_apply]
    rcases h : round x plan run with ⟨s | e | plan', run'⟩
    · exact round_suffix h
    · exact round_suffix h
    · exact (round_suffix h).trans (ih plan' run')

/-- What the trace holds after a round, it holds after all of them. -/
theorem rounds_suffix_of_mem (h : r ∈ course x attempts plan run) :
    (round x r.plan r.run).2.world.trace <:+ (rounds x attempts plan run).2.world.trace := by
  obtain ⟨left, hrounds⟩ := rounds_eq_of_mem h
  rw [hrounds, rounds, Op.bind_apply]
  rcases round x r.plan r.run with ⟨s | e | plan', mid⟩
  · exact List.suffix_refl _
  · exact List.suffix_refl _
  · exact rounds_suffix x left plan' mid

/-- Every event since the first round began has been added by a round. -/
theorem round_of_event {e : Moment × Event} {older : List (Moment × Event)}
    (he : e :: older <:+ (rounds x attempts plan run).2.world.trace) (hnew : run.world.trace <:+ older) :
    ∃ r ∈ course x attempts plan run, r.run.world.trace <:+ older ∧
      e :: older <:+ (round x r.plan r.run).2.world.trace := by
  induction attempts generalizing plan run with
  | zero => exact absurd he (not_cons_suffix hnew)
  | succ attempts ih =>
    obtain ⟨rest, hcourse, hrest⟩ := course_succ x attempts plan run
    rw [hcourse]
    rw [rounds, Op.bind_apply] at he
    by_cases hfirst : e :: older <:+ (round x plan run).2.world.trace
    · exact ⟨⟨plan, run⟩, List.mem_cons_self, hnew, hfirst⟩
    rcases hrest with ⟨rfl, hlast⟩ | ⟨plan', run', hround, rfl⟩
    · rcases hround : round x plan run with ⟨s | e | plan', run'⟩ <;> rw [hround] at he hfirst
      · exact absurd he hfirst
      · exact absurd he hfirst
      · exact absurd hround (hlast plan' run')
    · rw [hround] at he hfirst
      have hlater : run'.world.trace <:+ older :=
        (cons_suffix_or_suffix he (rounds_suffix x attempts plan' run')).resolve_left hfirst
      obtain ⟨r, hr, h⟩ := ih he hlater
      exact ⟨r, List.mem_cons_of_mem _ hr, h⟩

end LoginM

/-! ## The whole login -/

namespace LoginM

theorem attempted_apply {α : Type} (m : LoginM σ α) (run : LoginRun σ) :
    attempted m run = match m run with
      | (.ok a, run') => (.ok (.ok a), run')
      | (.error (.failed e), run') => (.ok (.error e), run')
      | (.error s, run') => (.error s, run') := by
  unfold attempted
  rw [Op.tryCatch_apply, Op.map_apply]
  rcases m run with ⟨s | a, run'⟩
  · cases s <;> rfl
  · rfl

/-- The first plan depends on whether the options name a partner; it takes no time, and only the clock can
fail. -/
theorem firstPlan_apply (c : Config) (run : LoginRun σ) :
    firstPlan c run = match run.budget.slice with
      | .error _ => (.error .overflow, run)
      | .ok slice => match c.partner with
        | some partner =>
          (.ok (.pair { partner, slice, backoff := c.retry.backoff, onPartner := run.group.preferPartner }), run)
        | none => (.ok (.single { slice, backoff := c.retry.backoff }), run) := by
  unfold firstPlan planPair planSingle
  rcases c.partner with _ | partner <;> simp only [] <;> rw [Op.bind_of_ok (Op.get_apply run)]
  · rcases run.budget.slice with o | slice <;> rfl
  · rw [Op.bind_of_ok (Op.get_apply run)]
    rcases run.budget.slice with o | slice <;> rfl

theorem firstPlan_cases (c : Config) (run : LoginRun σ) :
    (∃ plan, firstPlan c run = (.ok plan, run)) ∨ firstPlan c run = (.error .overflow, run) := by
  rw [firstPlan_apply]
  rcases run.budget.slice with o | slice
  · exact .inr rfl
  · rcases c.partner with _ | partner <;> exact .inl ⟨_, rfl⟩

/-- What the rounds of a login keep, all of them with their first plan keep. -/
theorem allRounds_keeps {R : LoginRun σ → LoginRun σ → Prop} [IsPreorder (LoginRun σ) R] {x : LoginContext σ}
    (hattempt : ∀ plan, Keeps R (roundAttempt x plan)) (hsettle : ∀ plan ended, Keeps R (settle x plan ended))
    (attempts : Nat) : Keeps R (allRounds x attempts) := by
  refine Keeps.bind (fun run => ?_) fun plan => rounds_keeps hattempt hsettle attempts plan
  rcases firstPlan_cases x.config run with ⟨plan, hplan⟩ | hover
  · rw [hplan]
    exact refl_of R run
  · rw [hover]
    exact refl_of R run

/-- An event after the last attempt. -/
def closes : Event → Prop
  | .disconnected .. | .ended _ => True
  | _ => False

theorem discard_closes (t : Transport) (deadline : Option Moment) :
    Keeps (TraceGrows closes) (inWorld (WorldM.discard t deadline) : LoginM σ Unit) :=
  TraceGrows.inWorld (WorldM.discard_notes fun _ => trivial)

variable {x : LoginContext σ} {attempts : Nat} {run run' : LoginRun σ}

/-- A failure of the rounds is the failure of the login. -/
theorem establish_of_failed {e : Error} (hx : x.config.partnersConflict = false)
    (h : allRounds x attempts run = (.error (.failed e), run')) :
    establish x attempts run =
      (.error (.failed e), { run' with phase := .failedFatal, doomed := run'.doomed || e.dooms }) := by
  unfold establish
  simp only [hx, Bool.false_eq_true, if_false]
  rw [Op.bind_apply, attempted_apply, h]
  rfl

theorem establish_of_stopped {s : Stop} (hs : ∀ e, s ≠ .failed e) (hx : x.config.partnersConflict = false)
    (h : allRounds x attempts run = (.error s, run')) : establish x attempts run = (.error s, run') := by
  unfold establish
  simp only [hx, Bool.false_eq_true, if_false]
  rw [Op.bind_apply, attempted_apply, h]
  cases s with
  | failed e => exact absurd rfl (hs e)
  | cut => rfl
  | abandoned => rfl
  | overflow => rfl
  | exhausted => rfl

/-- An open session is given up because of a conflict about its partner. -/
def refuse (e : Established) (conflict : Error) : LoginM σ Established := do
  enter .failedFatal
  inWorld (WorldM.discard e.transport none)
  fail conflict

/-- An open session is given, unless its partner keeps it from being used. -/
theorem establish_of_ok {e : Established} (hx : x.config.partnersConflict = false)
    (h : allRounds x attempts run = (.ok e, run')) :
    establish x attempts run = match e.partnerConflict? x.config with
      | none => (.ok e, run')
      | some conflict => refuse e conflict run' := by
  unfold establish
  simp only [hx, Bool.false_eq_true, if_false]
  rw [Op.bind_apply, attempted_apply, h]
  dsimp only
  rcases e.partnerConflict? x.config with _ | conflict <;> rfl

/-- A session that is given has been opened by the rounds. -/
theorem establish_eq_ok {e : Established} (h : establish x attempts run = (.ok e, run')) :
    x.config.partnersConflict = false ∧ allRounds x attempts run = (.ok e, run') := by
  rcases hx : x.config.partnersConflict with _ | _
  · refine ⟨rfl, ?_⟩
    rcases hrounds : allRounds x attempts run with ⟨s | e', mid⟩
    · by_cases hs : ∃ e, s = .failed e
      · obtain ⟨e, rfl⟩ := hs
        rw [establish_of_failed hx hrounds] at h
        cases h
      · rw [establish_of_stopped (fun e he => hs ⟨e, he⟩) hx hrounds] at h
        cases h
    · rw [establish_of_ok hx hrounds] at h
      rcases hconflict : e'.partnerConflict? x.config with _ | conflict <;> rw [hconflict] at h
      · exact h
      · obtain ⟨_, _, -, h⟩ := Op.bind_eq_ok.mp h
        obtain ⟨_, _, -, h⟩ := Op.bind_eq_ok.mp h
        cases h
  · unfold establish at h
    simp only [hx, if_true] at h
    cases h

section

variable {R : LoginRun σ → LoginRun σ → Prop} [IsPreorder (LoginRun σ) R]

/-- After its rounds a login keeps what marking it as failed and giving up its session keep. -/
theorem establish_keeps (hx : x.config.partnersConflict = false)
    (hfailed : ∀ e, Keeps R (markFailed e : LoginM σ Unit))
    (hrefused : ∀ e conflict run', allRounds x attempts run = (.ok e, run') → R run' (refuse e conflict run').2) :
    R (allRounds x attempts run).2 (establish x attempts run).2 := by
  rcases h : allRounds x attempts run with ⟨s | e, run'⟩
  · by_cases hs : ∃ e, s = .failed e
    · obtain ⟨e, rfl⟩ := hs
      rw [establish_of_failed hx h]
      exact hfailed e run'
    · rw [establish_of_stopped (fun e he => hs ⟨e, he⟩) hx h]
      exact refl_of R run'
  · rw [establish_of_ok hx h]
    rcases e.partnerConflict? x.config with _ | conflict
    · exact refl_of R run'
    · exact hrefused e conflict run' h

/-- What giving up a transport keeps, giving up its session keeps. -/
theorem refuse_keeps {e : Established} (hphase : ∀ phase, Keeps R (enter phase : LoginM σ Unit))
    (hdiscard : Keeps R (inWorld (WorldM.discard e.transport none) : LoginM σ Unit)) (conflict : Error) :
    Keeps R (refuse e conflict : LoginM σ Established) :=
  (hphase _).bind fun _ => hdiscard.bind fun _ => Keeps.fail _

end

/-- After the rounds no connection is made. -/
theorem establish_closes (x : LoginContext σ) (attempts : Nat) (run : LoginRun σ)
    (hx : x.config.partnersConflict = false) :
    Grows closes (allRounds x attempts run).2.world.trace (establish x attempts run).2.world.trace :=
  establish_keeps (R := TraceGrows closes) hx (fun _ _ => .refl _) fun e conflict run' _ =>
    refuse_keeps (fun _ _ => .refl _) (discard_closes e.transport none) conflict run'

end LoginM

namespace LoginStart

variable {s : LoginStart} {server : Server σ} {attempts : Nat} {w : World σ} {run' : LoginRun σ}
  {r r' : RoundStart σ}

theorem note_began (s : LoginStart) (w : World σ) :
    LoginM.inWorld (WorldM.note .began) (s.run w) = (.ok (), s.begun w) := rfl

/-- A login ends as what it tries to establish does, and notes that it has ended. -/
theorem login_apply (server : Server σ) (attempts : Nat) (s : LoginStart) (w : World σ) :
    login server attempts s w = match LoginM.establish (s.context server) attempts (s.begun w) with
      | (.ok e, run') => (.ok e, { run' with
          world := run'.world.record (.ended (.succeeded e.onPartner))
          group := run'.group.afterLogin e.onPartner })
      | (.error (.failed e), run') =>
        (.error (.failed e), { run' with world := run'.world.record (.ended (.failed e)) })
      | (.error t, run') => (.error t, run') := by
  show LoginM.login (s.context server) attempts (s.run w) = _
  unfold LoginM.login
  rw [Op.bind_of_ok (note_began s w), Op.bind_apply, LoginM.attempted_apply]
  rcases LoginM.establish (s.context server) attempts (s.begun w) with ⟨t | e, run'⟩
  · cases t <;> rfl
  · rfl

theorem login_fst (server : Server σ) (attempts : Nat) (s : LoginStart) (w : World σ) :
    (login server attempts s w).1 = (LoginM.establish (s.context server) attempts (s.begun w)).1 := by
  rw [login_apply]
  rcases LoginM.establish (s.context server) attempts (s.begun w) with ⟨t | e, run'⟩
  · cases t <;> rfl
  · rfl

/-- A login that fails in its rounds ends with their error. -/
theorem login_of_rounds_failed {e : Error} (hx : s.config.partnersConflict = false)
    (h : LoginM.allRounds (s.context server) attempts (s.begun w) = (.error (.failed e), run')) :
    login server attempts s w =
      (.error (.failed e), { run' with
        phase := .failedFatal
        doomed := run'.doomed || e.dooms
        world := run'.world.record (.ended (.failed e)) }) := by
  rw [login_apply, LoginM.establish_of_failed (x := s.context server) hx h]

theorem login_of_rounds_stopped {t : Stop} (ht : ∀ e, t ≠ .failed e) (hx : s.config.partnersConflict = false)
    (h : LoginM.allRounds (s.context server) attempts (s.begun w) = (.error t, run')) :
    login server attempts s w = (.error t, run') := by
  rw [login_apply, LoginM.establish_of_stopped (x := s.context server) ht hx h]
  cases t with
  | failed e => exact absurd rfl (ht e)
  | cut => rfl
  | abandoned => rfl
  | overflow => rfl
  | exhausted => rfl

/-- A login keeps what noting its end and changing its group keep. -/
theorem login_keeps {R : LoginRun σ → LoginRun σ → Prop} [IsPreorder (LoginRun σ) R]
    (hended : ∀ outcome, Keeps R (LoginM.inWorld (WorldM.note (.ended outcome)) : LoginM σ Unit))
    (hgroup : ∀ run group, R run { run with group }) (server : Server σ) (attempts : Nat) (s : LoginStart)
    (w : World σ) :
    R (LoginM.establish (s.context server) attempts (s.begun w)).2 (login server attempts s w).2 := by
  rw [login_apply]
  rcases LoginM.establish (s.context server) attempts (s.begun w) with ⟨t | e, run'⟩
  · cases t with
    | failed e => exact hended _ run'
    | cut => exact refl_of R run'
    | abandoned => exact refl_of R run'
    | overflow => exact refl_of R run'
    | exhausted => exact refl_of R run'
  · exact trans_of R (hended (.succeeded e.onPartner) run') (hgroup _ _)

/-- A login adds to the trace of what it tries to establish that it has ended. -/
theorem login_trace (server : Server σ) (attempts : Nat) (s : LoginStart) (w : World σ) :
    Grows LoginM.closes (LoginM.establish (s.context server) attempts (s.begun w)).2.world.trace
      (login server attempts s w).2.world.trace :=
  login_keeps (R := TraceGrows LoginM.closes) (fun _ _ => .cons trivial _) (fun _ _ => .refl _) server
    attempts s w

/-- The course of a login is empty and nothing happens in it, or it consists of the rounds from the first
plan on. -/
theorem course_cases (s : LoginStart) (server : Server σ) (attempts : Nat) (w : World σ) :
    (s.course server attempts w = [] ∧
      (LoginM.establish (s.context server) attempts (s.begun w)).2.world = (s.begun w).world) ∨
    ∃ plan, s.config.partnersConflict = false ∧
      LoginM.firstPlan s.config (s.begun w) = (.ok plan, s.begun w) ∧
      s.course server attempts w = LoginM.course (s.context server) attempts plan (s.begun w) := by
  unfold course
  rcases hx : s.config.partnersConflict with _ | _
  · rcases LoginM.firstPlan_cases s.config (s.begun w) with ⟨plan, hplan⟩ | hover
    · rw [hplan]
      exact .inr ⟨plan, rfl, rfl, rfl⟩
    · rw [hover]
      refine .inl ⟨rfl, ?_⟩
      rw [LoginM.establish_of_stopped (fun _ h => by cases h) hx (Op.bind_of_error hover _)]
  · refine .inl ⟨rfl, ?_⟩
    unfold LoginM.establish
    simp only [show (s.context server).config.partnersConflict = true from hx, if_true]
    rfl

theorem course_eq {plan : LoginPlan} (hx : s.config.partnersConflict = false)
    (hplan : LoginM.firstPlan s.config (s.begun w) = (.ok plan, s.begun w)) :
    s.course server attempts w = LoginM.course (s.context server) attempts plan (s.begun w) := by
  unfold course
  rw [if_neg (by rw [hx]; exact Bool.false_ne_true), hplan]

/-- A login that has a round has a first plan, and its rounds are those from there on. -/
theorem course_eq_of_mem (h : r ∈ s.course server attempts w) :
    ∃ plan, s.config.partnersConflict = false ∧
      LoginM.firstPlan s.config (s.begun w) = (.ok plan, s.begun w) ∧
      s.course server attempts w = LoginM.course (s.context server) attempts plan (s.begun w) := by
  rcases course_cases s server attempts w with ⟨hnil, -⟩ | hcourse
  · rw [hnil] at h
    cases h
  · exact hcourse

/-- The first round follows the first plan. -/
theorem first_mem_course (server : Server σ) (attempts : Nat) {plan : LoginPlan}
    (hx : s.config.partnersConflict = false)
    (hplan : LoginM.firstPlan s.config (s.begun w) = (.ok plan, s.begun w)) :
    ⟨plan, s.begun w⟩ ∈ s.course server (attempts + 1) w := by
  rw [course_eq hx hplan]
  exact List.mem_cons_self

/-- Without a first plan there are no rounds. -/
theorem allRounds_of_overflow (h : LoginM.firstPlan s.config (s.begun w) = (.error .overflow, s.begun w)) :
    LoginM.allRounds (s.context server) attempts (s.begun w) = (.error .overflow, s.begun w) :=
  Op.bind_of_error h _

theorem allRounds_eq {plan : LoginPlan}
    (h : LoginM.firstPlan s.config (s.begun w) = (.ok plan, s.begun w)) :
    LoginM.allRounds (s.context server) attempts (s.begun w) =
      LoginM.rounds (s.context server) attempts plan (s.begun w) := by
  unfold LoginM.allRounds
  exact Op.bind_of_ok h _

/-- A round of a login is the first, or it follows one. -/
theorem first_or_follows (h : r ∈ s.course server attempts w) :
    (∃ plan, LoginM.firstPlan s.config (s.begun w) = (.ok plan, s.begun w) ∧ r = ⟨plan, s.begun w⟩) ∨
      ∃ r₀, [r₀, r] <:+: s.course server attempts w := by
  obtain ⟨plan, -, hplan, hcourse⟩ := course_eq_of_mem h
  rw [hcourse] at h ⊢
  rcases LoginM.mem_course_cases h with rfl | hr
  · exact .inl ⟨plan, hplan, rfl⟩
  · exact .inr hr

theorem before_of_adjacent (h : [r, r'] <:+: s.course server attempts w) : r.Before (s.context server) r' := by
  obtain ⟨plan, -, -, hcourse⟩ := course_eq_of_mem (h.subset List.mem_cons_self)
  rw [hcourse] at h
  exact LoginM.before_of_adjacent h

/-- What holds at the first round of a login, and is handed on from round to round, holds at every round. -/
theorem course_induction {P : RoundStart σ → Prop}
    (first : ∀ plan, LoginM.firstPlan s.config (s.begun w) = (.ok plan, s.begun w) → P ⟨plan, s.begun w⟩)
    (next : ∀ r r', P r → r.Before (s.context server) r' → P r') (h : r ∈ s.course server attempts w) :
    P r := by
  obtain ⟨plan, -, hplan, hcourse⟩ := course_eq_of_mem h
  rw [hcourse] at h
  exact LoginM.course_induction (first plan hplan) next h

/-- A round that fails ends the login with its error. -/
theorem login_of_failed {e : Error} (h : r ∈ s.course server attempts w)
    (hr : LoginM.round (s.context server) r.plan r.run = (.error (.failed e), run')) :
    login server attempts s w =
      (.error (.failed e), { run' with
        phase := .failedFatal
        doomed := run'.doomed || e.dooms
        world := run'.world.record (.ended (.failed e)) }) := by
  obtain ⟨plan, hx, hplan, hcourse⟩ := course_eq_of_mem h
  rw [hcourse] at h
  refine login_of_rounds_failed hx ?_
  rw [allRounds_eq hplan]
  exact LoginM.rounds_of_stopped h hr

/-- A round that stops for another reason stops the login. -/
theorem login_of_stopped {t : Stop} (ht : ∀ e, t ≠ .failed e) (h : r ∈ s.course server attempts w)
    (hr : LoginM.round (s.context server) r.plan r.run = (.error t, run')) :
    login server attempts s w = (.error t, run') := by
  obtain ⟨plan, hx, hplan, hcourse⟩ := course_eq_of_mem h
  rw [hcourse] at h
  refine login_of_rounds_stopped ht hx ?_
  rw [allRounds_eq hplan]
  exact LoginM.rounds_of_stopped h hr

/-- What the trace holds after a round, it holds after the login. -/
theorem round_suffix_of_mem (h : r ∈ s.course server attempts w) :
    (LoginM.round (s.context server) r.plan r.run).2.world.trace <:+ (login server attempts s w).2.world.trace := by
  obtain ⟨plan, hx, hplan, hcourse⟩ := course_eq_of_mem h
  rw [hcourse] at h
  have hclosing := (LoginM.establish_closes (s.context server) attempts (s.begun w) hx).trans
    (login_trace server attempts s w)
  rw [allRounds_eq hplan] at hclosing
  exact (LoginM.rounds_suffix_of_mem h).trans hclosing.suffix

/-- A round that opens a session ends the login with it, unless its partner keeps it from being used. -/
theorem establish_of_opened {e : Established} (h : r ∈ s.course server attempts w)
    (hr : LoginM.round (s.context server) r.plan r.run = (.ok (.opened e), run')) :
    LoginM.establish (s.context server) attempts (s.begun w) = match e.partnerConflict? s.config with
      | none => (.ok e, run')
      | some conflict => LoginM.refuse e conflict run' := by
  obtain ⟨plan, hx, hplan, hcourse⟩ := course_eq_of_mem h
  rw [hcourse] at h
  refine LoginM.establish_of_ok (x := s.context server) hx ?_
  rw [allRounds_eq hplan]
  exact LoginM.rounds_of_opened h hr

/-- A login that succeeds ends with the round that has opened its session. -/
theorem login_eq_ok {e : Established} (h : (login server attempts s w).1 = .ok e) :
    ∃ r ∈ s.course server attempts w, ∃ run', LoginM.round (s.context server) r.plan r.run = (.ok (.opened e), run') ∧
      (login server attempts s w).2.world.trace =
        (run'.world.now, .ended (.succeeded e.onPartner)) :: run'.world.trace := by
  rcases hend : LoginM.establish (s.context server) attempts (s.begun w) with ⟨t | e', run'⟩
  · rw [login_fst, hend] at h
    cases h
  have hlogin := login_apply server attempts s w
  rw [hend] at hlogin
  rw [hlogin] at h ⊢
  cases h
  obtain ⟨hx, hrounds⟩ := LoginM.establish_eq_ok hend
  rcases LoginM.firstPlan_cases s.config (s.begun w) with ⟨plan, hplan⟩ | hover
  · rw [allRounds_eq hplan] at hrounds
    obtain ⟨r, hr, hround⟩ := LoginM.rounds_eq_ok hrounds
    rw [course_eq hx hplan]
    exact ⟨r, hr, run', hround, rfl⟩
  · rw [allRounds_of_overflow hover] at hrounds
    cases hrounds

/-- Every event of a login, but for its beginning and what comes after the last attempt, has been added by
one of its rounds. -/
theorem round_of_event {e : Moment × Event} {older : List (Moment × Event)} (hb : e.2 ≠ .began)
    (hc : ¬ LoginM.closes e.2) (he : e :: older <:+ (login server attempts s w).2.world.trace)
    (hnew : w.trace <:+ older) :
    ∃ r ∈ s.course server attempts w, r.run.world.trace <:+ older ∧
      e :: older <:+ (LoginM.round (s.context server) r.plan r.run).2.world.trace := by
  have htrace := login_trace server attempts s w
  -- what came before the event goes back to the beginning of this login, and no further
  have hbegun (h : (s.begun w).world.trace <:+ (login server attempts s w).2.world.trace) :
      (s.begun w).world.trace <:+ older := by
    rcases cons_suffix_or_suffix he h with hs | hs
    · rcases List.suffix_cons_iff.mp hs with heq | hs
      · cases heq
        exact absurd rfl hb
      · exact absurd hs (not_cons_suffix hnew)
    · exact hs
  rcases course_cases s server attempts w with ⟨-, hworld⟩ | ⟨plan, hx, hplan, hcourse⟩
  · rw [hworld] at htrace
    rcases htrace.cons_suffix_cases he with ⟨hcloses, -⟩ | he
    · exact absurd hcloses hc
    · exact absurd he (not_cons_suffix (hbegun htrace.suffix))
  · have hestablish := LoginM.establish_closes (s.context server) attempts (s.begun w) hx
    rw [allRounds_eq hplan] at hestablish
    have hcloses := hestablish.trans htrace
    rcases hcloses.cons_suffix_cases he with ⟨hclose, -⟩ | he'
    · exact absurd hclose hc
    · rw [hcourse]
      refine LoginM.round_of_event he' (hbegun ?_)
      exact (LoginM.rounds_suffix (s.context server) attempts plan (s.begun w)).trans hcloses.suffix

/-- Every connection of a login has been tried by one of its rounds. -/
theorem round_of_connected {t : Moment} {n : Nat} {target : Target} {timeout : Option Span}
    {older : List (Moment × Event)}
    (hc : (t, .connected n target timeout) :: older <:+ (login server attempts s w).2.world.trace)
    (hnew : w.trace <:+ older) :
    ∃ r ∈ s.course server attempts w, r.run.world.trace = older ∧ r.run.world.now = t ∧
      r.run.world.connects + 1 = n ∧ (LoginM.roundTarget (s.context server) r.plan r.run).1 = .ok target := by
  obtain ⟨r, hr, hsuffix, hround⟩ := round_of_event (by rintro ⟨⟩) (by rintro ⟨⟩) hc hnew
  obtain ⟨rfl, rfl, rfl, htarget⟩ := LoginM.connected_of_round rfl hround hsuffix
  exact ⟨r, hr, rfl, rfl, rfl, htarget⟩

/-- What happens over a connection of a login, other than that a transport is closed or a provider is asked,
happens in the attempt that has made it. -/
theorem attempt_of_event {e : Moment × Event} {older : List (Moment × Event)} (hb : e.2 ≠ .began)
    (hc : ¬ LoginM.closes e.2) (hbetween : ¬ e.2.between) (hconnected : e.2.isConnected = false)
    (he : e :: older <:+ (login server attempts s w).2.world.trace) (hnew : w.trace <:+ older) :
    ∃ r ∈ s.course server attempts w, ∃ ended mid target timeout earlier,
      LoginM.roundAttempt (s.context server) r.plan r.run = (ended, mid) ∧ Connects r.run mid target timeout ∧
      e :: earlier <:+ sinceConnected mid.world.trace ∧
      older = earlier ++ (r.run.world.now, .connected (r.run.world.connects + 1) target timeout) ::
        r.run.world.trace := by
  obtain ⟨r, hr, hsuffix, hround⟩ := round_of_event hb hc he hnew
  rcases ha : LoginM.roundAttempt (s.context server) r.plan r.run with ⟨ended, mid⟩
  have hmid : e :: older <:+ mid.world.trace := by
    unfold LoginM.round at hround
    cases ended with
    | error stop =>
      rw [Op.bind_of_error ha] at hround
      exact hround
    | ok ended =>
      rw [Op.bind_of_ok ha] at hround
      rcases (LoginM.settle_keeps (s.context server) r.plan ended mid).trace.cons_suffix_cases hround with
        ⟨hbetween', -⟩ | hmid
      · exact absurd hbetween' hbetween
      · exact hmid
  rcases LoginM.roundAttempt_connects ha with ⟨hsame, -⟩ | ⟨target, timeout, -, hconnects⟩
  · rw [hsame] at hmid
    exact absurd hmid (not_cons_suffix hsuffix)
  have hconnection : (r.run.world.now, Event.connected (r.run.world.connects + 1) target timeout) ::
      r.run.world.trace <:+ older := by
    rcases cons_suffix_or_suffix hmid hconnects.trace.suffix with hs | hs
    · rcases List.suffix_cons_iff.mp hs with heq | hs
      · cases heq
        cases hconnected
      · exact absurd hs (not_cons_suffix hsuffix)
    · exact hs
  obtain ⟨earlier, rfl⟩ := hconnection
  refine ⟨r, hr, ended, mid, target, timeout, earlier, ha, hconnects, ?_, rfl⟩
  rw [hconnects.trace_eq, ← List.cons_append] at hmid
  exact List.suffix_append_self_iff.mp hmid

end LoginStart

end TdsSession
