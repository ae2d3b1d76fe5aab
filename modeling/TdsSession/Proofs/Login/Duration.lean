import TdsSession.Proofs.Login.Sleeps
import TdsSession.Proofs.Login.TokenRetry

/-!
# How long a login takes

Every attempt has a time limit that ends with the budget at the latest, and
every sleep, in an attempt or after it, ends before. So a login with a budget is over
when its budget is, and the budget begins with the login, or once anew when a
token is at hand (`LoginRun.InBudget`): a login takes no longer than its
budget, and no longer than twice that if the budget has been renewed
(`login_in_time`).
-/

namespace TdsSession

open Op (Keeps)

variable {σ : Type}

/-! ## The time for an attempt -/

namespace LoginM

variable {x : LoginContext σ} {plan : LoginPlan} {run mid : LoginRun σ} {total : Span}

/-- The attempt of a round leaves the world as it is, or it connects with a time limit within the budget, and
it is over at the limit. -/
theorem roundAttempt_limited {r : Except Stop RoundEnd} (ht : run.budget.total = some total)
    (h : roundAttempt x plan run = (r, mid)) :
    mid.world = run.world ∨
      ∃ target l, Connects run mid target (some l) ∧ l ≤ run.budget.start + total - run.world.now ∧
        mid.world.now ≤ run.world.now + l := by
  rcases roundAttempt_cases h with ⟨aliases, -, ⟨s, -, rfl⟩ | ⟨target, timeout, -, htimeout, htry⟩⟩
  · exact .inl rfl
  have hresolving : (run.resolving aliases).budget.total = some total := ht
  obtain ⟨l, rfl, hl⟩ := roundTimeout_le hresolving htimeout
  rcases htimed : timedAttempt x.server (x.attempt target (some l) (run.resolving aliases).world.now)
    (run.resolving aliases) with ⟨res, mid₁⟩
  have hworld := tryTarget_world htry htimed
  rcases timedAttempt_cases htimed with ⟨rfl, -⟩ | hframe
  · exact .inl hworld
  right
  refine ⟨target, l, ⟨?_, ?_⟩, hl, ?_⟩
  · rw [hworld, hframe.connects]
    rfl
  · rw [hworld]
    exact hframe.trace
  · have hlimit := hframe.inTime.2 (run.world.now + l) rfl
    have hnow : max run.world.now (run.world.now + l) = run.world.now + l := Nat.max_eq_right (Nat.le_add_right ..)
    rw [hworld, ← hnow]
    exact hlimit

end LoginM

/-! ## The time after an attempt -/

/-- How a login goes on from the end of an attempt until its next attempt, or its end. -/
inductive Follows (mid : LoginRun σ) : LoginRun σ → Prop
  | atOnce : Follows mid mid
  | renewed (e : Error) (he : mid.Renews e) : Follows mid mid.restarted
  /-- A sleep, which may be cut off. -/
  | slept (span : Span) (t : Moment) (hs : mid.budget.canSleep mid.world.now span = .ok true)
      (ht : mid.world.now ≤ t) (hspan : t ≤ mid.world.now + span) :
      Follows mid { mid with world := { mid.world.record (.slept span) with now := t } }

/-- A sleep after an attempt ends before the budget does, and nothing else sleeps there. -/
theorem Follows.sleepsBefore {mid run' : LoginRun σ} {total : Span} {old : List (Moment × Event)}
    (h : Follows mid run') (ht : mid.budget.total = some total)
    (hattempt : SleepsBefore (mid.budget.start + total) old mid.world.trace) :
    SleepsBefore (mid.budget.start + total) old run'.world.trace := by
  cases h with
  | atOnce => exact hattempt
  | renewed e he => exact hattempt.cons nofun
  | slept span t hs =>
    refine hattempt.cons fun span' h => ?_
    cases h
    exact Budget.add_lt_of_canSleep ht hs

/-- What takes a span is not waited for any longer. -/
theorem le_add_of_waitFrom_eq_cut {now t : Moment} {d : Span} {limit : Option Moment}
    (h : waitFrom now (some d) limit = .cut t) : t ≤ now + d := by
  unfold waitFrom at h
  split at h
  · cases h
  · cases h
  · rename_i _ hd
    cases hd
    split at h
    · cases h
    · rename_i hlate
      cases h
      simp only [Moment, Span] at *
      omega
  · rename_i hd
    cases hd
  · rename_i hd
    cases hd

namespace LoginM

variable {x : LoginContext σ} {plan : LoginPlan} {mid : LoginRun σ}

theorem sleepOrExpire_follows (e : Error) (span : Span) (mid : LoginRun σ) :
    Follows mid (sleepOrExpire e span mid).2 := by
  unfold sleepOrExpire
  rw [Op.bind_apply, askBudget_apply]
  rcases hfits : mid.budget.canSleep mid.world.now span with o | _ | _
  · exact .atOnce
  · exact .atOnce
  · show Follows mid (inWorld (WorldM.sleep span) mid).2
    rw [inWorld_apply]
    unfold WorldM.sleep WorldM.note
    rw [Op.bind_of_ok (Op.modify_apply ..), WorldM.wait_apply]
    rcases hwait : waitFrom (mid.world.record (.slept span)).now (some span)
      (earlier none (mid.world.record (.slept span)).patience) with t | t | _
    · exact .slept span t hfits (le_of_waitFrom_eq_ready hwait) (Nat.le_of_eq (eq_add_of_waitFrom_eq_ready hwait))
    · obtain ⟨l, -, rfl⟩ := eq_max_of_waitFrom_eq_cut hwait
      exact .slept span _ hfits (Nat.le_max_left ..) (le_add_of_waitFrom_eq_cut hwait)
    · exact .slept span mid.world.now hfits (Nat.le_refl _) (Nat.le_add_right ..)

theorem afterSingleFailure_follows (x : LoginContext σ) (p : SinglePlan) (e : Error) (mid : LoginRun σ) :
    Follows mid (afterSingleFailure x p e mid).2 := by
  unfold afterSingleFailure
  rw [Op.bind_of_ok (Op.get_apply mid)]
  rcases mid.partner with _ | name
  · have hsleep := sleepOrExpire_follows e p.backoff.current mid
    dsimp only
    rw [Op.bind_apply]
    rcases h : sleepOrExpire e p.backoff.current mid with ⟨s | _, run'⟩ <;> rw [h] at hsleep <;> exact hsleep
  · dsimp only
    split
    · exact .atOnce
    rcases DataSource.parse name.toList with err | partner
    · exact .atOnce
    · rw [Op.bind_of_ok (ofExcept_ok_apply partner mid), Op.bind_apply]
      unfold planPair
      rw [Op.bind_of_ok (Op.get_apply mid)]
      rcases mid.budget.slice with o | slice <;> exact .atOnce

theorem afterPairFailure_follows (p : PairPlan) (e : Error) (mid : LoginRun σ) :
    Follows mid (afterPairFailure p e mid).2 := by
  unfold afterPairFailure
  rw [Op.bind_apply, askBudget_apply]
  rcases mid.budget.isExpired mid.world.now with o | expired
  · exact .atOnce
  rw [ofClock_ok_apply]
  dsimp only
  split
  · exact .atOnce
  split
  · have hsleep := sleepOrExpire_follows e p.failedOnce.backoff.current mid
    rw [Op.bind_apply]
    rcases h : sleepOrExpire e p.failedOnce.backoff.current mid with ⟨s | _, run'⟩ <;> rw [h] at hsleep <;>
      exact hsleep
  · exact .atOnce

/-- However a round settles what follows its attempt, it is in one of these ways. -/
theorem settle_follows (x : LoginContext σ) (plan : LoginPlan) (ended : RoundEnd) (mid : LoginRun σ) :
    Follows mid (settle x plan ended mid).2 := by
  cases ended with
  | opened e =>
    rw [settle_opened_snd]
    exact .atOnce
  | routed target => exact .atOnce
  | failed e =>
    rw [settle_failed_apply]
    split
    · rename_i he
      exact .renewed e he
    split
    · cases plan with
      | single p => exact afterSingleFailure_follows x p e mid
      | pair p => exact afterPairFailure_follows p e mid
    · exact .atOnce

end LoginM

/-! ## Within the budget -/

/-- What has been renewed stays so, as long as no other login begins. -/
theorem WasRenewed.mono {old new : List (Moment × Event)} (h : Grows (· ≠ .began) old new)
    (hold : WasRenewed (sinceBegan old)) : WasRenewed (sinceBegan new) := by
  obtain ⟨e, he, hrestarted⟩ := hold
  exact ⟨e, (sinceBegan_suffix h).subset he, hrestarted⟩

/-- No login begins in an attempt. -/
theorem LoginM.roundAttempt_grows {x : LoginContext σ} {plan : LoginPlan} {run mid : LoginRun σ}
    {r : Except Stop RoundEnd} (h : roundAttempt x plan run = (r, mid)) :
    Grows (· ≠ .began) run.world.trace mid.world.trace := by
  rcases roundAttempt_connects h with ⟨hsame, -⟩ | ⟨target, timeout, -, hconnects⟩
  · rw [hsame]
    exact .refl _
  · exact (Grows.cons (by rintro ⟨⟩) _).trans (hconnects.trace.mono fun _ => Event.over.ne_began)

/-- A login that began at `began`, with a budget of `total`, is not beyond its budget; and the budget began
with the login, or else it has been renewed before it was over. -/
structure LoginRun.InBudget (total : Span) (began : Moment) (run : LoginRun σ) : Prop where
  limited : run.budget.total = some total
  now : run.world.now ≤ run.budget.start + total
  start : run.budget.start = began ∨
    WasRenewed (sinceBegan run.world.trace) ∧ run.budget.start ≤ began + total

namespace LoginRun.InBudget

variable {x : LoginContext σ} {plan : LoginPlan} {run mid run' : LoginRun σ} {total : Span} {began : Moment}

/-- An attempt is over when the budget is. -/
theorem roundAttempt {r : Except Stop RoundEnd} (h : run.InBudget total began)
    (ha : LoginM.roundAttempt x plan run = (r, mid)) : mid.InBudget total began := by
  have hbudget := (RoundFrame.roundAttempt ha).budget
  refine ⟨by rw [hbudget, h.limited], ?_, ?_⟩
  · rw [hbudget]
    rcases LoginM.roundAttempt_limited h.limited ha with hsame | ⟨target, l, -, hl, hnow⟩
    · rw [hsame]
      exact h.now
    · have hstart := h.now
      simp only [Moment, Span] at *
      omega
  · rw [hbudget]
    exact h.start.imp_right fun ⟨hrenewed, hle⟩ => ⟨hrenewed.mono (LoginM.roundAttempt_grows ha), hle⟩

/-- What follows an attempt leaves something of the budget, or renews it for the only time. -/
theorem follows (h : mid.InBudget total began) (htoken : mid.tokenRetry = .ofTrace mid.world.trace)
    (hf : Follows mid run') : run'.InBudget total began := by
  cases hf with
  | atOnce => exact h
  | renewed e he =>
    have hfresh : ¬ WasRenewed (sinceBegan mid.world.trace) :=
      ((TokenRetry.ofTrace_eq_hasToken_iff _).mp (htoken ▸ he.1)).2
    have hstart : mid.budget.start = began := h.start.resolve_right fun hrenewed => hfresh hrenewed.1
    refine ⟨h.limited, Nat.le_add_right .., .inr ⟨?_, ?_⟩⟩
    · exact ⟨(mid.world.now, .restarted), List.mem_cons_self, rfl⟩
    · exact hstart ▸ h.now
  | slept span t hs ht hspan =>
    refine ⟨h.limited, ?_, ?_⟩
    · have hend := Budget.add_lt_of_canSleep h.limited hs
      show t ≤ mid.budget.start + total
      simp only [Moment, Span] at *
      omega
    · exact h.start.imp_right fun ⟨hrenewed, hle⟩ => ⟨hrenewed.mono (.cons (by rintro ⟨⟩) _), hle⟩

/-- A round keeps within the budget, however it ends. -/
theorem round (h : run.InBudget total began) (htoken : run.tokenRetry = .ofTrace run.world.trace)
    (x : LoginContext σ) (plan : LoginPlan) : (LoginM.round x plan run).2.InBudget total began := by
  rcases ha : LoginM.roundAttempt x plan run with ⟨s | ended, mid⟩
  · rw [LoginM.round, Op.bind_of_error ha]
    exact h.roundAttempt ha
  · rw [LoginM.round, Op.bind_of_ok ha]
    have hframe := RoundFrame.roundAttempt ha
    exact (h.roundAttempt ha).follows (hframe.token htoken) (LoginM.settle_follows x plan ended mid)

end LoginRun.InBudget

namespace LoginStart

variable {s : LoginStart} {server : Server σ} {attempts : Nat} {w : World σ} {r : RoundStart σ} {total : Span}

theorem inBudget_begun (ht : s.config.loginBudget = some total) : (s.begun w).InBudget total w.now :=
  ⟨ht, Nat.le_add_right .., .inl rfl⟩

/-- Every round of a login starts within the budget. -/
theorem inBudget_of_mem_course (ht : s.config.loginBudget = some total) (h : r ∈ s.course server attempts w) :
    r.run.InBudget total w.now := by
  have hboth : r.run.InBudget total w.now ∧ r.run.tokenRetry = .ofTrace r.run.world.trace := by
    refine course_induction (P := fun r => r.run.InBudget total w.now ∧
      r.run.tokenRetry = .ofTrace r.run.world.trace) (fun _ _ => ⟨inBudget_begun ht, rfl⟩) ?_ h
    rintro r r' ⟨hr, htoken⟩ hbefore
    have hround := hr.round htoken (s.context server) r.plan
    rw [hbefore] at hround
    exact ⟨hround, LoginM.tokenRetry_of_before hbefore htoken⟩
  exact hboth.1

/-- The rounds of a login end within the budget. -/
theorem inBudget_allRounds (ht : s.config.loginBudget = some total) (hx : s.config.partnersConflict = false) :
    (LoginM.allRounds (s.context server) attempts (s.begun w)).2.InBudget total w.now := by
  rcases LoginM.firstPlan_cases s.config (s.begun w) with ⟨plan, hplan⟩ | hover
  · rw [allRounds_eq hplan]
    rcases LoginM.rounds_snd (s.context server) attempts plan (s.begun w) with hlast | ⟨r, hr, hlast⟩
    · rw [hlast]
      exact inBudget_begun ht
    · rw [hlast]
      rw [← course_eq hx hplan] at hr
      exact (inBudget_of_mem_course ht hr).round (tokenRetry_of_mem_course hr) (s.context server) r.plan
  · rw [allRounds_of_overflow hover]
    exact inBudget_begun ht

end LoginStart

/-! ## The end of a login -/

/-- No time goes by, and no login begins. -/
structure World.Rests (w w' : World σ) : Prop where
  now : w'.now = w.now
  trace : Grows (· ≠ .began) w.trace w'.trace

instance : IsPreorder (World σ) World.Rests where
  refl _ := ⟨rfl, .refl _⟩
  trans _ _ _ h₁ h₂ := ⟨h₂.now.trans h₁.now, h₁.trace.trans h₂.trace⟩

theorem World.Rests.record (w : World σ) {e : Event} (he : e ≠ .began) : w.Rests (w.record e) :=
  ⟨rfl, Grows.cons (Q := (· ≠ .began)) he _⟩

/-- A transport that is closed at once is given up at once. -/
theorem WorldM.discard_rests {t : Transport} (h : t.line.disconnect.delay = some 0) (deadline : Option Moment) :
    Keeps World.Rests (discard t deadline : WorldM σ Unit) := by
  have hdelay : (t.answered t.line.disconnect).delay = some 0 := by
    unfold Transport.answered
    split
    · exact h
    · rfl
  have hwait : Keeps World.Rests (wait (t.answered t.line.disconnect).delay deadline : WorldM σ Unit) := by
    intro w
    rw [hdelay, wait_apply]
    rcases earlier deadline w.patience with _ | l <;> exact refl_of World.Rests w
  refine Keeps.tryCatch ?_ fun s => ?_
  · unfold disconnect
    split
    · refine Keeps.bind (fun w => World.Rests.record w (by rintro ⟨⟩)) fun _ => hwait.bind fun _ => ?_
      rcases (t.answered t.line.disconnect).value with e | a
      · exact Keeps.throw _
      · exact Keeps.pure a
    · exact Keeps.pure _
  · cases s with
    | failed e => exact Keeps.pure _
    | cut => exact Keeps.throw _
    | abandoned => exact Keeps.throw _
    | overflow => exact Keeps.throw _
    | exhausted => exact Keeps.throw _

/-- The world of a login shows that no time goes by, and that no login begins. -/
def LoginRun.Rests (run run' : LoginRun σ) : Prop := run.world.Rests run'.world

instance : IsPreorder (LoginRun σ) LoginRun.Rests where
  refl run := refl_of World.Rests run.world
  trans _ _ _ := trans_of World.Rests

/-- After its rounds a login takes no time. -/
theorem LoginM.establish_rests {x : LoginContext σ} (hclose : x.server.Closes fun c => c.delay = some 0)
    (attempts : Nat) (run : LoginRun σ) (hx : x.config.partnersConflict = false) :
    (allRounds x attempts run).2.Rests (establish x attempts run).2 := by
  have same (run run' : LoginRun σ) (h : run'.world = run.world) : run.Rests run' := by
    unfold LoginRun.Rests
    rw [h]
    exact refl_of World.Rests run.world
  refine establish_keeps hx (fun _ run => same run _ rfl) fun e conflict run' h => ?_
  have hdisconnect := (allRounds_gives hclose attempts).value trivial h
  refine refuse_keeps (fun _ run => same run _ rfl) ?_ conflict run'
  exact Keeps.inWorld (WorldM.discard_rests hdisconnect none) fun _ _ hw => hw

/-- That a login has ended is noted at once. -/
theorem LoginStart.login_rests (server : Server σ) (attempts : Nat) (s : LoginStart) (w : World σ) :
    (LoginM.establish (s.context server) attempts (s.begun w)).2.Rests (login server attempts s w).2 :=
  login_keeps (R := LoginRun.Rests) (fun _ run => .record run.world (by rintro ⟨⟩))
    (fun run _ => refl_of World.Rests run.world) server attempts s w

/-! ## The time for a login -/

/-- The world of a login that began at `began` shows no time beyond its budget, and none beyond the first
`total` if the budget has not been renewed. -/
structure World.InBudget (total : Span) (began : Moment) (w : World σ) : Prop where
  twice : w.now ≤ began + 2 * total
  once : ¬ WasRenewed (sinceBegan w.trace) → w.now ≤ began + total

namespace World.InBudget

variable {total : Span} {began : Moment} {w w' : World σ}

theorem rests (h : w.InBudget total began) (hr : w.Rests w') : w'.InBudget total began where
  twice := hr.now ▸ h.twice
  once hfresh := hr.now ▸ h.once fun hrenewed => hfresh (hrenewed.mono hr.trace)

theorem of_run {run : LoginRun σ} (h : run.InBudget total began) : run.world.InBudget total began where
  twice := by
    have hnow := h.now
    have hstart : run.budget.start ≤ began + total := h.start.elim (fun heq => heq ▸ Nat.le_add_right ..) And.right
    simp only [Moment, Span] at *
    omega
  once hfresh := by
    have hstart := h.start.resolve_right fun hrenewed => hfresh hrenewed.1
    exact hstart ▸ h.now

end World.InBudget

/-- A login is over within its budget. -/
theorem LoginStart.inBudget_login {s : LoginStart} {total : Span} (server : Server σ) (attempts : Nat) (w : World σ)
    (ht : s.config.loginBudget = some total) (hclose : server.Closes fun c => c.delay = some 0) :
    (login server attempts s w).2.world.InBudget total w.now := by
  refine World.InBudget.rests ?_ (login_rests server attempts s w)
  rcases hx : s.config.partnersConflict with _ | _
  · exact (World.InBudget.of_run (inBudget_allRounds ht hx)).rests
      (LoginM.establish_rests (x := s.context server) hclose attempts (s.begun w) hx)
  · unfold LoginM.establish
    simp only [show (s.context server).config.partnersConflict = true from hx, if_true]
    exact ⟨Nat.le_add_right .., fun _ => Nat.le_add_right ..⟩

namespace LoginM

variable {x : LoginContext σ} {plan : LoginPlan} {run run' mid : LoginRun σ} {total : Span} {t : Moment}
  {older : List (Moment × Event)}

/-- A connection that a round has tried has a time limit within the budget. -/
theorem limited_of_connected {r : Except Stop Round} {n : Nat} {target : Target} {timeout : Option Span}
    (ht : run.budget.total = some total) (h : round x plan run = (r, run'))
    (hc : (t, .connected n target timeout) :: older <:+ run'.world.trace) (hnew : run.world.trace <:+ older) :
    ∃ l, timeout = some l ∧ l ≤ run.budget.start + total - run.world.now := by
  obtain ⟨rfl, -⟩ := connected_of_round h hc hnew
  have attempt {r : Except Stop RoundEnd} {mid : LoginRun σ} (ha : roundAttempt x plan run = (r, mid))
      (hc : (t, .connected n target timeout) :: run.world.trace <:+ mid.world.trace) :
      ∃ l, timeout = some l ∧ l ≤ run.budget.start + total - run.world.now := by
    rcases roundAttempt_limited ht ha with hsame | ⟨target', l, hconnects, hl, -⟩
    · rw [hsame] at hc
      exact absurd hc (not_cons_suffix hnew)
    · have heq := (List.suffix_of_suffix_length_le hc hconnects.trace.suffix (Nat.le_of_eq rfl)).eq_of_length rfl
      cases heq
      exact ⟨l, rfl, hl⟩
  rcases Op.bind_cases h with ⟨s, ha, -⟩ | ⟨ended, mid, ha, hs⟩
  · exact attempt ha hc
  · rcases ((settle_keeps x plan ended).of_eq hs).trace.cons_suffix_cases hc with ⟨hbetween, -⟩ | hc
    · exact hbetween.elim
    · exact attempt ha hc

/-- All sleeps of a round, in its attempt and after it, end before its budget does. -/
theorem round_sleepsBefore (ht : run.budget.total = some total) (x : LoginContext σ) (plan : LoginPlan) :
    SleepsBefore (run.budget.start + total) run.world.trace (round x plan run).2.world.trace := by
  rcases ha : roundAttempt x plan run with ⟨s | ended, mid⟩
  · rw [round, Op.bind_of_error ha]
    exact roundAttempt_sleepsBefore ht ha
  · rw [round, Op.bind_of_ok ha]
    have hattempt := roundAttempt_sleepsBefore ht ha
    rw [← (RoundFrame.roundAttempt ha).budget] at ht hattempt ⊢
    exact (settle_follows x plan ended mid).sleepsBefore ht hattempt

end LoginM

/-- A login whose transports close at once takes no longer than its budget, or twice that if the budget has
been renewed, and a caller that waits for it is not left waiting. Every attempt has a time limit that ends
with the budget at the latest, and has ended by then; every sleep of the login is one of a round, in its
attempt or after it, and ends strictly before the budget of the round does. -/
theorem login_in_time (server : Server σ) (attempts : Nat) (s : LoginStart) (w : World σ) {total : Span}
    (ht : s.config.loginBudget = some total) (hclose : server.Closes fun c => c.delay = some 0) :
    (login server attempts s w).2.world.now ≤ w.now + 2 * total ∧
    (¬ WasRenewed (sinceBegan (login server attempts s w).2.world.trace) →
      (login server attempts s w).2.world.now ≤ w.now + total) ∧
    (w.Patient → ∀ t, (login server attempts s w).1 = .error t → t.ofRound ∨ t = .exhausted) ∧
    (∀ t n target timeout older,
      (t, Event.connected n target timeout) :: older <:+ (login server attempts s w).2.world.trace →
      w.trace <:+ older →
      ∃ r ∈ s.course server attempts w, r.run.world.trace = older ∧ r.run.world.now = t ∧
        ∃ l, timeout = some l ∧ t + l ≤ r.run.budget.start + total) ∧
    (∀ r ∈ s.course server attempts w, ∀ ended mid,
      LoginM.roundAttempt (s.context server) r.plan r.run = (ended, mid) →
      mid.world.now ≤ r.run.budget.start + total ∧
        ∀ t span older,
          (t, Event.slept span) :: older <:+ (LoginM.round (s.context server) r.plan r.run).2.world.trace →
          r.run.world.trace <:+ older → t + span < r.run.budget.start + total) ∧
    ∀ t span older,
      (t, Event.slept span) :: older <:+ (login server attempts s w).2.world.trace → w.trace <:+ older →
      ∃ r ∈ s.course server attempts w, r.run.world.trace <:+ older ∧
        (t, Event.slept span) :: older <:+ (LoginM.round (s.context server) r.plan r.run).2.world.trace ∧
        t + span < r.run.budget.start + total := by
  have hlogin := LoginStart.inBudget_login server attempts w ht hclose
  refine ⟨hlogin.twice, hlogin.once, fun hw t h => ?_, fun t n target timeout older hc hnew => ?_,
    fun r hr ended mid ha => ?_, fun t span older hs hnew => ?_⟩
  · have hbudget : s.config.loginBudget ≠ none := by
      rw [ht]
      exact Option.some_ne_none total
    rcases LoginStart.login_ends hbudget hw h with hround | ⟨hexhausted, -⟩ | ⟨-, hstuck⟩
    · exact .inl hround
    · exact .inr hexhausted
    · exact absurd hstuck (LoginM.not_stuckClosing hclose.of_atOnce)
  · obtain ⟨r, hr, hsuffix, hround⟩ := LoginStart.round_of_event (by rintro ⟨⟩) (by rintro ⟨⟩) hc hnew
    have hstart := LoginStart.inBudget_of_mem_course ht hr
    obtain ⟨l, rfl, hl⟩ := LoginM.limited_of_connected hstart.limited rfl hround hsuffix
    obtain ⟨rfl, rfl, -⟩ := LoginM.connected_of_round rfl hround hsuffix
    refine ⟨r, hr, rfl, rfl, l, rfl, ?_⟩
    have hnow := hstart.now
    simp only [Moment, Span] at *
    omega
  · have hstart := LoginStart.inBudget_of_mem_course ht hr
    refine ⟨?_, fun t span older hs hnew => ?_⟩
    · rw [← (RoundFrame.roundAttempt ha).budget]
      exact (hstart.roundAttempt ha).now
    · exact (LoginM.round_sleepsBefore hstart.limited (s.context server) r.plan).lt_of_slept hs hnew
  · obtain ⟨r, hr, hsuffix, hround⟩ := LoginStart.round_of_event (by rintro ⟨⟩) (by rintro ⟨⟩) hs hnew
    have hstart := LoginStart.inBudget_of_mem_course ht hr
    have hsleeps := LoginM.round_sleepsBefore hstart.limited (s.context server) r.plan
    exact ⟨r, hr, hsuffix, hround, hsleeps.lt_of_slept hround hsuffix⟩

/-- The transports of a scripted server close at once. -/
theorem LineFaults.server_closes (f : LineFaults) : f.server.Closes fun c => c.delay = some 0 := by
  intro script n target timeout line h
  unfold LineFaults.server at h
  rcases hnext : script.next target.host with ⟨_ | _ | ⟨records, stalls⟩, rest⟩ <;> simp only [hnext] at h <;>
    cases h
  show (LineFaults.call f.disconnect n ()).delay = some 0
  unfold LineFaults.call
  split <;> rfl

/-- A server that asks for a token, is busy then, and never answers again; the provider of the token is down when
it is asked first. -/
def lostWorld : World LoginScript :=
  { busyWorld with
    server := { busyWorld.server with fallback := .hang }
    providers := [(.directoryDefault, .answers
      [⟨some 0, .error (.transient "down")⟩, ⟨some 0, .ok ⟨"token", Span.ofSeconds 3600⟩⟩])] }

/-- There is a sleep in the first attempt, and one after it. The budget of 15 seconds is renewed, and used up to
the end. -/
theorem lostWorld_in_time :
    (login (LineFaults.server {}) 3 federatedLogin lostWorld).2.world.connections =
        [(0, "primary", some 15000000000), (200000000, "primary", some 14800000000),
          (15000000000, "primary", some 15000000000)] ∧
      [(0, Event.slept 100000000), (100000000, Event.slept 100000000)] ⊆
        (login (LineFaults.server {}) 3 federatedLogin lostWorld).2.world.trace ∧
      (∀ t span older,
        (t, Event.slept span) :: older <:+ (login (LineFaults.server {}) 3 federatedLogin lostWorld).2.world.trace →
        ∃ r ∈ federatedLogin.course (LineFaults.server {}) 3 lostWorld,
          t + span < r.run.budget.start + 15000000000) ∧
      (login (LineFaults.server {}) 3 federatedLogin lostWorld).2.world.now = 30000000000 ∧
      (login (LineFaults.server {}) 3 federatedLogin lostWorld).2.world.now ≤ 0 + 2 * 15000000000 := by
  obtain ⟨htwice, -, -, -, -, hsleeps⟩ :=
    login_in_time (LineFaults.server {}) 3 federatedLogin lostWorld rfl (LineFaults.server_closes {})
  refine ⟨by decide +kernel, by decide +kernel, fun t span older h => ?_, by decide +kernel, htwice⟩
  obtain ⟨r, hr, -, -, hlt⟩ := hsleeps t span older h (List.nil_suffix)
  exact ⟨r, hr, hlt⟩

end TdsSession
