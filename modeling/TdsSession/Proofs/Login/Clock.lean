import TdsSession.Proofs.Bearer.Overflow
import TdsSession.Proofs.Login.Partner
import TdsSession.Proofs.Login.Termination

/-!
# Logins and the end of the clock

A login overflows the clock where a question to its budget does, or getting a
token. Neither can happen while its times stay within `ClockRoom`: an attempt
shows no time beyond the end of the budget, and there are no more slices in the
time for an attempt than there have been attempts.
-/

namespace TdsSession

open Op (Ends Stops)

variable {σ : Type}

/-! ## Attempts -/

theorem WorldM.cutReason_ne_overflow (deadline : Option Moment) (now : Moment) :
    cutReason deadline now ≠ .overflow := by
  unfold cutReason
  split <;> exact nofun

/-- A wait needs no time that the clock cannot show. -/
theorem WorldM.wait_stops (delay : Option Span) (deadline : Option Moment) :
    Stops (fun _ => True) (· ≠ .overflow) (wait delay deadline : WorldM σ Unit) := by
  intro w _
  rw [wait_apply]
  rcases waitFrom w.now delay (earlier deadline w.patience) with t | t | _
  · exact ⟨trivial, trivial⟩
  · exact ⟨trivial, cutReason_ne_overflow deadline t⟩
  · exact ⟨trivial, nofun⟩

/-- What the attempts on a budget need so that the clock can show all of their times: it can show those of the
budget, no moment is beyond `last`, and no sleep for a token is longer than `longest`, where `initial` is the
first. -/
structure Budget.HasRoom (b : Budget) (initial : Span) (last : Moment) (longest : Span) : Prop where
  inClock : b.InClock
  ends : ∀ total, b.total = some total → b.start + total ≤ last
  initial : initial ≤ longest
  doubled : 2 * last ≤ longest
  shown : last + longest < Span.momentLimit

/-- An attempt on a budget with an end has to be over by `last`. -/
structure AttemptPlan.HasRoom (p : AttemptPlan) (b : Budget) (last : Moment) (longest : Span) : Prop
    extends b.HasRoom p.config.acquisition.initialBackoff last longest where
  deadline : b.total ≠ none → ∃ d, p.deadline = some d ∧ d ≤ last

/-- The budget is `b`, and if that has an end, the clock shows nothing beyond `last`, and no provider asks for
a wait longer than `longest`. -/
structure WithinRoom (b : Budget) (last : Moment) (longest : Span) (b' : Budget) (w : World σ) : Prop where
  budget : b' = b
  now : b.total ≠ none → w.now ≤ last
  asks : b.total ≠ none → w.providers.AsksWithin longest

namespace AttemptPlan.HasRoom

variable {p : AttemptPlan} {b : Budget} {last : Moment} {longest : Span} (room : p.HasRoom b last longest)

include room

theorem le_last (htotal : b.total ≠ none) {now t : Moment} (hnow : now ≤ last) (ht : InTime p.deadline now t) :
    t ≤ last := by
  obtain ⟨d, hd, hle⟩ := room.deadline htotal
  exact Nat.le_trans (ht.2 d hd) (Nat.max_le.mpr ⟨hnow, hle⟩)

theorem waits (b' : Budget) (delay : Option Span) :
    Stops (WithinRoom b last longest b') (· ≠ .overflow) (WorldM.wait delay p.deadline : WorldM σ Unit) := by
  intro w hw
  have later {t : Moment} (ht : InTime p.deadline w.now t) : WithinRoom b last longest b' { w with now := t } :=
    ⟨hw.budget, fun htotal => room.le_last htotal (hw.now htotal) ht, hw.asks⟩
  rw [WorldM.wait_apply]
  rcases hwait : waitFrom w.now delay (earlier p.deadline w.patience) with t | t | _
  · exact ⟨later (.of_ready hwait), trivial⟩
  · exact ⟨later (.of_cut hwait), WorldM.cutReason_ne_overflow p.deadline t⟩
  · exact ⟨hw, nofun⟩

/-- A provider that is asked within an attempt does not overflow the clock. -/
theorem provider_ne_overflow {run : LoginRun σ} (hrun : WithinRoom b last longest run.budget run.world)
    {method : AuthMethod} {provider : Provider} (hfound : Table.find? run.world.providers method = some provider)
    (r : TokenRequest) :
    (provider.acquire p.config.acquisition r (b.total.map (b.start + ·))
      { limit := earlier p.deadline run.world.patience } run.world.now).1.ended ≠ .overflow := by
  rcases htotal : b.total with _ | total
  · exact Provider.acquire_ne_overflow_of_none provider run.world.now
  · have hlimited : b.total ≠ none := by
      rw [htotal]
      exact Option.some_ne_none total
    have hprovider := hrun.asks hlimited method provider hfound
    refine Provider.acquire_ne_overflow (e := last) ?_ room.doubled room.shown (room.ends total htotal)
      room.initial hprovider (hrun.now hlimited)
    exact fun hnow hwait => room.le_last hlimited hnow (.of_ready hwait)

theorem acquire (method : AuthMethod) (r : TokenRequest) (key : CacheKey) (claim : CacheClaim) :
    Stops (fun run => WithinRoom b last longest run.budget run.world) (· ≠ .overflow)
      (LoginM.acquire p method r (b.total.map (b.start + ·)) key claim : LoginM σ BearerToken) := by
  refine Ends.get.bind fun run hrun => ?_
  refine (Ends.ofExcept _ fun _ => by rintro ⟨⟩).bind fun provider hprovider => ?_
  have hfound : Table.find? run.world.providers method = some provider := by
    unfold ProviderRegistry.resolve at hprovider
    split at hprovider <;> cases hprovider
    assumption
  have hover := room.provider_ne_overflow hrun hfound r
  have hintime := inTime_acquire p.config.acquisition r (b.total.map (b.start + ·))
    { limit := earlier p.deadline run.world.patience } rfl run.world.now provider
  have hleft := fun longest (h : provider.AsksWithin longest) =>
    h.acquire p.config.acquisition r (b.total.map (b.start + ·))
      { limit := earlier p.deadline run.world.patience } run.world.now
  generalize provider.acquire p.config.acquisition r (b.total.map (b.start + ·))
    { limit := earlier p.deadline run.world.patience } run.world.now = course at hover hintime hleft ⊢
  obtain ⟨course, provider'⟩ := course
  have hafter : WithinRoom b last longest run.budget (LoginM.recordAcquisition r
      { run.world with providers := Table.set run.world.providers method provider' } course) :=
    ⟨hrun.budget, fun htotal => room.le_last htotal (hrun.now htotal) hintime,
      fun htotal => (hrun.asks htotal).set method (hleft longest (hrun.asks htotal method provider hfound))⟩
  dsimp only at hover ⊢
  rcases hended : course.ended with outcome | _ | _ | _ <;> rw [hended] at hover <;> dsimp only
  · refine Op.ends_set_bind hafter ?_
    exact (Ends.ofExcept _ fun _ => by rintro ⟨⟩).stops
  · exact Op.ends_set_bind hafter (Ends.throw (WorldM.cutReason_ne_overflow _ _))
  · exact Op.ends_set_bind hafter (Ends.throw (by rintro ⟨⟩))
  · exact absurd rfl hover

theorem fetches (method : AuthMethod) (info : FedAuthInfo) :
    Stops (fun run => WithinRoom b last longest run.budget run.world) (· ≠ .overflow)
      (LoginM.fetchToken p method info : LoginM σ BearerToken) := by
  have asked : Ends (fun run : LoginRun σ => WithinRoom b last longest run.budget run.world)
      (· = b.total.map (b.start + ·)) (· ≠ .overflow) (LoginM.askBudget fun budget _ => budget.deadline) := by
    intro run hrun
    rw [LoginM.askBudget_apply, hrun.budget, room.inClock.deadline_eq]
    exact ⟨hrun, rfl⟩
  refine asked.bind fun until? huntil => ?_
  subst huntil
  refine Ends.get.bind fun run hrun => ?_
  dsimp only
  refine Op.ends_set_bind hrun ?_
  rcases (run.group.cache.lookUp ⟨info.stsUrl, info.spn⟩ run.world.wallTime).2 with token | claim
  · exact Ends.pure trivial
  · exact room.acquire method _ _ claim

/-- Such an attempt does not overflow the clock, and shows no time beyond `last`. -/
theorem bears : p.Bears (WithinRoom (σ := σ) b last longest) (· ≠ .overflow) where
  failed _ := nofun
  noted _ _ _ _ h := ⟨h.budget, h.now, h.asks⟩
  connecting _ _ _ _ h := ⟨h.budget, h.now, h.asks⟩
  waits := room.waits
  fetches := room.fetches

end AttemptPlan.HasRoom

/-! ## Rounds -/

namespace LoginPlan

/-- The slice by which the time for an attempt grows. -/
def slice : LoginPlan → Span
  | .single p => p.slice
  | .pair p => p.slice

/-- How many attempts have failed by the plan. -/
def failed : LoginPlan → Nat
  | .single p => p.failed
  | .pair p => p.failed

theorem slice_withRoute (plan : LoginPlan) (target : Target) : (plan.withRoute target).slice = plan.slice := by
  cases plan with
  | single p => rfl
  | pair p =>
    show slice (.pair (p.withRoute target)) = _
    unfold PairPlan.withRoute
    split <;> rfl

theorem failed_withRoute (plan : LoginPlan) (target : Target) : (plan.withRoute target).failed = plan.failed := by
  cases plan with
  | single p => rfl
  | pair p =>
    show failed (.pair (p.withRoute target)) = _
    unfold PairPlan.withRoute
    split <;> rfl

end LoginPlan

/-- The slice of the budget that the options give. -/
def Config.slice (c : Config) : Span := c.loginBudget.getD Budget.sliceBase * Budget.slicePercent / 100

namespace Continues

variable {x : LoginContext σ} {mid run' : LoginRun σ} {plan plan' : LoginPlan} {ended : RoundEnd}

/-- The slices stay what the budget gives. -/
theorem slice_eq (h : Continues x mid plan ended plan' run') (hb : mid.budget.slice = .ok plan.slice) :
    plan'.slice = plan.slice := by
  cases h with
  | routed plan target => exact LoginPlan.slice_withRoute plan target
  | renewed => rfl
  | slept => rfl
  | switched _ _ _ _ _ _ _ _ _ slice hslice =>
    rw [hb] at hslice
    exact (Except.ok.inj hslice).symm
  | alternated => rfl
  | sleptAlternated => rfl

theorem failed_le (h : Continues x mid plan ended plan' run') : plan'.failed ≤ plan.failed + 1 := by
  cases h with
  | routed plan target =>
    rw [LoginPlan.failed_withRoute]
    exact Nat.le_succ _
  | renewed => exact Nat.le_succ _
  | slept => exact Nat.le_refl _
  | switched => exact Nat.zero_le _
  | alternated => exact Nat.le_refl _
  | sleptAlternated => exact Nat.le_refl _

theorem providers_eq (h : Continues x mid plan ended plan' run') : run'.world.providers = mid.world.providers := by
  cases h <;> rfl

end Continues

namespace LoginM

variable {x : LoginContext σ} {plan : LoginPlan} {run mid : LoginRun σ}

theorem askBudget_ne_overflow {α : Type} {question : Budget → Moment → Except Overflow α}
    (h : ∀ o, question run.budget run.world.now ≠ .error o) :
    (askBudget question run).1 ≠ .error .overflow := by
  rw [askBudget_apply]
  rcases hq : question run.budget run.world.now with o | a
  · exact absurd hq (h o)
  · exact nofun

/-- The time for the next attempt is a time that the clock can show, if that many slices are. -/
theorem roundTimeout_ne_overflow (hb : run.budget.InClock) (hslice : plan.slice * (plan.failed + 1) < Span.limit) :
    (roundTimeout x plan run).1 ≠ .error .overflow := by
  have mapped {m : LoginM σ Span} (h : (m run).1 ≠ .error .overflow) :
      ((some <$> m : LoginM σ (Option Span)) run).1 ≠ .error .overflow := by
    rw [Op.map_apply]
    rcases hm : m run with ⟨s | a, run'⟩
    · rw [hm] at h
      rintro ⟨⟩
      exact h rfl
    · exact nofun
  cases plan with
  | single p =>
    unfold roundTimeout
    dsimp only
    split
    · exact mapped (askBudget_ne_overflow (hb.manyAddressTimeout_ne_error hslice _))
    · refine askBudget_ne_overflow fun o => ?_
      rw [hb.remaining_eq]
      exact nofun
  | pair p => exact mapped (askBudget_ne_overflow (hb.pairTimeout_ne_error hslice _))

section

variable {last : Moment} {longest : Span}

/-- A redirect is looked at in no time, and its question to the budget is answered. -/
theorem followRedirect_onClock (c : Config) (source : Target) (target : Routing) (hb : run.budget.InClock)
    {r : Except Stop RoundEnd} (h : followRedirect c source target run = (r, mid)) :
    r ≠ .error .overflow ∧ mid.budget = run.budget ∧ mid.world = run.world := by
  by_cases hlimit : c.redirect.follow = false ∨ c.redirect.limit ≤ run.redirects
  · rw [followRedirect_of_limit source target hlimit] at h
    cases h
    exact ⟨nofun, rfl, rfl⟩
  · obtain ⟨hfollow, hlt⟩ := not_or.mp hlimit
    rw [followRedirect_of_allowed source target (by simpa using hfollow) (Nat.not_le.mp hlt)] at h
    rcases hx : run.budget.isExpired run.world.now with o | _ | _
    · exact absurd hx (hb.isExpired_ne_error _ o)
    all_goals
      rw [hx] at h
      cases h
      exact ⟨nofun, rfl, rfl⟩

theorem tryTarget_onClock {target : Target} {timeout : Option Span}
    (room : (x.attempt target timeout run.world.now).HasRoom run.budget last longest)
    (hrun : WithinRoom run.budget last longest run.budget run.world) {r : Except Stop RoundEnd}
    (h : tryTarget x target timeout run = (r, mid)) :
    r ≠ .error .overflow ∧ WithinRoom run.budget last longest mid.budget mid.world := by
  have htimed : Stops (fun after => WithinRoom run.budget last longest after.budget after.world) (· ≠ .overflow)
      (timedAttempt x.server (x.attempt target timeout run.world.now)) := by
    refine Ends.tryCatch ((room.bears.attempt x.server).map fun _ _ => trivial) fun s hs => ?_
    cases s with
    | failed e => exact Ends.pure trivial
    | cut => exact Ends.pure trivial
    | abandoned => exact Ends.throw hs
    | overflow => exact absurd rfl hs
    | exhausted => exact Ends.throw hs
  have hend := htimed run hrun
  rw [tryTarget_apply] at h
  rcases hattempt : timedAttempt x.server (x.attempt target timeout run.world.now) run with
    ⟨s | e | e | next, after⟩ <;> simp only [hattempt] at h hend
  · cases h
    exact ⟨fun he => hend.2 (by cases he; rfl), hend.1⟩
  · cases h
    exact ⟨nofun, hend.1⟩
  · cases h
    exact ⟨nofun, hend.1⟩
  · have hbudget : after.budget.InClock := by
      rw [hend.1.budget]
      exact room.inClock
    rcases hr : followRedirect x.config target next after with ⟨s | ended, last'⟩ <;> rw [hr] at h <;> cases h <;>
      obtain ⟨hover, hsame, hworld⟩ := followRedirect_onClock x.config target next hbudget hr
    · exact ⟨fun he => hover (by cases he; rfl), by rw [hsame, hworld]; exact hend.1⟩
    · refine ⟨nofun, ?_⟩
      show WithinRoom run.budget last longest last'.budget last'.world
      rw [hsame, hworld]
      exact hend.1

theorem roundTarget_ne_overflow (x : LoginContext σ) (plan : LoginPlan) (run : LoginRun σ) :
    (roundTarget x plan run).1 ≠ .error .overflow := by
  rw [roundTarget_apply]
  rcases plan.route with _ | target
  · rcases plan.source x.config run.partner with e | source
    · exact nofun
    · simp only [resolve_apply]
      rcases Target.resolve x.config true run.base.aliases source with e | ⟨target, aliases⟩ <;> exact nofun
  · exact nofun

/-- The attempt of a round does not overflow the clock, if that can show as many slices as there have been
attempts. -/
theorem roundAttempt_onClock (room : run.budget.HasRoom x.config.acquisition.initialBackoff last longest)
    (hslice : plan.slice * (plan.failed + 1) < Span.limit)
    (hrun : WithinRoom run.budget last longest run.budget run.world) {r : Except Stop RoundEnd}
    (h : roundAttempt x plan run = (r, mid)) :
    r ≠ .error .overflow ∧ WithinRoom run.budget last longest mid.budget mid.world := by
  unfold roundAttempt at h
  rw [Op.bind_of_ok (enter_apply ..)] at h
  have htarget := roundTarget_ne_overflow x plan { run with phase := .resolvingIdentity }
  obtain ⟨aliases, haliases, -⟩ := roundTarget_snd x plan { run with phase := .resolvingIdentity }
  rcases ht : roundTarget x plan { run with phase := .resolvingIdentity } with ⟨res, after⟩
  rw [ht] at htarget haliases
  have hafter : after = run.resolving aliases := haliases
  subst hafter
  rcases res with s | target
  · rw [Op.bind_of_error ht] at h
    cases h
    exact ⟨fun he => htarget (by cases he; rfl), hrun⟩
  rw [Op.bind_of_ok ht] at h
  have htimeout : (roundTimeout x plan (run.resolving aliases)).1 ≠ .error .overflow :=
    roundTimeout_ne_overflow room.inClock hslice
  have hsame := roundTimeout_snd x plan (run.resolving aliases)
  rcases hl : roundTimeout x plan (run.resolving aliases) with ⟨s | timeout, after⟩ <;>
    rw [hl] at htimeout hsame <;> cases hsame
  · rw [Op.bind_of_error hl] at h
    cases h
    exact ⟨fun he => htimeout (by cases he; rfl), hrun⟩
  rw [Op.bind_of_ok hl] at h
  have hroom : (x.attempt target timeout (run.resolving aliases).world.now).HasRoom (run.resolving aliases).budget
      last longest := by
    refine ⟨room, fun htotal => ?_⟩
    obtain ⟨total, ht⟩ := Option.ne_none_iff_exists'.mp htotal
    have hl : (roundTimeout x plan (run.resolving aliases)).1 = .ok timeout := by rw [hl]
    obtain ⟨l, rfl, hle⟩ := roundTimeout_le ht hl
    have hnow := hrun.now htotal
    have hend := room.ends total ht
    have hle : l ≤ run.budget.start + total - run.world.now := hle
    refine ⟨run.world.now + l, rfl, ?_⟩
    simp only [Moment, Span] at *
    omega
  exact tryTarget_onClock hroom hrun h

end

/-- A question to the budget that the clock can answer is answered. -/
theorem askBudget_stops {α : Type} {question : Budget → Moment → Except Overflow α}
    (h : ∀ b now o, b.InClock → question b now ≠ .error o) :
    Stops (fun run => run.budget.InClock) (· ≠ .overflow) (askBudget question : LoginM σ α) := by
  intro run hrun
  have hover : (askBudget question run).1 ≠ .error .overflow :=
    askBudget_ne_overflow fun o => h run.budget run.world.now o hrun
  rw [askBudget_apply] at hover ⊢
  rcases hq : question run.budget run.world.now with o | a <;> rw [hq] at hover
  · exact absurd rfl hover
  · exact ⟨hrun, trivial⟩

theorem sleepOrExpire_stops (e : Error) (span : Span) :
    Stops (fun run => run.budget.InClock) (· ≠ .overflow) (sleepOrExpire e span : LoginM σ Unit) := by
  have hsleep : Stops (fun _ => True) (· ≠ .overflow) (WorldM.sleep span : WorldM σ Unit) :=
    (WorldM.note_stops fun _ _ => trivial).bind fun _ _ => WorldM.wait_stops _ _
  refine (askBudget_stops fun b now o hb => hb.canSleep_ne_error now span o).bind fun fits _ => ?_
  split
  · exact fun run hrun => ⟨hrun, (hsleep run.world trivial).2⟩
  · exact Ends.fail nofun

theorem afterSingleFailure_stops (x : LoginContext σ) (p : SinglePlan) (e : Error) :
    Stops (fun run => run.budget.InClock) (· ≠ .overflow) (afterSingleFailure x p e) := by
  have planned (partner : DataSource) : Stops (fun run => run.budget.InClock) (· ≠ .overflow)
      (planPair x.config partner true : LoginM σ LoginPlan) := by
    refine Ends.get.bind fun run hrun => ?_
    rw [hrun.slice_eq]
    exact Ends.pure trivial
  refine Ends.get.bind fun run _ => ?_
  dsimp only
  split
  · split
    · exact Ends.fail nofun
    refine (Ends.ofExcept _ fun _ => nofun).bind fun partner _ => ?_
    exact (planned partner).bind fun _ _ => Ends.pure trivial
  · exact (sleepOrExpire_stops e _).bind fun _ _ => Ends.pure trivial

theorem afterPairFailure_stops (p : PairPlan) (e : Error) :
    Stops (fun run => run.budget.InClock) (· ≠ .overflow) (afterPairFailure p e : LoginM σ Round) := by
  refine (askBudget_stops fun b now o hb => hb.isExpired_ne_error now o).bind fun expired _ => ?_
  dsimp only
  split
  · exact Ends.fail nofun
  split
  · exact (sleepOrExpire_stops e _).bind fun _ _ => Ends.pure trivial
  · exact Ends.pure trivial

/-- What follows an attempt does not overflow the clock. -/
theorem settle_ne_overflow (x : LoginContext σ) (plan : LoginPlan) (ended : RoundEnd) (hb : mid.budget.InClock) :
    (settle x plan ended mid).1 ≠ .error .overflow := by
  have stopped {m : LoginM σ Round} (h : Stops (fun run => run.budget.InClock) (· ≠ .overflow) m) :
      (m mid).1 ≠ .error .overflow := by
    intro hover
    exact h.reason hb (Prod.ext hover rfl) rfl
  cases ended with
  | opened e =>
    rcases settle_opened_cases x plan e mid with ⟨-, h⟩ | ⟨-, onPartner, h⟩ <;> rw [h] <;> exact nofun
  | routed target => exact nofun
  | failed e =>
    rw [settle_failed_apply]
    split
    · exact nofun
    split
    · cases plan with
      | single p => exact stopped (afterSingleFailure_stops x p e)
      | pair p => exact stopped (afterPairFailure_stops p e)
    · exact nofun

end LoginM

/-! ## The whole login -/

/-- What a login with the options `c` needs so that the clock can show all of its times, if it begins at `began`
and makes `most` attempts at most. Twice the budget is as long as it can take, since that may be renewed. -/
structure Config.HasRoom (c : Config) (began last : Moment) (longest : Span) (most : Nat) : Prop where
  slices : c.loginBudget.getD Budget.sliceBase * Budget.slicePercent < Span.limit
  grown : c.slice * most < Span.limit
  ends : ∀ total, c.loginBudget = some total → began + 2 * total ≤ last
  initial : c.acquisition.initialBackoff ≤ longest
  doubled : 2 * last ≤ longest
  shown : last + longest < Span.momentLimit

/-- A round of a login that began at `began`, when there may be `left` more attempts of `most`. -/
structure RoundStart.OnClock (c : Config) (began : Moment) (longest : Span) (most left : Nat) (r : RoundStart σ) :
    Prop where
  slice : r.plan.slice = c.slice
  failed : r.plan.failed + left ≤ most
  total : r.run.budget.total = c.loginBudget
  inBudget : ∀ total, c.loginBudget = some total → r.run.InBudget total began
  token : r.run.tokenRetry = .ofTrace r.run.world.trace
  asks : c.loginBudget ≠ none → r.run.world.providers.AsksWithin longest

namespace RoundStart.OnClock

variable {x : LoginContext σ} {began last : Moment} {longest : Span} {most left : Nat} {r : RoundStart σ}

theorem start_le (h : r.OnClock x.config began longest most left) {total : Span}
    (ht : x.config.loginBudget = some total) : r.run.budget.start + total ≤ began + 2 * total := by
  rcases (h.inBudget total ht).start with hstart | ⟨-, hstart⟩
  · rw [hstart]
    simp only [Moment, Span] at *
    omega
  · simp only [Moment, Span] at *
    omega

/-- The budget of a round has room if the options have. -/
theorem hasRoom (h : r.OnClock x.config began longest most left)
    (room : x.config.HasRoom began last longest most) :
    r.run.budget.HasRoom x.config.acquisition.initialBackoff last longest := by
  have hlast : last < Span.momentLimit := Nat.lt_of_le_of_lt (Nat.le_add_right ..) room.shown
  have hend (total : Span) (ht : r.run.budget.total = some total) : r.run.budget.start + total ≤ last :=
    Nat.le_trans (h.start_le (h.total ▸ ht)) (room.ends total (h.total ▸ ht))
  refine ⟨⟨fun total ht => Nat.lt_of_le_of_lt (hend total ht) hlast, ?_⟩, hend, room.initial, room.doubled, room.shown⟩
  rw [h.total]
  exact room.slices

theorem withinRoom (h : r.OnClock x.config began longest most left)
    (room : x.config.HasRoom began last longest most) :
    WithinRoom r.run.budget last longest r.run.budget r.run.world := by
  refine ⟨rfl, fun htotal => ?_, fun htotal => h.asks (h.total ▸ htotal)⟩
  obtain ⟨total, ht⟩ := Option.ne_none_iff_exists'.mp htotal
  have hnow := (h.inBudget total (h.total ▸ ht)).now
  exact Nat.le_trans hnow ((h.hasRoom room).ends total ht)

/-- A round does not overflow the clock, and the next round has one attempt less. -/
theorem round (h : r.OnClock x.config began longest most (left + 1))
    (room : x.config.HasRoom began last longest most) {res : Except Stop Round} {run' : LoginRun σ}
    (hround : LoginM.round x r.plan r.run = (res, run')) :
    res ≠ .error .overflow ∧
      ∀ plan', res = .ok (.again plan') → OnClock x.config began longest most left ⟨plan', run'⟩ := by
  have hslice : r.plan.slice * (r.plan.failed + 1) < Span.limit := by
    rw [h.slice]
    have hfailed : r.plan.failed + 1 ≤ most := by
      have := h.failed
      omega
    exact Nat.lt_of_le_of_lt (Nat.mul_le_mul_left _ hfailed) room.grown
  rcases ha : LoginM.roundAttempt x r.plan r.run with ⟨s | ended, mid⟩
  · obtain ⟨hover, -⟩ := LoginM.roundAttempt_onClock (h.hasRoom room) hslice (h.withinRoom room) ha
    rw [LoginM.round, Op.bind_of_error ha] at hround
    cases hround
    exact ⟨fun he => hover (by cases he; rfl), fun _ => by rintro ⟨⟩⟩
  · obtain ⟨-, hmid⟩ := LoginM.roundAttempt_onClock (h.hasRoom room) hslice (h.withinRoom room) ha
    have hclock : mid.budget.InClock := by
      rw [hmid.budget]
      exact (h.hasRoom room).inClock
    have hsettle := hround
    rw [LoginM.round, Op.bind_of_ok ha] at hsettle
    have hover := LoginM.settle_ne_overflow x r.plan ended hclock
    rw [hsettle] at hover
    refine ⟨hover, ?_⟩
    rintro plan' rfl
    have hbefore : r.Before x ⟨plan', run'⟩ := hround
    have hc := LoginM.settle_eq_again hsettle
    have htotal : mid.budget.total = x.config.loginBudget := by rw [hmid.budget, h.total]
    refine ⟨?_, ?_, ?_, fun total ht => ?_, LoginM.tokenRetry_of_before hbefore h.token, ?_⟩
    · have hb : mid.budget.slice = .ok r.plan.slice := by
        rw [hclock.slice_eq, htotal, h.slice, Config.slice]
      rw [hc.slice_eq hb, h.slice]
    · have hfailed := hc.failed_le
      have := h.failed
      show plan'.failed + left ≤ most
      omega
    · rw [LoginM.total_of_before hbefore, h.total]
    · have hinBudget := (h.inBudget total ht).round h.token x r.plan
      rw [hround] at hinBudget
      exact hinBudget
    · intro hlimited
      rw [hc.providers_eq]
      exact hmid.asks (by rw [h.total]; exact hlimited)

end RoundStart.OnClock

/-- Rounds do not overflow the clock. -/
theorem LoginM.rounds_ne_overflow {x : LoginContext σ} {began last : Moment} {longest : Span} {most left : Nat}
    (room : x.config.HasRoom began last longest most) {plan : LoginPlan} {run : LoginRun σ}
    (h : RoundStart.OnClock x.config began longest most left ⟨plan, run⟩) :
    (rounds x left plan run).1 ≠ .error .overflow := by
  induction left generalizing plan run with
  | zero => rintro ⟨⟩
  | succ left ih =>
    rw [rounds, Op.bind_apply]
    rcases hround : round x plan run with ⟨s | e | plan', run'⟩ <;> obtain ⟨hover, hnext⟩ := h.round room hround
    · exact fun he => hover (by cases he; rfl)
    · rintro ⟨⟩
    · exact ih (hnext plan' rfl)

namespace LoginStart

variable {s : LoginStart} {server : Server σ} {attempts : Nat} {w : World σ} {last : Moment} {longest : Span}

/-- The first round of a login has all attempts left. -/
theorem onClock_begun (room : s.config.HasRoom w.now last longest attempts)
    (hasks : s.config.loginBudget ≠ none → w.providers.AsksWithin longest) :
    ∃ plan, LoginM.firstPlan s.config (s.begun w) = (.ok plan, s.begun w) ∧
      RoundStart.OnClock s.config w.now longest attempts attempts ⟨plan, s.begun w⟩ := by
  have hslice : (s.begun w).budget.slice = .ok s.config.slice := by
    rw [Budget.slice_eq]
    exact if_pos room.slices
  have start (plan : LoginPlan) (hplan : plan.slice = s.config.slice) (hfailed : plan.failed = 0) :
      RoundStart.OnClock s.config w.now longest attempts attempts ⟨plan, s.begun w⟩ := by
    refine ⟨hplan, ?_, rfl, fun _ ht => inBudget_begun ht, rfl, hasks⟩
    show plan.failed + attempts ≤ attempts
    rw [hfailed, Nat.zero_add]
  rw [LoginM.firstPlan_apply, hslice]
  rcases s.config.partner with _ | partner
  · exact ⟨_, rfl, start _ rfl rfl⟩
  · exact ⟨_, rfl, start _ rfl rfl⟩

/-- Giving up a session asks nothing of the clock. -/
theorem refuse_ne_overflow (e : Established) (conflict : Error) (run : LoginRun σ) :
    (LoginM.refuse e conflict run).1 ≠ .error .overflow := by
  have hdiscard : Stops (fun _ => True) (· ≠ .overflow) (WorldM.discard e.transport none : WorldM σ Unit) :=
    WorldM.discard_stops (fun _ _ _ => trivial) (WorldM.wait_stops _ none)
  have hrefuse : Stops (fun _ => True) (· ≠ .overflow) (LoginM.refuse e conflict : LoginM σ Established) :=
    Op.ends_modify_bind (fun _ _ => trivial) ((Ends.inWorld hdiscard).bind fun _ _ => Ends.fail nofun)
  exact fun hover => hrefuse.reason trivial (Prod.ext hover rfl) rfl

/-- A login whose options leave room on the clock does not overflow it. -/
theorem login_ne_overflow (room : s.config.HasRoom w.now last longest attempts)
    (hasks : s.config.loginBudget ≠ none → w.providers.AsksWithin longest) (server : Server σ) :
    (login server attempts s w).1 ≠ .error .overflow := by
  rcases hx : s.config.partnersConflict with _ | _
  · obtain ⟨plan, hplan, hclock⟩ := onClock_begun room hasks
    have hover := LoginM.rounds_ne_overflow (x := s.context server) room hclock
    rw [← allRounds_eq hplan] at hover
    rw [login_fst]
    rcases hrounds : LoginM.allRounds (s.context server) attempts (s.begun w) with ⟨t | e, run'⟩ <;>
      rw [hrounds] at hover
    · by_cases ht : ∃ e, t = .failed e
      · obtain ⟨e, rfl⟩ := ht
        rw [LoginM.establish_of_failed (x := s.context server) hx hrounds]
        exact nofun
      · rw [LoginM.establish_of_stopped (x := s.context server) (fun e he => ht ⟨e, he⟩) hx hrounds]
        exact hover
    · rw [LoginM.establish_of_ok (x := s.context server) hx hrounds]
      rcases e.partnerConflict? (s.context server).config with _ | conflict
      · exact nofun
      · exact refuse_ne_overflow e conflict run'
  · rw [login_of_conflict server attempts w hx]
    exact nofun

end LoginStart

end TdsSession
