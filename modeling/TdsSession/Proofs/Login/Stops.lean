import TdsSession.Proofs.Login.Opened
import TdsSession.Proofs.Login.Parts

/-!
# Why a login stops

A caller that waits for as long as it takes (`World.Patient`) never sees an
attempt with a time limit abandoned: whatever the attempt waits for, it is cut
off at its limit. A login with a budget gives each of its attempts a limit, so
that its rounds come to an end of their own: they succeed, they fail, or the
clock cannot show a time. Only the closing of a session that cannot be used has
no limit, and where its transport never closes the login never ends
(`login_abandoned_iff`).
-/

namespace TdsSession

open Op (Ends Stops)

variable {σ α : Type}

/-- The caller waits for as long as it takes. -/
def World.Patient (w : World σ) : Prop := w.patience = none

theorem World.Patient.earlier_eq {w : World σ} (h : w.Patient) (deadline : Option Moment) :
    earlier deadline w.patience = deadline := by
  rw [show w.patience = none from h]
  cases deadline <;> rfl

namespace Stop

/-- Why an attempt with a time limit may stop. -/
def ofAttempt : Stop → Prop
  | .failed _ | .cut | .overflow => True
  | .abandoned | .exhausted => False

/-- Why a round may stop. -/
def ofRound : Stop → Prop
  | .failed _ | .overflow => True
  | .cut | .abandoned | .exhausted => False

end Stop

/-! ## Waiting -/

/-- A wait that has a limit ends. -/
theorem waitFrom_ne_forever (now : Moment) (delay : Option Span) (l : Moment) :
    waitFrom now delay (some l) ≠ .forever := by
  unfold waitFrom
  split
  · exact fun h => nomatch h
  · rename_i hl
    cases hl
  · split
    · exact fun h => nomatch h
    · exact fun h => nomatch h
  · exact fun h => nomatch h
  · rename_i hl
    cases hl

theorem le_of_waitFrom_eq_cut {now t l : Moment} {delay : Option Span}
    (h : waitFrom now delay (some l) = .cut t) : l ≤ t := by
  obtain ⟨l', hl, rfl⟩ := eq_max_of_waitFrom_eq_cut h
  cases hl
  exact Nat.le_max_right now l

namespace WorldM

theorem cutReason_of_le {d now : Moment} (h : d ≤ now) : cutReason (some d) now = .cut := by
  unfold cutReason
  rw [if_pos (by simpa using h)]

theorem wait_apply (delay : Option Span) (deadline : Option Moment) (w : World σ) :
    wait delay deadline w = match waitFrom w.now delay (earlier deadline w.patience) with
      | .ready t => (.ok (), { w with now := t })
      | .cut t => (.error (cutReason deadline t), { w with now := t })
      | .forever => (.error .abandoned, w) := by
  unfold wait
  rw [Op.bind_of_ok (Op.get_apply w)]
  rcases waitFrom w.now delay (earlier deadline w.patience) with t | t | _ <;> rfl

/-- A wait with a time limit is cut off at the limit if at all. -/
theorem wait_ends (delay : Option Span) {deadline : Option Moment} (h : deadline ≠ none) :
    Stops World.Patient Stop.ofAttempt (wait delay deadline : WorldM σ Unit) := by
  obtain ⟨d, rfl⟩ := Option.ne_none_iff_exists'.mp h
  intro w hw
  rw [wait_apply, hw.earlier_eq]
  rcases hwait : waitFrom w.now delay (some d) with t | t | _
  · exact ⟨hw, trivial⟩
  · refine ⟨hw, ?_⟩
    show Stop.ofAttempt (cutReason (some d) t)
    rw [cutReason_of_le (le_of_waitFrom_eq_cut hwait)]
    trivial
  · exact absurd hwait (waitFrom_ne_forever _ _ _)

/-- What is ready at some time is waited for. -/
theorem wait_ends_of_delay {delay : Option Span} (h : delay ≠ none) :
    Stops World.Patient (fun _ => False) (wait delay none : WorldM σ Unit) := by
  obtain ⟨d, rfl⟩ := Option.ne_none_iff_exists'.mp h
  intro w hw
  rw [wait_apply, hw.earlier_eq]
  cases d with
  | zero => exact ⟨hw, trivial⟩
  | succ d => exact ⟨hw, trivial⟩

end WorldM

/-! ## Asking a provider -/

/-- Getting a token does not go on for ever, and is not cut off before `l`. -/
def Acquisition.EndsFrom (l : Moment) (a : Acquisition) : Prop :=
  match a.ended with
  | .cut => l ≤ a.now
  | .forever => False
  | .finished _ | .overflow => True

section

variable (p : AcquirePolicy) (r : TokenRequest) (until? : Option Moment) {timer : Timer} {l : Moment}

/-- A provider that is asked with a time limit is not given up before the limit. -/
theorem askProvider_endsFrom (hl : timer.limit = some l) (throttled : Nat) (backoff : Span) (now : Moment)
    (left : List ProviderAnswer) :
    (askProvider p r until? timer throttled backoff now left).EndsFrom l := by
  have forever {now : Moment} {delay : Option Span} : timer.wait now delay ≠ .forever := by
    rw [Timer.wait, hl]
    exact waitFrom_ne_forever _ _ _
  have cut {now t : Moment} {delay : Option Span} (h : timer.wait now delay = .cut t) : l ≤ t := by
    rw [Timer.wait, hl] at h
    exact le_of_waitFrom_eq_cut h
  fun_induction askProvider p r until? timer throttled backoff now left with
  | case1 => trivial
  | case2 _ _ _ _ _ _ h => exact cut h
  | case3 _ _ _ _ _ h => exact absurd h forever
  | case4 => trivial
  | case5 => trivial
  | case6 => trivial
  | case7 _ _ _ _ _ _ _ _ _ _ _ _ _ _ _ _ ih => exact ih
  | case8 _ _ _ _ _ _ _ _ _ _ _ _ _ _ _ h => exact cut h
  | case9 _ _ _ _ _ _ _ _ _ _ _ _ _ _ h => exact absurd h forever

theorem acquire_endsFrom (hl : timer.limit = some l) (now : Moment) (provider : Provider) :
    (provider.acquire p r until? timer now).1.EndsFrom l := by
  cases provider with
  | fixed token => trivial
  | answers left =>
    show (acquireToken p r until? timer now left).EndsFrom l
    unfold acquireToken
    split
    · trivial
    · exact askProvider_endsFrom p r until? hl ..

end

/-! ## Attempts -/

/-- A login whose caller waits for as long as it takes. -/
def LoginRun.Patient (run : LoginRun σ) : Prop := run.world.Patient

namespace LoginM

variable {p : AttemptPlan}

theorem inWorld_ends {P : α → Prop} {E : Stop → Prop} {m : WorldM σ α} (h : Ends World.Patient P E m) :
    Ends LoginRun.Patient P E (inWorld m) := Ends.inWorld h

theorem acquire_ends (hp : p.deadline ≠ none) (method : AuthMethod) (r : TokenRequest)
    (until? : Option Moment) (key : CacheKey) (claim : CacheClaim) :
    Stops LoginRun.Patient Stop.ofAttempt
      (acquire p method r until? key claim : LoginM σ BearerToken) := by
  obtain ⟨d, hd⟩ := Option.ne_none_iff_exists'.mp hp
  refine Ends.get.bind fun run hrun => ?_
  refine (Ends.ofExcept _ fun _ => trivial).bind fun provider _ => ?_
  have hlimit : earlier p.deadline run.world.patience = some d := by
    rw [World.Patient.earlier_eq hrun, hd]
  have hend : (provider.acquire p.config.acquisition r until? ⟨earlier p.deadline run.world.patience, none⟩
      run.world.now).1.EndsFrom d := acquire_endsFrom _ r until? hlimit run.world.now provider
  generalize provider.acquire p.config.acquisition r until? ⟨earlier p.deadline run.world.patience, none⟩
    run.world.now = course at hend ⊢
  obtain ⟨course, provider'⟩ := course
  unfold Acquisition.EndsFrom at hend
  dsimp only at hend ⊢
  rcases hended : course.ended with outcome | _ | _ | _ <;> rw [hended] at hend <;> dsimp only
  · refine Op.ends_set_bind hrun ?_
    exact (Ends.ofExcept _ fun _ => trivial).stops
  · refine Op.ends_set_bind hrun (Ends.throw ?_)
    show Stop.ofAttempt (WorldM.cutReason p.deadline course.now)
    rw [hd, WorldM.cutReason_of_le hend]
    trivial
  · exact hend.elim
  · exact Ends.throw trivial

theorem fetchToken_ends (hp : p.deadline ≠ none) (method : AuthMethod) (info : FedAuthInfo) :
    Stops LoginRun.Patient Stop.ofAttempt
      (fetchToken p method info : LoginM σ BearerToken) := by
  refine (Ends.askBudget _ trivial).bind fun until? _ => ?_
  refine Ends.get.bind fun run hrun => ?_
  dsimp only
  refine Op.ends_set_bind hrun ?_
  rcases (run.group.cache.lookUp ⟨info.stsUrl, info.spn⟩ run.world.wallTime).2 with token | claim
  · exact Ends.pure trivial
  · exact acquire_ends hp method _ until? _ _

theorem bears_patient (hp : p.deadline ≠ none) : p.Bears (fun _ (w : World σ) => w.Patient) Stop.ofAttempt where
  failed _ := trivial
  noted _ _ _ _ hw := hw
  connecting _ _ _ _ hw := hw
  waits _ delay := WorldM.wait_ends delay hp
  fetches := fetchToken_ends hp

/-- An attempt with a time limit fails or is cut off at the limit, if it does not come to its end. -/
theorem attempt_ends (server : Server σ) (hp : p.deadline ≠ none) :
    Stops LoginRun.Patient Stop.ofAttempt (attempt server p) := (bears_patient hp).attempt server

/-- The end of the time for an attempt is not the end of the login. -/
theorem timedAttempt_ends (server : Server σ) (hp : p.deadline ≠ none) :
    Stops LoginRun.Patient Stop.ofRound (timedAttempt server p) := by
  refine Ends.tryCatch ((attempt_ends server hp).map fun _ _ => trivial) fun s hs => ?_
  cases s with
  | failed e => exact Ends.pure trivial
  | cut => exact Ends.pure trivial
  | abandoned => exact hs.elim
  | overflow => exact Ends.throw trivial
  | exhausted => exact hs.elim

end LoginM

/-! ## Rounds -/

/-- A login whose caller waits for as long as it takes, and which has a time budget. -/
def LoginRun.Limited (run : LoginRun σ) : Prop := run.Patient ∧ run.budget.total ≠ none

namespace LoginM

variable {x : LoginContext σ}

/-- What happens in the world does not take the budget away. -/
theorem inWorld_stops {E : Stop → Prop} {m : WorldM σ α} (h : Stops World.Patient E m) :
    Stops LoginRun.Limited E (inWorld m) := by
  intro run hrun
  obtain ⟨hpatient, hend⟩ := inWorld_ends h run hrun.1
  exact ⟨⟨hpatient, hrun.2⟩, hend⟩

theorem enter_ends {E : Stop → Prop} (phase : LoginPhase) :
    Stops LoginRun.Limited E (enter phase : LoginM σ Unit) := Ends.modify fun _ hrun => hrun

theorem roundTarget_ends (plan : LoginPlan) :
    Stops LoginRun.Limited Stop.ofRound (roundTarget x plan) := by
  unfold roundTarget
  split
  · exact Ends.pure trivial
  · refine Ends.get.bind fun run _ => ?_
    refine (Ends.ofExcept _ fun _ => trivial).bind fun source _ => ?_
    refine Ends.get.bind fun run hrun => ?_
    refine (Ends.ofExcept _ fun _ => trivial).bind fun resolved _ => ?_
    exact Op.ends_set_bind hrun (Ends.pure trivial)

/-- The attempts of a login with a budget have time limits. -/
theorem roundTimeout_ends (plan : LoginPlan) :
    Ends LoginRun.Limited (fun timeout => timeout ≠ none) Stop.ofRound (roundTimeout x plan) := by
  have hend : Ends (fun _ => True) (fun _ => True) Stop.ofRound (roundTimeout x plan) := by
    cases plan with
    | single p =>
      unfold roundTimeout
      dsimp only
      split
      · exact (Ends.askBudget _ trivial).map fun _ _ => trivial
      · exact Ends.askBudget _ trivial
    | pair p => exact (Ends.askBudget _ trivial).map fun _ _ => trivial
  intro run hrun
  rw [roundTimeout_snd]
  refine ⟨hrun, ?_⟩
  rcases h : (roundTimeout x plan run).1 with s | timeout
  · exact hend.reason trivial (Prod.ext h rfl)
  · obtain ⟨total, ht⟩ := Option.ne_none_iff_exists'.mp hrun.2
    obtain ⟨l, rfl, -⟩ := roundTimeout_le ht h
    exact Option.some_ne_none l

theorem followRedirect_ends (c : Config) (source : Target) (target : Routing) :
    Stops LoginRun.Limited Stop.ofRound (followRedirect c source target : LoginM σ RoundEnd) := by
  refine Ends.get.bind fun run hrun => ?_
  split
  · exact Ends.pure trivial
  refine (Ends.askBudget _ trivial).bind fun expired _ => ?_
  split
  · exact Ends.pure trivial
  · exact Op.ends_set_bind hrun (Ends.pure trivial)

theorem tryTarget_ends (target : Target) {timeout : Option Span} (h : timeout ≠ none) :
    Stops LoginRun.Limited Stop.ofRound (tryTarget x target timeout) := by
  obtain ⟨l, rfl⟩ := Option.ne_none_iff_exists'.mp h
  refine Ends.get.bind fun run _ => ?_
  have htimed : Stops LoginRun.Limited Stop.ofRound
      (timedAttempt x.server (x.attempt target (some l) run.world.now)) := by
    intro run' hrun'
    obtain ⟨hpatient, hend⟩ := timedAttempt_ends x.server (p := x.attempt target (some l) run.world.now)
      (Option.some_ne_none _) run' hrun'.1
    have hframe : RoundFrame x.config run' (timedAttempt x.server
      (x.attempt target (some l) run.world.now) run').2 := RoundFrame.timedAttempt rfl
    exact ⟨⟨hpatient, by rw [hframe.budget]; exact hrun'.2⟩, hend⟩
  have noted (ended : RoundEnd) : Stops LoginRun.Limited Stop.ofRound (do
      modify (LoginRun.finished · target ended)
      return ended : LoginM σ RoundEnd) :=
    Op.ends_modify_bind (fun _ hrun => hrun) (Ends.pure trivial)
  refine htimed.bind fun ended _ => ?_
  rcases ended with e | e | next
  · exact noted (.failed e)
  · exact noted (.opened e)
  · exact (followRedirect_ends x.config target next).bind fun ended _ => noted ended

theorem roundAttempt_ends (plan : LoginPlan) :
    Stops LoginRun.Limited Stop.ofRound (roundAttempt x plan) := by
  refine (enter_ends _).bind fun _ _ => ?_
  refine (roundTarget_ends plan).bind fun target _ => ?_
  exact (roundTimeout_ends plan).bind fun timeout h => tryTarget_ends target h

/-- Nothing cuts a sleep short. -/
theorem sleepOrExpire_ends (e : Error) (span : Span) :
    Stops LoginRun.Limited Stop.ofRound (sleepOrExpire e span : LoginM σ Unit) := by
  refine (Ends.askBudget _ trivial).bind fun fits _ => ?_
  split
  · refine inWorld_stops ((WorldM.note_stops fun _ hw => hw).bind fun _ _ => ?_)
    exact (WorldM.wait_ends_of_delay (Option.some_ne_none span)).mono fun _ => False.elim
  · exact Ends.fail trivial

theorem retryWithToken_ends (e : Error) :
    Stops LoginRun.Limited Stop.ofRound (retryWithToken e : LoginM σ Bool) := by
  refine Ends.get.bind fun run hrun => ?_
  split
  · exact Op.ends_set_bind hrun (Ends.pure trivial)
  · exact Ends.pure trivial

theorem afterSingleFailure_ends (x : LoginContext σ) (p : SinglePlan) (e : Error) :
    Stops LoginRun.Limited Stop.ofRound (afterSingleFailure x p e) := by
  have planned (partner : DataSource) : Stops LoginRun.Limited Stop.ofRound
      (planPair x.config partner true : LoginM σ LoginPlan) :=
    Ends.get.bind fun _ _ => (Ends.ofClock _ trivial).bind fun _ _ => Ends.pure trivial
  refine Ends.get.bind fun run _ => ?_
  dsimp only
  split
  · split
    · exact Ends.fail trivial
    refine (Ends.ofExcept _ fun _ => trivial).bind fun partner _ => ?_
    exact (planned partner).bind fun _ _ => Ends.pure trivial
  · exact (sleepOrExpire_ends e _).bind fun _ _ => Ends.pure trivial

theorem afterPairFailure_ends (p : PairPlan) (e : Error) :
    Stops LoginRun.Limited Stop.ofRound (afterPairFailure p e : LoginM σ Round) := by
  refine (Ends.askBudget _ trivial).bind fun expired _ => ?_
  dsimp only
  split
  · exact Ends.fail trivial
  split
  · exact (sleepOrExpire_ends e _).bind fun _ _ => Ends.pure trivial
  · exact Ends.pure trivial

theorem settle_ends (plan : LoginPlan) (ended : RoundEnd) :
    Stops LoginRun.Limited Stop.ofRound (settle x plan ended) := by
  cases ended with
  | opened e =>
    cases plan with
    | single p => exact Ends.pure trivial
    | pair p =>
      unfold settle acceptSession
      dsimp only
      split
      · exact Ends.fail trivial
      · exact Ends.pure trivial
  | routed target => exact Ends.pure trivial
  | failed e =>
    refine (retryWithToken_ends e).bind fun renewed _ => ?_
    dsimp only
    split
    · exact Ends.pure trivial
    split
    · exact Ends.fail trivial
    cases plan with
    | single p => exact afterSingleFailure_ends x p e
    | pair p => exact afterPairFailure_ends p e

theorem round_ends (plan : LoginPlan) : Stops LoginRun.Limited Stop.ofRound (round x plan) :=
  (roundAttempt_ends plan).bind fun ended _ => settle_ends plan ended

/-- Rounds fail, or the clock cannot show a time, or there have been too many of them. -/
theorem rounds_ends (attempts : Nat) (plan : LoginPlan) :
    Stops LoginRun.Limited (fun s => s.ofRound ∨ s = .exhausted) (rounds x attempts plan) := by
  induction attempts generalizing plan with
  | zero => exact Ends.throw (.inr rfl)
  | succ attempts ih =>
    refine ((round_ends plan).mono fun _ => .inl).bind fun r _ => ?_
    cases r with
    | opened e => exact Ends.pure trivial
    | again plan' => exact ih plan'

/-! ## The whole login -/

theorem firstPlan_ends (c : Config) :
    Stops LoginRun.Limited Stop.ofRound (firstPlan c : LoginM σ LoginPlan) := by
  intro run hrun
  rcases firstPlan_cases c run with ⟨plan, h⟩ | h
  · rw [h]
    exact ⟨hrun, trivial⟩
  · rw [h]
    exact ⟨hrun, trivial⟩

/-- All rounds of a login end so. -/
theorem allRounds_ends (x : LoginContext σ) (attempts : Nat) :
    Stops LoginRun.Limited (fun s => s.ofRound ∨ s = .exhausted) (allRounds x attempts) :=
  ((firstPlan_ends x.config).mono fun _ => .inl).bind fun plan _ => rounds_ends attempts plan

end LoginM

/-! ## Giving up a session -/

/-- Closing the transport takes for ever. -/
def Transport.NeverCloses (t : Transport) : Prop := (t.answered t.line.disconnect).delay = none

instance (t : Transport) : Decidable t.NeverCloses := inferInstanceAs (Decidable (_ = none))

theorem Transport.not_neverCloses {t : Transport} (h : t.line.disconnect.delay ≠ none) : ¬ t.NeverCloses := by
  unfold NeverCloses answered
  split
  · exact h
  · exact Option.some_ne_none 0

/-- Without a limit, a transport that never closes is waited for until the caller gives up. -/
theorem WorldM.discard_of_neverCloses {t : Transport} (h : t.NeverCloses) {w : World σ} (hw : w.Patient) :
    (discard t none w).1 = .error .abandoned := by
  have hopen : (t.isOpen || !t.line.disconnect.delivered) = true := by
    unfold Transport.NeverCloses Transport.answered at h
    split at h
    · assumption
    · cases h
  have hwait : wait (t.answered t.line.disconnect).delay none
      (w.record (.disconnected t.number (t.answered t.line.disconnect).delivered)) =
        (.error .abandoned, w.record (.disconnected t.number (t.answered t.line.disconnect).delivered)) := by
    rw [wait_apply, show (w.record _).patience = none from hw, show (t.answered t.line.disconnect).delay = none from h]
    rfl
  unfold discard disconnect
  rw [if_pos hopen, Op.tryCatch_apply]
  unfold call note
  rw [Op.bind_of_ok (Op.modify_apply ..), Op.bind_of_error hwait]
  rfl

namespace LoginM

variable {x : LoginContext σ}

/-- A session that cannot be used is given up, if its transport ever closes. -/
theorem refuse_ends {e : Established} (h : ¬ e.transport.NeverCloses) (conflict : Error) :
    Stops LoginRun.Limited Stop.ofRound (refuse e conflict : LoginM σ Established) := by
  have hwait : Stops World.Patient Stop.ofRound
      (WorldM.wait (e.transport.answered e.transport.line.disconnect).delay none : WorldM σ Unit) :=
    (WorldM.wait_ends_of_delay h).mono fun _ => False.elim
  refine (enter_ends _).bind fun _ _ => ?_
  exact (inWorld_stops (WorldM.discard_stops (fun _ _ hw => hw) hwait)).bind fun _ _ => Ends.fail trivial

theorem refuse_of_neverCloses {e : Established} (h : e.transport.NeverCloses) (conflict : Error) {run : LoginRun σ}
    (hrun : run.Patient) : (refuse e conflict run).1 = .error .abandoned := by
  have hdiscard : inWorld (WorldM.discard e.transport none) { run with phase := .failedFatal } =
      (.error .abandoned, _) :=
    Prod.ext (WorldM.discard_of_neverCloses h hrun) rfl
  unfold refuse
  rw [Op.bind_of_ok (enter_apply ..), Op.bind_of_error hdiscard]

/-- The rounds open a session whose server names a partner that the options do not allow, and the transport
of the session never closes. -/
def StuckClosing (x : LoginContext σ) (attempts : Nat) (run : LoginRun σ) : Prop :=
  x.config.partnersConflict = false ∧ ∃ e, (allRounds x attempts run).1 = .ok e ∧
    (e.partnerConflict? x.config).isSome ∧ e.transport.NeverCloses

instance (x : LoginContext σ) (attempts : Nat) (run : LoginRun σ) : Decidable (StuckClosing x attempts run) :=
  match h : (allRounds x attempts run).1 with
  | .ok e =>
    decidable_of_iff (x.config.partnersConflict = false ∧ (e.partnerConflict? x.config).isSome ∧
      e.transport.NeverCloses) (by simp [StuckClosing, h])
  | .error t => isFalse (by simp [StuckClosing, h])

/-- A login is not stuck where every transport closes at some time. -/
theorem not_stuckClosing {attempts : Nat} {run : LoginRun σ} (h : x.server.Closes fun c => c.delay ≠ none) :
    ¬ StuckClosing x attempts run := by
  rintro ⟨-, e, hrounds, -, hnever⟩
  exact Transport.not_neverCloses ((allRounds_gives h attempts).value trivial (Prod.ext hrounds rfl)) hnever

/-- After its rounds a login ends, unless it is stuck, and there are no further attempts. -/
theorem establish_ends {run : LoginRun σ} {attempts : Nat} {t : Stop} (hrun : run.Limited)
    (h : (establish x attempts run).1 = .error t) :
    t.ofRound ∨ (t = .exhausted ∧ x.config.partnersConflict = false ∧
        (allRounds x attempts run).1 = .error .exhausted) ∨
      (t = .abandoned ∧ StuckClosing x attempts run) := by
  rcases hx : x.config.partnersConflict with _ | _
  · have hend := allRounds_ends x attempts run hrun
    rcases hrounds : allRounds x attempts run with ⟨s | e, run'⟩ <;> rw [hrounds] at hend
    · by_cases hs : ∃ e, s = .failed e
      · obtain ⟨e, rfl⟩ := hs
        rw [establish_of_failed hx hrounds] at h
        cases h
        exact .inl trivial
      · rw [establish_of_stopped (fun e he => hs ⟨e, he⟩) hx hrounds] at h
        cases h
        exact hend.2.imp_right fun hexhausted => .inl ⟨hexhausted, rfl, by rw [hexhausted]⟩
    · rw [establish_of_ok hx hrounds] at h
      rcases hconflict : e.partnerConflict? x.config with _ | conflict <;> rw [hconflict] at h
      · cases h
      · by_cases hnever : e.transport.NeverCloses
        · rw [refuse_of_neverCloses hnever conflict hend.1.1] at h
          cases h
          exact .inr (.inr ⟨rfl, hx, e, by rw [hrounds], by rw [hconflict]; rfl, hnever⟩)
        · exact .inl ((refuse_ends hnever conflict).reason hend.1 (Prod.ext h rfl))
  · left
    unfold establish at h
    simp only [hx, if_true] at h
    cases h
    trivial

/-- A caller that waits for a login is left waiting exactly if the login is stuck. -/
theorem establish_abandoned_iff {run : LoginRun σ} {attempts : Nat} (hrun : run.Limited) :
    (establish x attempts run).1 = .error .abandoned ↔ StuckClosing x attempts run := by
  constructor
  · intro h
    rcases establish_ends hrun h with hround | ⟨⟨⟩, -⟩ | ⟨-, hstuck⟩
    · exact hround.elim
    · exact hstuck
  · rintro ⟨hx, e, hrounds, hconflict, hnever⟩
    obtain ⟨conflict, hconflict⟩ := Option.isSome_iff_exists.mp hconflict
    rw [establish_of_ok hx (Prod.ext hrounds rfl), hconflict]
    exact refuse_of_neverCloses hnever conflict (allRounds_ends x attempts run hrun).1.1

end LoginM

/-- A login with a budget that is waited for does not go on without end, unless it is stuck: it succeeds or
fails, or the clock cannot show a time, or there have been too many attempts. -/
theorem LoginStart.login_ends {s : LoginStart} {server : Server σ} {attempts : Nat} {w : World σ}
    (ht : s.config.loginBudget ≠ none) (hw : w.Patient) {t : Stop} (h : (login server attempts s w).1 = .error t) :
    t.ofRound ∨ (t = .exhausted ∧ s.config.partnersConflict = false ∧
        (LoginM.allRounds (s.context server) attempts (s.begun w)).1 = .error .exhausted) ∨
      (t = .abandoned ∧ LoginM.StuckClosing (s.context server) attempts (s.begun w)) := by
  have hlimited : (s.begun w).Limited := ⟨hw, ht⟩
  rw [login_fst] at h
  exact LoginM.establish_ends hlimited h

theorem LoginStart.login_abandoned_iff {s : LoginStart} {server : Server σ} {attempts : Nat} {w : World σ}
    (ht : s.config.loginBudget ≠ none) (hw : w.Patient) :
    (login server attempts s w).1 = .error .abandoned ↔
      LoginM.StuckClosing (s.context server) attempts (s.begun w) := by
  have hlimited : (s.begun w).Limited := ⟨hw, ht⟩
  rw [login_fst]
  exact LoginM.establish_abandoned_iff hlimited

end TdsSession
