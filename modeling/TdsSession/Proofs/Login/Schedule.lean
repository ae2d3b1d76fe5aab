import TdsSession.Proofs.Login.Continuation
import TdsSession.Proofs.Login.Direct
import TdsSession.Proofs.Login.Timeout

/-!
# The schedule of a login with one host

With a server that speaks for itself (`Server.Direct`) and no partner in the
options, a login tries its one host again and again. When it does so follows
from how long its attempts take (`RoundStart.duration`): after an attempt that
has failed in a way that may pass comes a sleep, unless the time for the login
would be over by its end. What holds before attempt `k` (`OnSchedule`) is handed
on by each round; `lone_login_schedule` puts all of it together.
-/

namespace TdsSession

variable {σ : Type}

/-- How long the attempt of a round takes. -/
def RoundStart.duration (x : LoginContext σ) (r : RoundStart σ) : Span :=
  (LoginM.roundAttempt x r.plan r.run).2.world.now - r.run.world.now

/-- How one host is tried after some failures. -/
def Config.afterFailures (c : Config) (n : Nat) : SinglePlan where
  slice := c.slice
  backoff := c.retry.backoff.after n
  failed := n

theorem Config.afterFailures_succ (c : Config) (n : Nat) : c.afterFailures (n + 1) =
    { c.afterFailures n with failed := n + 1, backoff := (c.afterFailures n).backoff.next } := by
  unfold afterFailures
  rw [Backoff.after_succ]

/-- Options without a partner do not conflict. -/
theorem Config.not_partnersConflict {c : Config} (h : c.partner = none) : c.partnersConflict = false := by
  unfold partnersConflict
  rw [h]
  exact Bool.and_false _

/-! ## One round -/

namespace LoginM

variable {x : LoginContext σ} {p : SinglePlan} {run mid : LoginRun σ} {e : Error} {span : Span}

/-- The clock can show the time for an attempt on one host if it can show the end of the budget, and the slices if they
count. -/
theorem roundTimeout_single_ne_overflow (hends : run.budget.EndsInClock)
    (hslices : x.config.multiSubnet = true → p.slice * (p.failed + 1) < Span.limit) :
    (roundTimeout x (.single p) run).1 ≠ .error .overflow := by
  unfold roundTimeout
  dsimp only
  split <;> rename_i hmany
  · rw [Op.map_apply, askBudget_apply]
    unfold Budget.manyAddressTimeout Span.times Budget.clamp
    rw [if_pos (hslices hmany), hends.remaining_eq]
    rcases run.budget.total with _ | total <;> exact nofun
  · rw [askBudget_apply, hends.remaining_eq]
    exact nofun

/-- An attempt on one host connects for the time of the round. -/
theorem roundAttempt_single {res : Except Stop RoundEnd} (h : roundAttempt x (.single p) run = (res, mid))
    {target : Target} {timeout : Option Span} (hc : Connects run mid target timeout) :
    timeout = if x.config.multiSubnet then some (run.budget.cut run.world.now (p.slice * (p.failed + 1)))
      else run.budget.total.map (run.budget.start + · - run.world.now) :=
  (roundTimeout_single_eq ((roundAttempt_timed h).2 target timeout hc).2).1

variable (hends : mid.budget.EndsInClock)

include hends

/-- If nothing would be left after a sleep, the login ends without it. -/
theorem sleepOrExpire_of_leavesAtMost (h : mid.budget.LeavesAtMost mid.world.now span) :
    sleepOrExpire e span mid = (.error (.failed (.timeoutExpiredAfter e)), mid) := by
  unfold sleepOrExpire
  rw [Op.bind_apply, askBudget_apply, (Budget.canSleep_eq_false_iff hends).mpr h]
  rfl

/-- A failure that may pass ends the login with one host if nothing would be left after the sleep. -/
theorem settle_single_of_leavesAtMost (halone : mid.Alone) (ht : e.isTransient = true)
    (h : mid.budget.LeavesAtMost mid.world.now p.backoff.current) :
    settle x (.single p) (.failed e) mid = (.error (.failed (.timeoutExpiredAfter e)), mid) := by
  rw [settle_of_transient (halone.not_renews e) ht]
  show afterSingleFailure x p e mid = _
  unfold afterSingleFailure
  rw [Op.bind_of_ok (Op.get_apply mid), halone.partner]
  exact Op.bind_of_error (sleepOrExpire_of_leavesAtMost hends h) _

theorem settle_single_of_not_leavesAtMost (halone : mid.Alone) (ht : e.isTransient = true)
    (h : ¬ mid.budget.LeavesAtMost mid.world.now p.backoff.current) (hpatient : mid.Patient) :
    settle x (.single p) (.failed e) mid =
      (.ok (.again (.single { p with failed := p.failed + 1, backoff := p.backoff.next })),
        mid.slept p.backoff.current) :=
  settle_of_continues hpatient hends
    (.slept p e (halone.not_renews e) ht halone.partner ((Budget.canSleep_eq_true_iff hends).mpr h))

end LoginM

/-! ## All rounds -/

/-- Where a login with one host that began in `w` stands before a round, after the rounds before it. -/
structure OnSchedule (x : LoginContext σ) (w : World σ) (earlier : List (RoundStart σ)) (r : RoundStart σ) : Prop where
  plan : r.plan = .single (x.config.afterFailures earlier.length)
  alone : r.run.Alone
  patient : r.run.Patient
  budget : r.run.budget = ⟨w.now, x.config.loginBudget⟩
  now : r.run.world.now =
    w.now + (earlier.map (·.duration x)).sum + (x.config.retry.backoff.take earlier.length).sum

namespace OnSchedule

variable {x : LoginContext σ} {w : World σ} {earlier : List (RoundStart σ)} {r r' : RoundStart σ} {mid : LoginRun σ}

/-- What the attempt of a round leaves as it is. -/
theorem attempt (h : OnSchedule x w earlier r) (hserver : x.server.Direct) {res : Except Stop RoundEnd}
    (ha : LoginM.roundAttempt x r.plan r.run = (res, mid)) :
    mid.Alone ∧ mid.Patient ∧ mid.budget = ⟨w.now, x.config.loginBudget⟩ ∧
      mid.world.now = r.run.world.now + r.duration x := by
  have hframe := RoundFrame.roundAttempt ha
  refine ⟨(LoginM.roundAttempt_direct hserver h.alone ha).1, hframe.patience.trans h.patient,
    hframe.budget.trans h.budget, ?_⟩
  unfold RoundStart.duration
  rw [ha]
  exact (Nat.add_sub_of_le hframe.now).symm

/-- Each round hands the schedule on. -/
theorem next (h : OnSchedule x w earlier r) (hserver : x.server.Direct) (hbefore : r.Before x r') :
    OnSchedule x w (earlier ++ [r]) r' := by
  obtain ⟨ended, mid, ha, hs⟩ := Op.bind_eq_ok.mp hbefore
  obtain ⟨halone, hpatient, hbudget, hnow⟩ := h.attempt hserver ha
  have hdirect := (LoginM.roundAttempt_direct hserver h.alone ha).2.1 ended rfl
  have hc := LoginM.settle_eq_again hs
  obtain ⟨plan', run'⟩ := r'
  rw [h.plan] at hc
  cases hc with
  | routed _ target => exact hdirect.elim
  | renewed _ e he => exact absurd he (halone.not_renews e)
  | switched _ e _ _ name hp => exact nomatch halone.partner.symm.trans hp
  | slept _ e he ht hp hs =>
    refine ⟨?_, ⟨halone.partner, halone.token⟩, hpatient, hbudget, ?_⟩
    · rw [List.length_append, List.length_singleton, Config.afterFailures_succ]
      rfl
    · show mid.world.now + _ = _
      rw [hnow, h.now, List.map_append, List.sum_append, List.length_append, List.length_singleton, Backoff.take_succ,
        List.sum_append, List.map_singleton, List.sum_singleton, List.sum_singleton]
      show w.now + _ + _ + _ + (x.config.retry.backoff.after earlier.length).current = _
      simp only [Moment, Span]
      omega

section

variable (h : OnSchedule x w earlier r)

include h

/-- An attempt connects for the time that its round has by the schedule. -/
theorem timeout_eq {res : Except Stop RoundEnd} (ha : LoginM.roundAttempt x r.plan r.run = (res, mid)) {target : Target}
    {timeout : Option Span} (hc : Connects r.run mid target timeout) :
    timeout = if x.config.multiSubnet then
      some ((⟨w.now, x.config.loginBudget⟩ : Budget).cut r.run.world.now (x.config.slice * (earlier.length + 1)))
    else x.config.loginBudget.map (w.now + · - r.run.world.now) := by
  rw [h.plan] at ha
  have htimeout := LoginM.roundAttempt_single ha hc
  rw [h.budget] at htimeout
  exact htimeout

/-- The session that an attempt opens is taken. -/
theorem round_of_opened {e : Established} (ha : LoginM.roundAttempt x r.plan r.run = (.ok (.opened e), mid)) :
    LoginM.round x r.plan r.run = (.ok (.opened e), mid) := by
  unfold LoginM.round
  rw [Op.bind_of_ok ha, h.plan]
  rfl

variable (hserver : x.server.Direct) {e : Error}
  (ha : LoginM.roundAttempt x r.plan r.run = (.ok (.failed e), mid))

include hserver ha

/-- A failure that will not pass is the end. -/
theorem round_of_final (ht : e.isTransient = false) : LoginM.round x r.plan r.run = (.error (.failed e), mid) := by
  obtain ⟨halone, -⟩ := h.attempt hserver ha
  unfold LoginM.round
  rw [Op.bind_of_ok ha, LoginM.settle_failed_apply, if_neg (halone.not_renews e), if_neg (by rw [ht]; exact nofun)]

/-- So is a failure after which nothing would be left by the end of the sleep. -/
theorem round_of_late (ht : e.isTransient = true) {total : Span} (htotal : x.config.loginBudget = some total)
    (hlate : w.now + total ≤ mid.world.now + (x.config.retry.backoff.after earlier.length).current) :
    LoginM.round x r.plan r.run = (.error (.failed (.timeoutExpiredAfter e)), mid) := by
  obtain ⟨halone, -, hbudget, -⟩ := h.attempt hserver ha
  have hends := LoginM.roundAttempt_endsInClock ha
  unfold LoginM.round
  rw [Op.bind_of_ok ha, h.plan]
  refine LoginM.settle_single_of_leavesAtMost hends halone ht ⟨total, by rw [hbudget]; exact htotal, ?_⟩
  rw [hbudget]
  exact Nat.sub_le_iff_le_add'.mpr hlate

/-- After any other failure comes the sleep, and another round. -/
theorem round_of_fits (ht : e.isTransient = true) (hfits : ∀ total, x.config.loginBudget = some total →
      mid.world.now + (x.config.retry.backoff.after earlier.length).current < w.now + total) :
    LoginM.round x r.plan r.run = (.ok (.again (.single (x.config.afterFailures (earlier.length + 1)))),
      mid.slept (x.config.retry.backoff.after earlier.length).current) := by
  obtain ⟨halone, hpatient, hbudget, -⟩ := h.attempt hserver ha
  have hends := LoginM.roundAttempt_endsInClock ha
  unfold LoginM.round
  rw [Op.bind_of_ok ha, h.plan, Config.afterFailures_succ]
  refine LoginM.settle_single_of_not_leavesAtMost hends halone ht (fun hleft => ?_) hpatient
  rw [hbudget] at hleft
  obtain ⟨total, htotal, hle⟩ := hleft
  exact Nat.not_le.mpr (hfits total htotal) (Nat.sub_le_iff_le_add'.mp hle)

end

end OnSchedule

namespace LoginStart

variable {s : LoginStart} {server : Server σ} {attempts : Nat} {w : World σ} {earlier later : List (RoundStart σ)}
  {r : RoundStart σ}

/-- Where each round of a login with one host stands. -/
theorem onSchedule_of_course (hserver : server.Direct) (hp : s.config.partner = none) (hw : w.Patient)
    (h : s.course server attempts w = earlier ++ r :: later) : OnSchedule (s.context server) w earlier r := by
  have hmem : r ∈ s.course server attempts w := h ▸ List.mem_append_right _ List.mem_cons_self
  obtain ⟨plan, -, hplan, hcourse⟩ := course_eq_of_mem hmem
  rw [hcourse] at h
  refine LoginM.course_split_induction (P := OnSchedule (s.context server) w) ?_
    (fun _ _ _ h hbefore => h.next hserver hbefore) h
  rw [LoginM.firstPlan_apply, hp, Budget.slice_eq] at hplan
  split at hplan
  · cases hplan
  · rename_i hslice
    split at hslice <;> cases hslice
    cases hplan
    exact ⟨rfl, ⟨rfl, rfl⟩, hw, rfl, rfl⟩

/-- A login whose slices the clock can show makes its first attempt at once. -/
theorem exists_first (server : Server σ) (w : World σ) (hp : s.config.partner = none)
    (hslices : s.config.loginBudget.getD Budget.sliceBase * Budget.slicePercent < Span.limit)
    (hattempts : 0 < attempts) : ∃ r later, s.course server attempts w = r :: later ∧ r.run = s.begun w := by
  have hslice : (s.begun w).budget.slice = .ok s.config.slice := by
    rw [Budget.slice_eq]
    exact if_pos hslices
  have hplan : LoginM.firstPlan s.config (s.begun w) = (.ok (.single (s.config.afterFailures 0)), s.begun w) := by
    rw [LoginM.firstPlan_apply, hslice, hp]
    rfl
  obtain ⟨attempts, rfl⟩ := Nat.exists_eq_succ_of_ne_zero (Nat.pos_iff_ne_zero.mp hattempts)
  obtain ⟨rest, hcourse, -⟩ :=
    LoginM.course_succ (s.context server) attempts (.single (s.config.afterFailures 0)) (s.begun w)
  exact ⟨_, rest, (course_eq (Config.not_partnersConflict hp) hplan).trans hcourse, rfl⟩

/-- A round that ends the login is its last. -/
theorem later_eq_nil (h : s.course server attempts w = earlier ++ r :: later)
    (hlast : ∀ plan', (LoginM.round (s.context server) r.plan r.run).1 ≠ .ok (.again plan')) : later = [] := by
  obtain ⟨plan, -, -, hcourse⟩ := course_eq_of_mem (h ▸ List.mem_append_right _ List.mem_cons_self)
  rcases LoginM.later_cases (hcourse ▸ h) with ⟨hnil, -⟩ | ⟨r', later', -, hbefore⟩
  · exact hnil
  · exact absurd (congrArg Prod.fst hbefore) (hlast r'.plan)

/-- A round that leads to another is followed by it, if there may be another. -/
theorem later_of_again {plan' : LoginPlan} {run' : LoginRun σ} (h : s.course server attempts w = earlier ++ r :: later)
    (hround : LoginM.round (s.context server) r.plan r.run = (.ok (.again plan'), run'))
    (hmore : attempts ≠ earlier.length + 1) : ∃ r' later', later = r' :: later' ∧ r'.run = run' := by
  obtain ⟨plan, -, -, hcourse⟩ := course_eq_of_mem (h ▸ List.mem_append_right _ List.mem_cons_self)
  rcases LoginM.later_cases (hcourse ▸ h) with ⟨-, hlast⟩ | ⟨r', later', hlater, hbefore⟩
  · exact absurd (hlast plan' run' hround) hmore
  · exact ⟨r', later', hlater, (congrArg Prod.snd (hround.symm.trans hbefore)).symm⟩

/-- A round that stops is the last of the login, which ends as it does. -/
theorem last_of_round_error {t : Stop} (h : s.course server attempts w = earlier ++ r :: later)
    (hround : (LoginM.round (s.context server) r.plan r.run).1 = .error t) :
    later = [] ∧ (login server attempts s w).1 = .error t :=
  ⟨later_eq_nil h fun _ hagain => (nomatch hround.symm.trans hagain),
    (login_of_round_error (h ▸ List.mem_append_right _ List.mem_cons_self) hround).1⟩

end LoginStart

/-- With one host, and a server that speaks for itself, a login starts its first attempt at once, and each later one
after all attempts before it and the sleeps between them. An attempt has what is left of the time for the login, or as
many slices as there have been attempts if that is less. If it succeeds, stops, or fails in a way that will not pass, so
does the login. If it fails in a way that may pass, the login ends for want of time, without a sleep, if by the end of
the sleep nothing would be left; otherwise comes another attempt. If the clock cannot show what the slices are made
from, there is no attempt at all; and no attempt overflows it while it can show the end of the time for the login, and
the slices if they count. -/
theorem lone_login_schedule {server : Server σ} (hserver : server.Direct) {s : LoginStart}
    (hp : s.config.partner = none) {w : World σ} (hw : w.Patient) (attempts : Nat) :
    let x := s.context server
    let c := s.config
    (Span.limit ≤ c.loginBudget.getD Budget.sliceBase * Budget.slicePercent →
      login server attempts s w = (.error .overflow, s.begun w)) ∧
    (c.loginBudget.getD Budget.sliceBase * Budget.slicePercent < Span.limit → 0 < attempts →
      ∃ r later, s.course server attempts w = r :: later ∧ r.run = s.begun w) ∧
    ∀ earlier r later res mid, s.course server attempts w = earlier ++ r :: later →
      LoginM.roundAttempt x r.plan r.run = (res, mid) →
      let k := earlier.length
      let sleep := (c.retry.backoff.after k).current
      r.run.world.now = w.now + (earlier.map (·.duration x)).sum + (c.retry.backoff.take k).sum ∧
      mid.world.now = r.run.world.now + r.duration x ∧
      (∀ target timeout, Connects r.run mid target timeout →
        timeout = if c.multiSubnet then some ((⟨w.now, c.loginBudget⟩ : Budget).cut r.run.world.now (c.slice * (k + 1)))
          else c.loginBudget.map (w.now + · - r.run.world.now)) ∧
      ((∀ total, c.loginBudget = some total → w.now + total < Span.momentLimit) →
        (c.multiSubnet = true → c.slice * (k + 1) < Span.limit) → res ≠ .error .overflow) ∧
      (∀ target, res ≠ .ok (.routed target)) ∧
      (∀ e, res = .ok (.opened e) → later = [] ∧ (login server attempts s w).1 = .ok e) ∧
      (∀ t, res = .error t → later = [] ∧ (login server attempts s w).1 = .error t) ∧
      ∀ e, res = .ok (.failed e) →
        (e.isTransient = false → later = [] ∧ (login server attempts s w).1 = .error (.failed e)) ∧
        (e.isTransient = true → (∃ total, c.loginBudget = some total ∧ w.now + total ≤ mid.world.now + sleep) →
          later = [] ∧ (login server attempts s w).1 = .error (.failed (.timeoutExpiredAfter e)) ∧
            (login server attempts s w).2.world = mid.world.record (.ended (.failed (.timeoutExpiredAfter e)))) ∧
        (e.isTransient = true → (∀ total, c.loginBudget = some total → mid.world.now + sleep < w.now + total) →
          k + 1 < attempts → ∃ r' later', later = r' :: later' ∧ r'.run = mid.slept sleep) := by
  refine ⟨LoginStart.login_of_slice_overflow (Config.not_partnersConflict hp),
    LoginStart.exists_first server w hp, fun earlier r later res mid hcourse ha => ?_⟩
  have hschedule := LoginStart.onSchedule_of_course hserver hp hw hcourse
  have hmem : r ∈ s.course server attempts w := hcourse ▸ List.mem_append_right _ List.mem_cons_self
  obtain ⟨-, hdirect, hover⟩ := LoginM.roundAttempt_direct hserver hschedule.alone ha
  obtain ⟨-, -, -, hduration⟩ := hschedule.attempt hserver ha
  refine ⟨hschedule.now, hduration, fun target timeout => hschedule.timeout_eq ha, fun hclock hslices hoverflow => ?_,
    fun target hrouted => (hdirect _ hrouted).elim, fun e hopened => ?_, fun t hstopped => ?_, fun e hfailed => ?_⟩
  · refine LoginM.roundTimeout_single_ne_overflow ?_ hslices (hschedule.plan ▸ hover hoverflow)
    rw [hschedule.budget]
    exact hclock
  · subst hopened
    have hround := hschedule.round_of_opened ha
    have hpartner : e.partner = none := hdirect _ rfl
    refine ⟨LoginStart.later_eq_nil hcourse fun plan' hagain => ?_, ?_⟩
    · rw [hround] at hagain
      cases hagain
    · rw [LoginStart.login_fst, LoginStart.establish_of_opened hmem hround, Established.partnerConflict?, hpartner]
      rfl
  · subst hstopped
    exact LoginStart.last_of_round_error hcourse (congrArg Prod.fst (Op.bind_of_error ha _))
  subst hfailed
  refine ⟨fun ht => ?_, fun ht ⟨total, htotal, hlate⟩ => ?_, fun ht hfits hmore => ?_⟩
  · exact LoginStart.last_of_round_error hcourse (congrArg Prod.fst (hschedule.round_of_final hserver ha ht))
  · have hround := hschedule.round_of_late hserver ha ht htotal hlate
    obtain ⟨hnil, hlogin⟩ := LoginStart.last_of_round_error hcourse (congrArg Prod.fst hround)
    exact ⟨hnil, hlogin, by rw [LoginStart.login_of_failed hmem hround]⟩
  · exact LoginStart.later_of_again hcourse (hschedule.round_of_fits hserver ha ht hfits) (Nat.ne_of_gt hmore)

/-- A server that takes a hundredth of a second to turn everybody away. -/
def slammedDoor : Server Unit where
  connect _ _ _ _ := (⟨some (Span.ofMillis 10), .error (.io "connection refused")⟩, ())

theorem slammedDoor_direct : slammedDoor.Direct := fun _ _ _ _ _ h => nomatch h

/-- A login that has a second, and sleeps for most of it after its first attempt. -/
def loneLogin : LoginStart where
  config := { hastyLogin.config with retry := { initialBackoff := Span.ofMillis 600 } }

/-- Its two rounds, and the states in which their attempts end. -/
def loneContext : LoginContext Unit := loneLogin.context slammedDoor

def loneRound : RoundStart Unit := ⟨.single (loneLogin.config.afterFailures 0), loneLogin.begun { server := () }⟩

def loneRoundEnd : LoginRun Unit := (LoginM.roundAttempt loneContext loneRound.plan loneRound.run).2

def lastRound : RoundStart Unit :=
  ⟨.single (loneLogin.config.afterFailures 1), loneRoundEnd.slept (Span.ofMillis 600)⟩

def lastRoundEnd : LoginRun Unit := (LoginM.roundAttempt loneContext lastRound.plan lastRound.run).2

/-- Its second attempt begins after 610 milliseconds, with what is left of the second; the next would be too late. -/
theorem lastRound_on_schedule :
    lastRound.run.world.now = Span.ofMillis 610 ∧
      (∀ target timeout, Connects lastRound.run lastRoundEnd target timeout → timeout = some (Span.ofMillis 390)) ∧
      (login slammedDoor 5 loneLogin { server := () }).1 =
        .error (.failed (.timeoutExpiredAfter (.io "connection refused"))) ∧
      (login slammedDoor 5 loneLogin { server := () }).2.world.now = Span.ofMillis 620 := by
  have hplan : LoginM.firstPlan loneLogin.config (loneLogin.begun { server := () }) =
      (.ok loneRound.plan, loneRound.run) := by rfl
  have hround : LoginM.round loneContext loneRound.plan loneRound.run =
      (.ok (.again lastRound.plan), lastRound.run) := by rfl
  have hrefused : (LoginM.roundAttempt loneContext lastRound.plan lastRound.run).1 =
      .ok (.failed (.io "connection refused")) := by rfl
  have ha : LoginM.roundAttempt loneContext lastRound.plan lastRound.run =
      (.ok (.failed (.io "connection refused")), lastRoundEnd) := Prod.ext hrefused rfl
  obtain ⟨later, hsecond, -⟩ := LoginM.course_succ loneContext 3 lastRound.plan lastRound.run
  have hrounds : LoginM.course loneContext 5 loneRound.plan loneRound.run = [loneRound] ++ lastRound :: later := by
    rw [LoginM.course, hround]
    exact congrArg _ hsecond
  have hcourse : loneLogin.course slammedDoor 5 { server := () } = [loneRound] ++ lastRound :: later :=
    (LoginStart.course_eq rfl hplan).trans hrounds
  obtain ⟨-, -, hschedule⟩ := lone_login_schedule slammedDoor_direct (s := loneLogin) rfl (w := { server := () }) rfl 5
  obtain ⟨hnow, -, htimeout, -, -, -, -, hfailed⟩ := hschedule _ _ _ _ _ hcourse ha
  obtain ⟨-, hlate, -⟩ := hfailed _ rfl
  obtain ⟨-, hlogin, hworld⟩ := hlate rfl ⟨Span.ofSeconds 1, rfl, by decide +kernel⟩
  refine ⟨hnow.trans (by decide +kernel), fun target timeout hc => ?_, hlogin, ?_⟩
  · exact (htimeout target timeout hc).trans (by decide +kernel)
  · rw [hworld]
    decide +kernel

/-- With the longest timeout that a connection string can name there is no attempt at all. -/
theorem endlessText_attempts_nothing :
    Config.ofConnectionString endlessText = .ok endlessLogin.config ∧ endlessLogin.config.partner = none ∧
      slammedDoor.Direct ∧ endlessLogin.course slammedDoor 1 { server := () } = [] ∧
      (login slammedDoor 1 endlessLogin { server := () }).1 = .error .overflow ∧
      (login slammedDoor 1 endlessLogin { server := () }).2.world.connections = [] := by
  have hlogin : login slammedDoor 1 endlessLogin { server := () } =
      (.error .overflow, endlessLogin.begun { server := () }) :=
    LoginStart.login_of_slice_overflow rfl (by decide)
  rw [hlogin]
  exact ⟨by decide +kernel, rfl, slammedDoor_direct, by decide +kernel, rfl, rfl⟩

end TdsSession
