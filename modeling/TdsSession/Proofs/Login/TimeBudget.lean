import TdsSession.Proofs.Login.Course
import TdsSession.Script.Server

/-!
# The time budget of a login

All rounds of a login share one budget, whose length never changes
(`total_of_mem_course`). Every way to another round looks at what is left of
it, but for one: the change from one host to two, after a server has named a
partner. A round starts on a spent budget exactly if it is the first after such
a change, and the attempt before has used the budget up.
-/

namespace TdsSession

variable {σ : Type}

/-- The attempt of `r₀`, by a plan for one host, has used up the budget, and `r` follows it by a plan for
two. -/
def RoundStart.ChangedLate (x : LoginContext σ) (r₀ r : RoundStart σ) : Prop :=
  ∃ p₀ p e mid, r₀.plan = .single p₀ ∧ r.plan = .pair p ∧
    LoginM.roundAttempt x r₀.plan r₀.run = (.ok (.failed e), mid) ∧ mid.budget.Spent mid.world.now

namespace LoginM

variable {x : LoginContext σ} {plan plan' : LoginPlan} {run run' mid : LoginRun σ} {r r' : RoundStart σ}

/-- Another round does not change how long the budget is. -/
theorem total_of_before (h : r.Before x r') : r'.run.budget.total = r.run.budget.total := by
  obtain ⟨ended, mid, ha, hc⟩ := before_cases h
  have hmid := (RoundFrame.roundAttempt ha).budget
  rw [← hmid]
  generalize r.plan = plan, r'.plan = plan', r'.run = run' at hc
  cases hc <;> rfl

/-- Only the change to two hosts leads to a round on a spent budget. -/
theorem changedLate_of_spent (h : r.Before x r') (ht : r.run.budget.total ≠ some 0)
    (hs : r'.run.budget.Spent r'.run.world.now) : r.ChangedLate x r' := by
  obtain ⟨ended, mid, ha, hc⟩ := before_cases h
  have hmid := (RoundFrame.roundAttempt ha).budget
  rw [← hmid] at ht
  obtain ⟨plan, run⟩ := r
  obtain ⟨plan', run'⟩ := r'
  cases hc with
  | routed _ target => exact absurd hs ((followed_of_routed ha).1)
  | renewed _ e he => exact absurd hs (Budget.not_spent_restart ht)
  | slept p e he htr hp hfits => exact absurd hs (Budget.not_spent_of_canSleep hfits)
  | switched p e he htr name hp hm partner hparse slice hb => exact ⟨p, _, e, _, rfl, rfl, ha, hs⟩
  | alternated p e he htr hb hodd => exact absurd hs hb
  | sleptAlternated p e he htr hb heven hfits => exact absurd hs (Budget.not_spent_of_canSleep hfits)

/-- After the change to two hosts, what is left of the budget is what the attempt before has left. -/
theorem spent_of_changedLate (h : r.Before x r') (hc : r.ChangedLate x r') :
    r'.run.budget.Spent r'.run.world.now := by
  obtain ⟨p₀, p, e, mid, hp₀, hp, ha, hspent⟩ := hc
  obtain ⟨ended, mid', ha', hc⟩ := before_cases h
  rw [ha] at ha'
  cases ha'
  obtain ⟨plan, run⟩ := r
  obtain ⟨plan', run'⟩ := r'
  cases hp₀
  cases hp
  cases hc
  exact hspent

end LoginM

namespace LoginStart

variable {s : LoginStart} {server : Server σ} {attempts : Nat} {w : World σ} {r : RoundStart σ}

/-- The budget is as long as the options say, all the time. -/
theorem total_of_mem_course (h : r ∈ s.course server attempts w) :
    r.run.budget.total = s.config.loginBudget := by
  refine course_induction (P := fun r => r.run.budget.total = s.config.loginBudget) (fun _ _ => rfl) ?_ h
  intro r r' hr hbefore
  rw [LoginM.total_of_before hbefore, hr]

theorem loginBudget_ne_zero (c : Config) : c.loginBudget ≠ some 0 := by
  unfold Config.loginBudget
  split
  · exact fun h => nomatch h
  · rename_i h
    exact fun h0 => h (Option.some.inj h0)

/-- A round of a login starts on a spent budget exactly if it changes to two hosts after an attempt that
has used the budget up. -/
theorem spent_iff_changedLate (h : r ∈ s.course server attempts w) :
    r.run.budget.Spent r.run.world.now ↔
      ∃ r₀, [r₀, r] <:+: s.course server attempts w ∧ r₀.ChangedLate (s.context server) r := by
  constructor
  · intro hspent
    rcases first_or_follows h with ⟨plan, -, rfl⟩ | ⟨r₀, hr₀⟩
    · have hnew : (s.begun w).budget = (s.begun w).budget.restart w.now := rfl
      refine absurd hspent ?_
      show ¬ (s.begun w).budget.Spent w.now
      rw [hnew]
      exact Budget.not_spent_restart (loginBudget_ne_zero s.config)
    · refine ⟨r₀, hr₀, LoginM.changedLate_of_spent (before_of_adjacent hr₀) ?_ hspent⟩
      rw [total_of_mem_course (hr₀.subset List.mem_cons_self)]
      exact loginBudget_ne_zero s.config
  · rintro ⟨r₀, hr₀, hlate⟩
    exact LoginM.spent_of_changedLate (before_of_adjacent hr₀) hlate

/-- An attempt that uses the budget up and fails is the last, unless a token is at hand or the login has to
change to two hosts. -/
theorem login_of_spent {e : Error} {mid : LoginRun σ} (h : r ∈ s.course server attempts w)
    (ha : LoginM.roundAttempt (s.context server) r.plan r.run = (.ok (.failed e), mid))
    (hs : mid.budget.Spent mid.world.now) (ht : e.isTransient) (he : ¬ mid.Renews e)
    (hp : ∀ p, r.plan = .single p → mid.partner = none) :
    login server attempts s w = (.error (.failed (.timeoutExpiredAfter e)), { mid with
      phase := .failedFatal
      world := mid.world.record (.ended (.failed (.timeoutExpiredAfter e))) }) := by
  have hround : LoginM.round (s.context server) r.plan r.run =
      (.error (.failed (.timeoutExpiredAfter e)), mid) := by
    rw [LoginM.round, Op.bind_of_ok ha, LoginM.settle_of_spent hs he ht hp]
  rw [login_of_failed h hround, show (Error.timeoutExpiredAfter e).dooms = false from rfl, Bool.or_false]

end LoginStart

/-- Every connection of a login is tried while something is left of its budget, but for one: the first
after a change to two hosts, if the attempt before has used the budget up. Wherever else an attempt uses
the budget up and fails, and no token is at hand, the login ends because its time has; and then no
redirect is followed. -/
theorem connected_within_budget (server : Server σ) (attempts : Nat) (s : LoginStart) (w : World σ) :
    (∀ t n target timeout older,
      (t, Event.connected n target timeout) :: older <:+ (login server attempts s w).2.world.trace →
      w.trace <:+ older →
      ∃ r ∈ s.course server attempts w, r.run.world.trace = older ∧ r.run.world.now = t ∧
        (r.run.budget.Spent t ↔
          ∃ r₀, [r₀, r] <:+: s.course server attempts w ∧ r₀.ChangedLate (s.context server) r)) ∧
    (∀ r ∈ s.course server attempts w, ∀ e mid,
      LoginM.roundAttempt (s.context server) r.plan r.run = (.ok (.failed e), mid) →
      mid.budget.Spent mid.world.now → e.isTransient → ¬ mid.Renews e →
      (∀ p, r.plan = .single p → mid.partner = none) →
      (login server attempts s w).1 = .error (.failed (.timeoutExpiredAfter e)) ∧
        (login server attempts s w).2.world.connects = mid.world.connects) ∧
    (∀ r ∈ s.course server attempts w, ∀ target mid,
      LoginM.roundAttempt (s.context server) r.plan r.run = (.ok (.routed target), mid) →
      ¬ mid.budget.Spent mid.world.now) := by
  refine ⟨?_, ?_, fun r _ target mid ha => (LoginM.followed_of_routed ha).1⟩
  · intro t n target timeout older hc hnew
    obtain ⟨r, hr, htrace, rfl, -, -⟩ := LoginStart.round_of_connected hc hnew
    exact ⟨r, hr, htrace, rfl, LoginStart.spent_iff_changedLate hr⟩
  · intro r hr e mid ha hs ht he hp
    rw [LoginStart.login_of_spent hr ha hs ht he hp]
    exact ⟨rfl, rfl⟩

/-- A login that has a second, for one host. -/
def hastyLogin : LoginStart := { config := { server := .ofHost "primary", timeout := Span.ofSeconds 1 } }

/-- A world in which nobody answers. -/
def deafWorld : World LoginScript := { server := { fallback := .hang } }

/-- The plan of a login that has a second, and the state in which its attempt ends if nobody answers. -/
def hastyPlan : LoginPlan := .single { slice := 80000000, backoff := hastyLogin.config.retry.backoff }

def hastyEnd : LoginRun LoginScript :=
  (LoginM.roundAttempt (hastyLogin.context (LineFaults.server {})) hastyPlan (hastyLogin.begun deafWorld)).2

/-- If nobody answers, the only connection is tried in time, and the login ends when the second is over. -/
theorem hastyLogin_expires :
    (∃ r ∈ hastyLogin.course (LineFaults.server {}) 2 deafWorld, r.run.world.now = 0 ∧
      (r.run.budget.Spent 0 ↔ ∃ r₀, [r₀, r] <:+: hastyLogin.course (LineFaults.server {}) 2 deafWorld ∧
        r₀.ChangedLate (hastyLogin.context (LineFaults.server {})) r)) ∧
    (login (LineFaults.server {}) 2 hastyLogin deafWorld).1 =
      .error (.failed (.timeoutExpiredAfter (.connectTimeout "primary"))) := by
  obtain ⟨hconnected, hended, -⟩ := connected_within_budget (LineFaults.server {}) 2 hastyLogin deafWorld
  constructor
  · obtain ⟨r, hr, -, hnow, hspent⟩ := hconnected 0 1 ⟨"primary", "primary", none, none, none,
      some "MSSQLSvc/primary", none, none⟩ (some 1000000000) [(0, .began)] (by decide +kernel)
      (by decide +kernel)
    exact ⟨r, hr, hnow, hspent⟩
  · have hplan : LoginM.firstPlan hastyLogin.config (hastyLogin.begun deafWorld) =
        (.ok hastyPlan, hastyLogin.begun deafWorld) := by rfl
    have hr : ⟨hastyPlan, hastyLogin.begun deafWorld⟩ ∈ hastyLogin.course (LineFaults.server {}) 2 deafWorld :=
      LoginStart.first_mem_course (LineFaults.server {}) 1 rfl hplan
    have hend : (LoginM.roundAttempt (hastyLogin.context (LineFaults.server {})) hastyPlan
        (hastyLogin.begun deafWorld)).1 = .ok (.failed (.connectTimeout "primary")) := by rfl
    have hspent : hastyEnd.budget.Spent hastyEnd.world.now := by
      rw [show hastyEnd.budget = ⟨0, some 1000000000⟩ by decide +kernel,
        show hastyEnd.world.now = 1000000000 by decide +kernel]
      rfl
    have htoken : hastyEnd.tokenRetry = .notStarted := by decide +kernel
    have hpartner : hastyEnd.partner = none := by decide +kernel
    refine (hended _ hr (.connectTimeout "primary") hastyEnd (Prod.ext hend rfl) hspent (by decide) ?_
      fun _ _ => hpartner).1
    rintro ⟨h, -⟩
    rw [htoken] at h
    cases h

/-! ## A connection without time -/

/-- The host names a partner and then says no more; the partner lets everybody in. -/
def silentPrimary : LoginScript where
  hosts :=
    [("primary", [.respond [.textChange .mirroringPartner "mirror" ""] true]),
      ("mirror", [.success [.textChange .mirroringPartner "primary" ""]])]

/-- The partner is tried when nothing is left of the budget, and the login succeeds. -/
theorem connected_without_time :
    (login (LineFaults.server {}) 2 hastyLogin { server := silentPrimary }).2.world.connections =
        [(0, "primary", some 1000000000), (1000000000, "mirror", some 0)] ∧
      (login (LineFaults.server {}) 2 hastyLogin { server := silentPrimary }).2.budget =
        ⟨0, some 1000000000⟩ ∧
      (⟨0, hastyLogin.config.loginBudget⟩ : Budget).Spent 1000000000 ∧
      (login (LineFaults.server {}) 2 hastyLogin { server := silentPrimary }).1.isOk := by
  refine ⟨by decide +kernel, by decide +kernel, rfl, by decide +kernel⟩

end TdsSession
