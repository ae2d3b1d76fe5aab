import TdsSession.Proofs.Bearer.Calls
import TdsSession.Proofs.Login.Stops

/-!
# Sleeps in an attempt

A client sleeps while it gets a token: a provider that has failed is asked again
after a while. It asks the budget first when that ends, so that no such sleep
lasts as long as the budget. Nothing else in an attempt sleeps, hence all sleeps
of an attempt end before the budget does (`LoginM.roundAttempt_sleepsBefore`).
-/

namespace TdsSession

open Op (Ends Stops)

variable {σ : Type}

/-- All sleeps that have begun since are meant to end before `l`. -/
def SleepsBefore (l : Moment) (old new : List (Moment × Event)) : Prop :=
  ∃ added, new = added ++ old ∧ ∀ t span, (t, .slept span) ∈ added → t + span < l

namespace SleepsBefore

variable {l : Moment} {old new added : List (Moment × Event)}

theorem refl (l : Moment) (trace : List (Moment × Event)) : SleepsBefore l trace trace := ⟨[], rfl, nofun⟩

theorem append (h : SleepsBefore l old new) (hadded : ∀ t span, (t, .slept span) ∈ added → t + span < l) :
    SleepsBefore l old (added ++ new) := by
  obtain ⟨earlier, rfl, hearlier⟩ := h
  refine ⟨added ++ earlier, (List.append_assoc ..).symm, fun t span hs => ?_⟩
  rcases List.mem_append.mp hs with hs | hs
  · exact hadded t span hs
  · exact hearlier t span hs

theorem cons (h : SleepsBefore l old new) {t : Moment} {e : Event} (he : ∀ span, e = .slept span → t + span < l) :
    SleepsBefore l old ((t, e) :: new) := by
  have hlast : ∀ t' span, (t', .slept span) ∈ [(t, e)] → t' + span < l := fun t' span hs => by
    cases List.mem_singleton.mp hs
    exact he span rfl
  exact h.append hlast

theorem lt_of_slept {t : Moment} {span : Span} {older : List (Moment × Event)} (h : SleepsBefore l old new)
    (hs : (t, .slept span) :: older <:+ new) (hold : old <:+ older) : t + span < l := by
  obtain ⟨added, rfl, hadded⟩ := h
  rcases cons_suffix_append_cases hs with ⟨between, hnew, -⟩ | hs
  · exact hadded t span (hnew.subset List.mem_cons_self)
  · exact absurd hs (not_cons_suffix hold)

end SleepsBefore

/-- The budget is `b`, and if that has an end, all sleeps since `old` are meant to end before. -/
structure SleepsInBudget (b : Budget) (old : List (Moment × Event)) (b' : Budget) (w : World σ) : Prop where
  budget : b' = b
  sleeps : ∀ total, b.total = some total → SleepsBefore (b.start + total) old w.trace

/-- The budget tells its end, if it tells anything. -/
theorem Budget.eq_of_deadline {b : Budget} {total : Span} {until? : Option Moment} (ht : b.total = some total)
    (h : b.deadline = .ok until?) : until? = some (b.start + total) := by
  unfold deadline Span.after at h
  simp only [ht] at h
  split at h <;> cases h
  rfl

namespace LoginM

variable {b : Budget} {old : List (Moment × Event)}

/-- A client that gets a token by the end of the budget sleeps within the budget. -/
theorem acquire_sleeps (p : AttemptPlan) (method : AuthMethod) (r : TokenRequest) {until? : Option Moment}
    (huntil : ∀ total, b.total = some total → until? = some (b.start + total)) (key : CacheKey) (claim : CacheClaim) :
    Stops (fun run => SleepsInBudget b old run.budget run.world) (fun _ => True)
      (acquire p method r until? key claim : LoginM σ BearerToken) := by
  intro run hrun
  refine ⟨?_, by split <;> trivial⟩
  rcases acquire_snd p method r until? key claim run with hsame | ⟨events, t, providers, cache, hsnd, -, -, hslept⟩
  · rw [hsame]
    exact hrun
  · rw [hsnd]
    refine ⟨hrun.budget, fun total ht => (hrun.sleeps total ht).append fun t span hs => ?_⟩
    obtain ⟨provider, hprovider⟩ := hslept t span hs
    have hfits := provider.fits_of_slept hprovider
    rw [huntil total ht] at hfits
    exact AcquirePolicy.lt_of_fits hfits

theorem fetchToken_sleeps (p : AttemptPlan) (method : AuthMethod) (info : FedAuthInfo) :
    Stops (fun run => SleepsInBudget b old run.budget run.world) (fun _ => True)
      (fetchToken p method info : LoginM σ BearerToken) := by
  have asked : Ends (fun run : LoginRun σ => SleepsInBudget b old run.budget run.world)
      (fun until? => ∀ total, b.total = some total → until? = some (b.start + total)) (fun _ => True)
      (askBudget fun budget _ => budget.deadline) := by
    intro run hrun
    rw [askBudget_apply, hrun.budget]
    rcases hend : b.deadline with o | until?
    · exact ⟨hrun, trivial⟩
    · exact ⟨hrun, fun total ht => Budget.eq_of_deadline ht hend⟩
  refine asked.bind fun until? huntil => ?_
  refine Ends.get.bind fun run hrun => ?_
  dsimp only
  refine Op.ends_set_bind hrun ?_
  rcases (run.group.cache.lookUp ⟨info.stsUrl, info.spn⟩ run.world.wallTime).2 with token | claim
  · exact Ends.pure trivial
  · exact acquire_sleeps p method _ huntil _ claim

/-- Apart from getting a token, nothing in an attempt sleeps. -/
theorem bears_sleeps (p : AttemptPlan) : p.Bears (SleepsInBudget (σ := σ) b old) (fun _ => True) where
  failed _ := trivial
  noted _ w e he h := by
    refine ⟨h.budget, fun total ht => (h.sleeps total ht).cons fun span hs => absurd ?_ he⟩
    rw [hs]
    trivial
  connecting _ _ _ _ h := ⟨h.budget, h.sleeps⟩
  waits b' delay := by
    intro w hw
    rw [WorldM.wait_apply]
    rcases waitFrom w.now delay (earlier p.deadline w.patience) with t | t | _ <;>
      exact ⟨⟨hw.budget, hw.sleeps⟩, trivial⟩
  fetches := fetchToken_sleeps p

variable {x : LoginContext σ} {plan : LoginPlan} {run mid : LoginRun σ} {total : Span}

/-- All sleeps in the attempt of a round end before the budget does. -/
theorem roundAttempt_sleepsBefore {r : Except Stop RoundEnd} (ht : run.budget.total = some total)
    (h : roundAttempt x plan run = (r, mid)) :
    SleepsBefore (run.budget.start + total) run.world.trace mid.world.trace := by
  rcases roundAttempt_cases h with ⟨aliases, -, ⟨s, -, rfl⟩ | ⟨target, timeout, -, -, htry⟩⟩
  · exact .refl ..
  rcases htimed : timedAttempt x.server (x.attempt target timeout (run.resolving aliases).world.now)
    (run.resolving aliases) with ⟨res, mid₁⟩
  have hstart : SleepsInBudget run.budget run.world.trace (run.resolving aliases).budget
      (run.resolving aliases).world := ⟨rfl, fun _ _ => .refl ..⟩
  have hattempt := ((bears_sleeps (x.attempt target timeout (run.resolving aliases).world.now)).attempt
    x.server _ hstart).1
  rw [← timedAttempt_snd, htimed] at hattempt
  rw [tryTarget_world htry htimed]
  exact hattempt.sleeps total ht

end LoginM

end TdsSession
