import TdsSession.Login.Retry
import TdsSession.Proofs.Address.Alias
import TdsSession.Proofs.Login.Exchange
import TdsSession.Proofs.Time.Budget

/-!
# The attempt of a round

A round settles what to connect to and for how long, makes an attempt, and
looks at a redirect if there is one. All this leaves alone what the rounds of a
login share (`RoundFrame`), and it makes one connection at most, to the target
of the round (`roundAttempt_connects`).
-/

namespace TdsSession

open Op (Keeps)

variable {σ : Type}

/-! ## The attempt of a round -/

/-- What the attempt of a round comes to, at `target` and by the options `c`, if the attempt itself has ended in
state `after`; and the state in which it is recorded. -/
inductive LeadsTo (c : Config) (target : Target) (after : LoginRun σ) :
    Except Stop AttemptEnd → RoundEnd → LoginRun σ → Prop
  | opened (e : Established) : LeadsTo c target after (.ok (.opened e)) (.opened e) after
  | failed (e : Error) : LeadsTo c target after (.error (.failed e)) (.failed e) after
  | cut : LeadsTo c target after (.error .cut) (.failed (.connectTimeout target.toText)) after
  /-- The options do not allow the redirect. -/
  | denied (next : Routing) (hdenied : c.redirect.follow = false ∨ c.redirect.limit ≤ after.redirects) :
      LeadsTo c target after (.ok (.routed next)) (.failed (.routingLimitExceeded c.redirect.limit)) after
  | late (next : Routing) (hfollow : c.redirect.follow = true) (hlimit : after.redirects < c.redirect.limit)
      (hb : after.budget.Spent after.world.now) :
      LeadsTo c target after (.ok (.routed next)) (.failed .timeoutExpired) after
  | routed (next : Routing) (hlimit : after.redirects < c.redirect.limit)
      (hb : ¬ after.budget.Spent after.world.now) :
      LeadsTo c target after (.ok (.routed next)) (.routed (.ofRouting c next target.host target.spn))
        { after with redirects := after.redirects + 1 }

/-- The login when a round has settled what to connect to. -/
def LoginRun.resolving (run : LoginRun σ) (aliases : AliasCache) : LoginRun σ :=
  { run with phase := .resolvingIdentity, base := { run.base with aliases } }

namespace LoginM

variable {x : LoginContext σ} {plan : LoginPlan} {run mid : LoginRun σ}

theorem resolve_apply (c : Config) (source : DataSource) :
    resolve c source run = match Target.resolve c true run.base.aliases source with
      | .error e => (.error (.failed e), run)
      | .ok (target, aliases) => (.ok target, { run with base := { run.base with aliases } }) := by
  unfold resolve
  rw [Op.bind_of_ok (Op.get_apply run)]
  rcases Target.resolve c true run.base.aliases source with e | ⟨target, aliases⟩ <;> rfl

/-- What a round connects to: the target of a redirect, or a data source with its alias looked up. -/
theorem roundTarget_apply (plan : LoginPlan) :
    roundTarget x plan run = match plan.route with
      | some target => (.ok target, run)
      | none => match plan.source x.config run.partner with
        | .error e => (.error (.failed e), run)
        | .ok source => resolve x.config source run := by
  unfold roundTarget
  rcases plan.route with _ | target
  · simp only []
    rw [Op.bind_of_ok (Op.get_apply run)]
    rcases plan.source x.config run.partner with e | source <;> rfl
  · rfl

/-- Settling what to connect to changes only which aliases have been looked up. -/
theorem roundTarget_snd (x : LoginContext σ) (plan : LoginPlan) (run : LoginRun σ) :
    ∃ aliases, (roundTarget x plan run).2 = { run with base := { run.base with aliases } } ∧
      AliasCache.Grown x.config run.base.aliases aliases := by
  rw [roundTarget_apply]
  rcases plan.route with _ | target
  · rcases plan.source x.config run.partner with e | source
    · exact ⟨run.base.aliases, rfl, .refl _⟩
    · simp only [resolve_apply]
      rcases h : Target.resolve x.config true run.base.aliases source with e | ⟨target, aliases⟩
      · exact ⟨run.base.aliases, rfl, .refl _⟩
      · exact ⟨aliases, rfl, .of_resolve h⟩
  · exact ⟨run.base.aliases, rfl, .refl _⟩

/-- What a round connects to does not depend on how far the login has come. -/
theorem roundTarget_enter (x : LoginContext σ) (plan : LoginPlan) (run : LoginRun σ) (phase : LoginPhase) :
    (roundTarget x plan { run with phase }).1 = (roundTarget x plan run).1 := by
  rw [roundTarget_apply, roundTarget_apply]
  rcases plan.route with _ | target
  · rcases plan.source x.config run.partner with e | source
    · rfl
    · simp only [resolve_apply]
      rcases Target.resolve x.config true run.base.aliases source with e | ⟨target, aliases⟩ <;> rfl
  · rfl

theorem roundTimeout_snd (x : LoginContext σ) (plan : LoginPlan) (run : LoginRun σ) :
    (roundTimeout x plan run).2 = run := by
  unfold roundTimeout
  cases plan with
  | single p =>
    simp only []
    split
    · rw [Op.map_apply, askBudget_snd]
    · rw [askBudget_snd]
  | pair p =>
    simp only []
    rw [Op.map_apply, askBudget_snd]

theorem askBudget_resolving {α : Type} (question : Budget → Moment → Except Overflow α) (aliases : AliasCache) :
    (askBudget question (run.resolving aliases)).1 = (askBudget question run).1 := by
  rw [askBudget_apply, askBudget_apply]
  show (ofClock (question run.budget run.world.now) (run.resolving aliases)).1 = _
  rcases question run.budget run.world.now with o | a <;> rfl

/-- The time for an attempt does not depend on the aliases that have been looked up for it. -/
theorem roundTimeout_resolving (aliases : AliasCache) :
    (roundTimeout x plan (run.resolving aliases)).1 = (roundTimeout x plan run).1 := by
  cases plan with
  | single p =>
    unfold roundTimeout
    dsimp only
    split
    · rw [Op.map_apply, Op.map_apply, askBudget_resolving]
    · rw [askBudget_resolving]
  | pair p =>
    unfold roundTimeout
    dsimp only
    rw [Op.map_apply, Op.map_apply, askBudget_resolving]

/-- The time for an attempt on one host is what is left, or as many slices as there have been attempts. -/
theorem roundTimeout_single_eq {p : SinglePlan} {timeout : Option Span}
    (h : (roundTimeout x (.single p) run).1 = .ok timeout) :
    timeout = (if x.config.multiSubnet then some (run.budget.cut run.world.now (p.slice * (p.failed + 1)))
      else run.budget.total.map (run.budget.start + · - run.world.now)) ∧ run.budget.EndsInClock := by
  unfold roundTimeout at h
  dsimp only at h
  split at h <;> rename_i hmany
  · rw [if_pos hmany]
    rw [Op.map_apply, askBudget_apply] at h
    rcases hl : run.budget.manyAddressTimeout run.world.now p.slice (p.failed + 1) with o | l <;> rw [hl] at h <;>
      cases h
    obtain ⟨rfl, hends⟩ := Budget.manyAddressTimeout_eq hl
    exact ⟨rfl, hends⟩
  · rw [if_neg hmany]
    rw [askBudget_apply] at h
    rcases Budget.remaining_cases run.budget run.world.now with ⟨hends, hl⟩ | ⟨-, hl⟩ <;> rw [hl] at h <;> cases h
    exact ⟨rfl, hends⟩

/-- The time for an attempt on a pair is as many slices as there have been pairs, and one more. -/
theorem roundTimeout_pair_eq {p : PairPlan} {timeout : Option Span}
    (h : (roundTimeout x (.pair p) run).1 = .ok timeout) :
    timeout = some (run.budget.cut run.world.now (p.slice * ((p.failed + 2) / 2))) ∧ run.budget.EndsInClock := by
  unfold roundTimeout at h
  dsimp only at h
  rw [Op.map_apply, askBudget_apply] at h
  rcases hl : run.budget.pairTimeout run.world.now p.slice (p.failed + 1) with o | l <;> rw [hl] at h <;> cases h
  obtain ⟨rfl, hends⟩ := Budget.pairTimeout_eq hl
  exact ⟨rfl, hends⟩

/-- The attempt of a login with a budget has a time limit, and it does not go beyond the budget. -/
theorem roundTimeout_le {total : Span} (ht : run.budget.total = some total) {timeout : Option Span}
    (h : (roundTimeout x plan run).1 = .ok timeout) :
    ∃ l, timeout = some l ∧ l ≤ run.budget.start + total - run.world.now := by
  cases plan with
  | single p =>
    obtain ⟨rfl, -⟩ := roundTimeout_single_eq h
    split
    · exact ⟨_, rfl, Budget.cut_le ht _⟩
    · rw [ht]
      exact ⟨_, rfl, Nat.le_refl _⟩
  | pair p =>
    obtain ⟨rfl, -⟩ := roundTimeout_pair_eq h
    exact ⟨_, rfl, Budget.cut_le ht _⟩

/-- A redirect that the options do not allow, or no more, is not followed. -/
theorem followRedirect_of_limit {c : Config} (source : Target) (target : Routing)
    (h : c.redirect.follow = false ∨ c.redirect.limit ≤ run.redirects) :
    followRedirect c source target run = (.ok (.failed (.routingLimitExceeded c.redirect.limit)), run) := by
  unfold followRedirect
  rw [Op.bind_of_ok (Op.get_apply run), if_pos (by simpa using h)]
  rfl

/-- A redirect that the options allow is followed while the budget lasts, and is counted then. -/
theorem followRedirect_of_allowed {c : Config} (source : Target) (target : Routing)
    (hfollow : c.redirect.follow = true) (hlimit : run.redirects < c.redirect.limit) :
    followRedirect c source target run = match run.budget.isExpired run.world.now with
      | .error _ => (.error .overflow, run)
      | .ok true => (.ok (.failed .timeoutExpired), run)
      | .ok false =>
        (.ok (.routed (.ofRouting c target source.host source.spn)),
          { run with redirects := run.redirects + 1 }) := by
  unfold followRedirect
  rw [Op.bind_of_ok (Op.get_apply run), if_neg (by simpa [hfollow] using hlimit), Op.bind_apply, askBudget_apply]
  rcases run.budget.isExpired run.world.now with o | _ | _ <;> rfl

/-- The ways in which looking at a redirect ends. -/
theorem followRedirect_cases {c : Config} {source : Target} {target : Routing} {r : Except Stop RoundEnd}
    (h : followRedirect c source target run = (r, mid)) :
    (r = .ok (.failed (.routingLimitExceeded c.redirect.limit)) ∧ mid = run ∧
      (c.redirect.follow = false ∨ c.redirect.limit ≤ run.redirects)) ∨
    (r = .error .overflow ∧ mid = run) ∨
    (r = .ok (.failed .timeoutExpired) ∧ mid = run ∧ c.redirect.follow = true ∧
      run.redirects < c.redirect.limit ∧ run.budget.Spent run.world.now) ∨
    (r = .ok (.routed (.ofRouting c target source.host source.spn)) ∧
      mid = { run with redirects := run.redirects + 1 } ∧ run.redirects < c.redirect.limit ∧
      ¬ run.budget.Spent run.world.now) := by
  by_cases hlimit : c.redirect.follow = false ∨ c.redirect.limit ≤ run.redirects
  · rw [followRedirect_of_limit source target hlimit] at h
    cases h
    exact .inl ⟨rfl, rfl, hlimit⟩
  obtain ⟨hfollow, hlt⟩ := not_or.mp hlimit
  rw [followRedirect_of_allowed source target (by simpa using hfollow) (Nat.not_le.mp hlt)] at h
  rcases hx : run.budget.isExpired run.world.now with o | expired
  · rw [hx] at h
    cases h
    exact .inr (.inl ⟨rfl, rfl⟩)
  have hspent := Budget.isExpired_iff hx
  cases expired with
  | true =>
    rw [hx] at h
    cases h
    exact .inr (.inr (.inl ⟨rfl, rfl, by simpa using hfollow, Nat.not_le.mp hlt, hspent.mp rfl⟩))
  | false =>
    rw [hx] at h
    cases h
    exact .inr (.inr (.inr ⟨rfl, rfl, Nat.not_le.mp hlt, fun hs => nomatch hspent.mpr hs⟩))

/-- How the end of an attempt becomes the end of a round's attempt. -/
theorem tryTarget_apply (target : Target) (timeout : Option Span) :
    tryTarget x target timeout run =
      match timedAttempt x.server (x.attempt target timeout run.world.now) run with
      | (.error s, mid) => (.error s, mid)
      | (.ok (.ok (.opened e)), mid) => (.ok (.opened e), mid.finished target (.opened e))
      | (.ok (.error e), mid) => (.ok (.failed e), mid.finished target (.failed e))
      | (.ok (.ok (.routed next)), mid) =>
        match followRedirect x.config target next mid with
        | (.error s, mid) => (.error s, mid)
        | (.ok ended, mid) => (.ok ended, mid.finished target ended) := by
  unfold tryTarget
  rw [Op.bind_of_ok (Op.get_apply run), Op.bind_apply]
  rcases timedAttempt x.server (x.attempt target timeout run.world.now) run with ⟨s | e | e | next, mid⟩
  · rfl
  · rfl
  · rfl
  · simp only []
    rw [Op.bind_apply]
    rcases followRedirect x.config target next mid with ⟨s | ended, mid'⟩ <;> rfl

/-- How a round goes on from the end of its attempt, which came in state `after`. -/
def afterAttempt (c : Config) (target : Target) (after : LoginRun σ) :
    Except Stop AttemptEnd → Except Stop RoundEnd × LoginRun σ
  | .ok (.opened e) => (.ok (.opened e), after.finished target (.opened e))
  | .ok (.routed next) =>
    match followRedirect c target next after with
    | (.error s, last) => (.error s, last)
    | (.ok ended, last) => (.ok ended, last.finished target ended)
  | .error (.failed e) => (.ok (.failed e), after.finished target (.failed e))
  | .error .cut =>
    (.ok (.failed (.connectTimeout target.toText)), after.finished target (.failed (.connectTimeout target.toText)))
  | .error s => (.error s, after)

theorem tryTarget_of_attempt {target : Target} {timeout : Option Span} {res : Except Stop AttemptEnd}
    {after : LoginRun σ} (h : attempt x.server (x.attempt target timeout run.world.now) run = (res, after)) :
    tryTarget x target timeout run = afterAttempt x.config target after res := by
  rw [tryTarget_apply, timedAttempt_apply, h]
  rcases res with s | e | next
  · cases s <;> rfl
  · rfl
  · rfl

/-- The attempt of a round that ends is an attempt at its target, and is recorded. -/
theorem tryTarget_eq_ok {target : Target} {timeout : Option Span} {ended : RoundEnd}
    (h : tryTarget x target timeout run = (.ok ended, mid)) :
    ∃ res after last, attempt x.server (x.attempt target timeout run.world.now) run = (res, after) ∧
      LeadsTo x.config target after res ended last ∧ mid = last.finished target ended := by
  rcases hattempt : attempt x.server (x.attempt target timeout run.world.now) run with ⟨s | e | next, after⟩ <;>
    rw [tryTarget_of_attempt hattempt] at h
  · cases s <;> cases h
    · exact ⟨_, after, after, rfl, .failed _, rfl⟩
    · exact ⟨_, after, after, rfl, .cut, rfl⟩
  · cases h
    exact ⟨_, after, after, rfl, .opened e, rfl⟩
  · rcases hr : followRedirect x.config target next after with ⟨s | ended, last⟩ <;>
      simp only [afterAttempt, hr] at h <;>
      cases h
    refine ⟨_, after, last, rfl, ?_, rfl⟩
    rcases followRedirect_cases hr with ⟨h, rfl, hdenied⟩ | ⟨h, -⟩ | ⟨h, rfl, hfollow, hlimit, hb⟩ |
      ⟨h, rfl, hlimit, hb⟩
    · cases h
      exact .denied next hdenied
    · cases h
    · cases h
      exact .late next hfollow hlimit hb
    · cases h
      exact .routed next hlimit hb

/-- The attempt of a round that stops is not recorded. -/
theorem tryTarget_eq_error {target : Target} {timeout : Option Span} {s : Stop}
    (h : tryTarget x target timeout run = (.error s, mid)) :
    ∃ res, attempt x.server (x.attempt target timeout run.world.now) run = (res, mid) ∧ ∀ e, s ≠ .failed e := by
  rcases hattempt : attempt x.server (x.attempt target timeout run.world.now) run with ⟨s' | e | next, after⟩ <;>
    rw [tryTarget_of_attempt hattempt] at h
  · cases s' <;> cases h <;> exact ⟨_, rfl, nofun⟩
  · cases h
  · rcases hr : followRedirect x.config target next after with ⟨s | ended, last⟩ <;>
      simp only [afterAttempt, hr] at h <;>
      cases h
    rcases followRedirect_cases hr with ⟨h, -⟩ | ⟨h, rfl⟩ | ⟨h, -⟩ | ⟨h, -⟩ <;> cases h
    exact ⟨_, rfl, nofun⟩

/-- A round stops before its attempt, or it has a target and a time limit and tries that target. -/
theorem roundAttempt_cases {r : Except Stop RoundEnd} (h : roundAttempt x plan run = (r, mid)) :
    ∃ aliases, AliasCache.Grown x.config run.base.aliases aliases ∧
    ((∃ s, r = .error s ∧ mid = run.resolving aliases) ∨
    ∃ target timeout, (roundTarget x plan run).1 = .ok target ∧
      (roundTimeout x plan (run.resolving aliases)).1 = .ok timeout ∧
      tryTarget x target timeout (run.resolving aliases) = (r, mid)) := by
  unfold roundAttempt at h
  rw [Op.bind_of_ok (enter_apply ..)] at h
  obtain ⟨aliases, haliases, hgrown⟩ := roundTarget_snd x plan { run with phase := .resolvingIdentity }
  have htarget := roundTarget_enter x plan run .resolvingIdentity
  rcases ht : roundTarget x plan { run with phase := .resolvingIdentity } with ⟨s | target, after⟩
  · rw [Op.bind_of_error ht] at h
    rw [ht] at haliases
    cases h
    exact ⟨aliases, hgrown, .inl ⟨s, rfl, haliases⟩⟩
  rw [Op.bind_of_ok ht] at h
  rw [ht] at haliases htarget
  have hafter : after = run.resolving aliases := haliases
  subst hafter
  have htimeout := roundTimeout_snd x plan (run.resolving aliases)
  rcases hl : roundTimeout x plan (run.resolving aliases) with ⟨s | timeout, after⟩
  · rw [Op.bind_of_error hl] at h
    rw [hl] at htimeout
    cases h
    exact ⟨aliases, hgrown, .inl ⟨s, rfl, htimeout⟩⟩
  · rw [Op.bind_of_ok hl] at h
    rw [hl] at htimeout
    cases htimeout
    exact ⟨aliases, hgrown, .inr ⟨target, timeout, htarget.symm, by rw [hl], h⟩⟩

/-- The attempt of a round that ends is one at the target of the round. -/
theorem roundAttempt_eq_ok {ended : RoundEnd} (h : roundAttempt x plan run = (.ok ended, mid)) :
    ∃ aliases target timeout res after last, AliasCache.Grown x.config run.base.aliases aliases ∧
      (roundTarget x plan run).1 = .ok target ∧
      attempt x.server (x.attempt target timeout run.world.now) (run.resolving aliases) = (res, after) ∧
      LeadsTo x.config target after res ended last ∧ mid = last.finished target ended := by
  rcases roundAttempt_cases h with ⟨aliases, hgrown, ⟨s, hs, -⟩ | ⟨target, timeout, htarget, -, htry⟩⟩
  · cases hs
  · obtain ⟨res, after, last, hattempt, hleads, hmid⟩ := tryTarget_eq_ok htry
    exact ⟨aliases, target, timeout, res, after, last, hgrown, htarget, hattempt, hleads, hmid⟩

end LoginM

/-! ## The frame of a round's attempt -/

/-- What the attempt of a round leaves alone, and how it moves on. -/
structure RoundFrame (c : Config) (run mid : LoginRun σ) : Prop where
  budget : mid.budget = run.budget
  doomed : mid.doomed = run.doomed
  pooled : mid.group.pooled = run.group.pooled
  preferPartner : mid.group.preferPartner = run.group.preferPartner
  patience : mid.world.patience = run.world.patience
  base : ∃ aliases, mid.base = { run.base with aliases }
  aliases : AliasCache.Grown c run.base.aliases mid.base.aliases
  redirects : run.redirects ≤ mid.redirects
  now : run.world.now ≤ mid.world.now
  token : run.tokenRetry = .ofTrace run.world.trace → mid.tokenRetry = .ofTrace mid.world.trace

namespace RoundFrame

variable {c : Config} {run mid run' : LoginRun σ}

theorem refl (run : LoginRun σ) : RoundFrame c run run where
  budget := rfl
  doomed := rfl
  pooled := rfl
  preferPartner := rfl
  patience := rfl
  base := ⟨run.base.aliases, rfl⟩
  aliases := .refl _
  redirects := Nat.le_refl _
  now := Nat.le_refl _
  token := id

theorem trans (h₁ : RoundFrame c run mid) (h₂ : RoundFrame c mid run') : RoundFrame c run run' where
  budget := h₂.budget.trans h₁.budget
  doomed := h₂.doomed.trans h₁.doomed
  pooled := h₂.pooled.trans h₁.pooled
  preferPartner := h₂.preferPartner.trans h₁.preferPartner
  patience := h₂.patience.trans h₁.patience
  base := by
    obtain ⟨first, h₁⟩ := h₁.base
    obtain ⟨second, h₂⟩ := h₂.base
    exact ⟨second, by rw [h₂, h₁]⟩
  aliases := h₁.aliases.trans h₂.aliases
  redirects := Nat.le_trans h₁.redirects h₂.redirects
  now := Nat.le_trans h₁.now h₂.now
  token := h₂.token ∘ h₁.token

theorem resolving (run : LoginRun σ) {aliases : AliasCache}
    (h : AliasCache.Grown c run.base.aliases aliases) : RoundFrame c run (run.resolving aliases) :=
  { (refl run : RoundFrame c run run) with base := ⟨aliases, rfl⟩, aliases := h }

theorem finished (run : LoginRun σ) (target : Target) (ended : RoundEnd) :
    RoundFrame c run (run.finished target ended) :=
  { (refl run : RoundFrame c run run) with }

theorem connecting (run : LoginRun σ) (server : Server σ) (p : AttemptPlan) :
    RoundFrame c run (run.connecting server p) :=
  { (refl run : RoundFrame c run run) with token := id }

theorem ofAttempt {n : Nat} {deadline : Option Moment} (h : AttemptFrame n deadline run mid) :
    RoundFrame c run mid where
  budget := h.budget
  doomed := h.doomed
  pooled := h.pooled
  preferPartner := h.preferPartner
  patience := h.patience
  base := ⟨run.base.aliases, h.base⟩
  aliases := by
    rw [h.base]
    exact .refl _
  redirects := Nat.le_of_eq h.redirects.symm
  now := h.inTime.1
  token := h.token

theorem timedAttempt {server : Server σ} {p : AttemptPlan} {r : Except Stop (Except Error AttemptEnd)}
    (h : LoginM.timedAttempt server p run = (r, mid)) : RoundFrame c run mid := by
  rcases LoginM.timedAttempt_cases h with ⟨rfl, -⟩ | hframe
  · exact refl _
  · exact (connecting run server p).trans (ofAttempt hframe)

theorem followRedirect {source : Target} {target : Routing} {r : Except Stop RoundEnd}
    (h : LoginM.followRedirect c source target run = (r, mid)) : RoundFrame c run mid := by
  rcases LoginM.followRedirect_cases h with ⟨-, rfl, -⟩ | ⟨-, rfl⟩ | ⟨-, rfl, -⟩ | ⟨-, rfl, -⟩
  · exact refl _
  · exact refl _
  · exact refl _
  · exact { (refl run : RoundFrame c run run) with redirects := Nat.le_succ _ }

theorem tryTarget {x : LoginContext σ} {target : Target} {timeout : Option Span} {r : Except Stop RoundEnd}
    (h : LoginM.tryTarget x target timeout run = (r, mid)) : RoundFrame x.config run mid := by
  rw [LoginM.tryTarget_apply] at h
  rcases ht : LoginM.timedAttempt x.server (x.attempt target timeout run.world.now) run with
    ⟨s | e | e | next, mid₁⟩ <;> rw [ht] at h
  · cases h
    exact timedAttempt ht
  · cases h
    exact (timedAttempt ht).trans (finished ..)
  · cases h
    exact (timedAttempt ht).trans (finished ..)
  · rcases hr : LoginM.followRedirect x.config target next mid₁ with ⟨s | ended, mid₂⟩ <;>
      simp only [hr] at h <;> cases h
    · exact (timedAttempt ht).trans (followRedirect hr)
    · exact ((timedAttempt ht).trans (followRedirect hr)).trans (finished ..)

theorem roundAttempt {x : LoginContext σ} {plan : LoginPlan} {r : Except Stop RoundEnd}
    (h : LoginM.roundAttempt x plan run = (r, mid)) : RoundFrame x.config run mid := by
  rcases LoginM.roundAttempt_cases h with ⟨aliases, hgrown, ⟨s, -, rfl⟩ | ⟨target, timeout, -, -, htry⟩⟩
  · exact resolving run hgrown
  · exact (resolving run hgrown).trans (tryTarget htry)

end RoundFrame

namespace LoginM

variable {x : LoginContext σ} {plan : LoginPlan} {run mid : LoginRun σ} {target : Target}

/-- The attempt of a round that ends is recorded, and a redirect that it follows is counted. -/
theorem roundAttempt_recorded {ended : RoundEnd} (h : roundAttempt x plan run = (.ok ended, mid)) :
    ∃ source, mid.attempts = ended.record source :: run.attempts ∧
      mid.redirects = run.redirects + (if (ended.record source).routedTo.isSome then 1 else 0) ∧
      ((ended.record source).routedTo.isSome → run.redirects < x.config.redirect.limit) := by
  obtain ⟨aliases, source, timeout, res, after, last, -, -, hattempt, hleads, rfl⟩ := roundAttempt_eq_ok h
  obtain ⟨hattempts, hredirects⟩ : after.attempts = run.attempts ∧ after.redirects = run.redirects := by
    rcases attempt_frame hattempt with ⟨rfl, -⟩ | hframe
    · exact ⟨rfl, rfl⟩
    · exact ⟨hframe.attempts, hframe.redirects⟩
  refine ⟨source, ?_⟩
  rw [← hattempts, ← hredirects]
  cases hleads with
  | opened e => exact ⟨rfl, rfl, nofun⟩
  | failed e => exact ⟨rfl, rfl, nofun⟩
  | cut => exact ⟨rfl, rfl, nofun⟩
  | denied next hdenied => exact ⟨rfl, rfl, nofun⟩
  | late next hfollow hlimit hb => exact ⟨rfl, rfl, nofun⟩
  | routed next hlimit hb => exact ⟨rfl, rfl, fun _ => hlimit⟩

/-- The attempt of a round that stops is not recorded, and it follows no redirect. -/
theorem roundAttempt_unrecorded {s : Stop} (h : roundAttempt x plan run = (.error s, mid)) :
    mid.attempts = run.attempts ∧ mid.redirects = run.redirects := by
  rcases roundAttempt_cases h with ⟨aliases, -, ⟨s, -, rfl⟩ | ⟨target, timeout, -, -, htry⟩⟩
  · exact ⟨rfl, rfl⟩
  obtain ⟨res, hattempt, -⟩ := tryTarget_eq_error htry
  rcases attempt_frame hattempt with ⟨rfl, -⟩ | hframe
  · exact ⟨rfl, rfl⟩
  · exact ⟨hframe.attempts, hframe.redirects⟩

/-- A redirect that is followed leaves something of the budget, and is counted. -/
theorem followed_of_routed (h : roundAttempt x plan run = (.ok (.routed target), mid)) :
    ¬ mid.budget.Spent mid.world.now ∧ 0 < mid.redirects := by
  obtain ⟨aliases, source, timeout, res, after, last, -, -, hattempt, hleads, rfl⟩ := roundAttempt_eq_ok h
  cases hleads with
  | routed next hlimit hb => exact ⟨hb, Nat.succ_pos _⟩

end LoginM

/-! ## The connection of a round -/

/-- From `run` to `mid`, one connection is tried, to `target` and with `timeout`, and nothing happens over
any other. -/
structure Connects (run mid : LoginRun σ) (target : Target) (timeout : Option Span) : Prop where
  connects : mid.world.connects = run.world.connects + 1
  trace : Grows (Event.over (run.world.connects + 1))
    ((run.world.now, .connected (run.world.connects + 1) target timeout) :: run.world.trace) mid.world.trace

def Event.isConnected : Event → Bool
  | .connected .. => true
  | _ => false

theorem Event.over.isConnected {n : Nat} {e : Event} (h : e.over n) : e.isConnected = false := by
  rcases h with h | rfl
  · cases e <;> first | rfl | exact h.elim
  · rfl

/-- What has happened since a connection was tried last, newest event first. -/
def sinceConnected (trace : List (Moment × Event)) : List (Moment × Event) :=
  trace.takeWhile fun e => !e.2.isConnected

theorem sinceConnected_append {heard earlier : List (Moment × Event)} {t : Moment} {n : Nat} {target : Target}
    {timeout : Option Span} (h : ∀ e ∈ heard, e.2.isConnected = false) :
    sinceConnected (heard ++ (t, .connected n target timeout) :: earlier) = heard := by
  have hheard : ∀ e ∈ heard, (!e.2.isConnected) = true := fun e he => by rw [h e he, Bool.not_false]
  rw [sinceConnected, List.takeWhile_append_of_pos hheard,
    List.takeWhile_cons_of_neg (by simp [Event.isConnected]), List.append_nil]

namespace Connects

variable {run mid : LoginRun σ} {target target' : Target} {timeout timeout' : Option Span}

/-- One state leads to another by one connection at most. -/
theorem unique (h : Connects run mid target timeout) (h' : Connects run mid target' timeout') :
    target = target' ∧ timeout = timeout' := by
  have hsame := List.suffix_of_suffix_length_le h.trace.suffix h'.trace.suffix (Nat.le_of_eq rfl)
  cases hsame.eq_of_length rfl
  exact ⟨rfl, rfl⟩

/-- What has happened over the connection is what has happened since it was tried. -/
theorem sinceConnected_eq {added : List (Moment × Event)} (h : Connects run mid target timeout)
    (htrace : mid.world.trace = added ++
      (run.world.now, .connected (run.world.connects + 1) target timeout) :: run.world.trace) :
    sinceConnected mid.world.trace = added ∧ ∀ e ∈ added, e.2.over (run.world.connects + 1) := by
  obtain ⟨added', htrace', hadded⟩ := h.trace
  rw [htrace'] at htrace
  obtain rfl : added' = added := List.append_cancel_right htrace
  refine ⟨?_, hadded⟩
  rw [htrace']
  exact sinceConnected_append fun e he => (hadded e he).isConnected

theorem trace_eq (h : Connects run mid target timeout) :
    mid.world.trace = sinceConnected mid.world.trace ++
      (run.world.now, .connected (run.world.connects + 1) target timeout) :: run.world.trace := by
  obtain ⟨added, htrace, -⟩ := h.trace
  rw [(h.sinceConnected_eq htrace).1, htrace]

theorem over_of_mem_sinceConnected (h : Connects run mid target timeout) {e : Moment × Event}
    (he : e ∈ sinceConnected mid.world.trace) : e.2.over (run.world.connects + 1) := by
  obtain ⟨hadded, hover⟩ := h.sinceConnected_eq h.trace_eq
  exact hover e he

end Connects

namespace LoginM

variable {x : LoginContext σ} {plan : LoginPlan} {run mid : LoginRun σ}

/-- Without its provider an attempt leaves the world as it is, and that cannot be repaired. -/
theorem timedAttempt_connects {server : Server σ} {p : AttemptPlan} {r : Except Stop (Except Error AttemptEnd)}
    (h : timedAttempt server p run = (r, mid)) :
    (mid.world = run.world ∧
      ∃ m : AuthMethod, r = .ok (.error (.authentication (.unsupportedMethod m.toText)))) ∨
      Connects run mid p.target p.timeout := by
  rcases timedAttempt_cases h with ⟨rfl, hm⟩ | hframe
  · exact .inl ⟨rfl, hm⟩
  · exact .inr ⟨hframe.connects, hframe.trace⟩

theorem followRedirect_world {c : Config} {source : Target} {target : Routing} {r : Except Stop RoundEnd}
    (h : followRedirect c source target run = (r, mid)) : mid.world = run.world := by
  rcases followRedirect_cases h with ⟨-, rfl, -⟩ | ⟨-, rfl⟩ | ⟨-, rfl, -⟩ | ⟨-, rfl, -⟩ <;> rfl

/-- Looking at a redirect and recording the attempt leave the world as the attempt has left it. -/
theorem tryTarget_world {target : Target} {timeout : Option Span} {r : Except Stop RoundEnd}
    {res : Except Stop (Except Error AttemptEnd)} {mid₁ : LoginRun σ}
    (h : tryTarget x target timeout run = (r, mid))
    (ht : timedAttempt x.server (x.attempt target timeout run.world.now) run = (res, mid₁)) :
    mid.world = mid₁.world := by
  rw [tryTarget_apply, ht] at h
  rcases res with s | e | e | next
  · cases h
    rfl
  · cases h
    rfl
  · cases h
    rfl
  · rcases hr : followRedirect x.config target next mid₁ with ⟨s | ended, mid₂⟩ <;>
      have hworld := followRedirect_world hr <;> simp only [hr] at h <;> cases h <;> exact hworld

theorem tryTarget_connects {target : Target} {timeout : Option Span} {r : Except Stop RoundEnd}
    (h : tryTarget x target timeout run = (r, mid)) :
    (mid.world = run.world ∧
      ∃ m : AuthMethod, r = .ok (.failed (.authentication (.unsupportedMethod m.toText)))) ∨
      Connects run mid target timeout := by
  rcases ht : timedAttempt x.server (x.attempt target timeout run.world.now) run with ⟨res, mid₁⟩
  have hworld := tryTarget_world h ht
  rcases timedAttempt_connects ht with ⟨hsame, m, rfl⟩ | hconnects
  · rw [tryTarget_apply, ht] at h
    cases h
    exact .inl ⟨hsame, m, rfl⟩
  · refine .inr ⟨?_, ?_⟩
    · rw [hworld, hconnects.connects]
    · rw [hworld]
      exact hconnects.trace

/-- The attempt of a round makes no connection, or one to the target of the round. -/
theorem roundAttempt_connects {r : Except Stop RoundEnd} (h : roundAttempt x plan run = (r, mid)) :
    (mid.world = run.world ∧ ∀ ended, r = .ok ended →
      ∃ m : AuthMethod, ended = .failed (.authentication (.unsupportedMethod m.toText))) ∨
    ∃ target timeout, (roundTarget x plan run).1 = .ok target ∧ Connects run mid target timeout := by
  rcases roundAttempt_cases h with ⟨aliases, -, ⟨s, rfl, rfl⟩ | ⟨target, timeout, htarget, -, htry⟩⟩
  · exact .inl ⟨rfl, fun _ hr => nomatch hr⟩
  · rcases tryTarget_connects htry with ⟨hworld, m, rfl⟩ | hconnects
    · refine .inl ⟨hworld, fun ended hr => ?_⟩
      cases hr
      exact ⟨m, rfl⟩
    · exact .inr ⟨target, timeout, htarget, hconnects.connects, hconnects.trace⟩

/-- The attempt of a round has connected, unless it fails because nobody provides tokens for its method. -/
theorem connects_of_ok {ended : RoundEnd} (h : roundAttempt x plan run = (.ok ended, mid))
    (hne : ∀ m : AuthMethod, ended ≠ .failed (.authentication (.unsupportedMethod m.toText))) :
    ∃ target timeout, Connects run mid target timeout := by
  rcases roundAttempt_connects h with ⟨-, hend⟩ | ⟨target, timeout, -, hconnects⟩
  · obtain ⟨m, hm⟩ := hend ended rfl
    exact absurd hm (hne m)
  · exact ⟨target, timeout, hconnects⟩

/-- An attempt that ends has had the time of its round, and it has connected, if it has, to the target of the round for
that time. -/
theorem roundAttempt_timed {r : Except Stop RoundEnd} (h : roundAttempt x plan run = (r, mid)) :
    (∀ ended, r = .ok ended → ∃ timeout, (roundTimeout x plan run).1 = .ok timeout) ∧
      ∀ target timeout, Connects run mid target timeout →
        (roundTarget x plan run).1 = .ok target ∧ (roundTimeout x plan run).1 = .ok timeout := by
  have unconnected {mid : LoginRun σ} {target : Target} {timeout : Option Span} (hworld : mid.world = run.world) :
      ¬ Connects run mid target timeout := fun hc => by
    have hconnects := hc.connects
    rw [hworld] at hconnects
    exact Nat.ne_of_lt (Nat.lt_succ_self _) hconnects
  rcases roundAttempt_cases h with ⟨aliases, -, ⟨s, rfl, rfl⟩ | ⟨target, timeout, htarget, htimeout, htry⟩⟩
  · exact ⟨fun _ hr => (nomatch hr), fun _ _ hc => absurd hc (unconnected rfl)⟩
  rw [roundTimeout_resolving] at htimeout
  refine ⟨fun _ _ => ⟨timeout, htimeout⟩, fun target' timeout' hc => ?_⟩
  rcases tryTarget_connects htry with ⟨hworld, -⟩ | hc'
  · exact absurd hc (unconnected hworld)
  · obtain ⟨rfl, rfl⟩ := hc.unique ⟨hc'.connects, hc'.trace⟩
    exact ⟨htarget, htimeout⟩

/-- The clock can show the end of the budget of an attempt that ends. -/
theorem roundAttempt_endsInClock {ended : RoundEnd} (h : roundAttempt x plan run = (.ok ended, mid)) :
    mid.budget.EndsInClock := by
  rw [(RoundFrame.roundAttempt h).budget]
  obtain ⟨timeout, htimeout⟩ := (roundAttempt_timed h).1 ended rfl
  cases plan with
  | single p => exact (roundTimeout_single_eq htimeout).2
  | pair p => exact (roundTimeout_pair_eq htimeout).2

/-- Looking at a redirect and recording the attempt leave the world and the partner as the attempt has left
them. -/
theorem tryTarget_kept {target : Target} {timeout : Option Span} {r : Except Stop RoundEnd}
    {res : Except Stop AttemptEnd} {after : LoginRun σ} (h : tryTarget x target timeout run = (r, mid))
    (hattempt : attempt x.server (x.attempt target timeout run.world.now) run = (res, after)) :
    mid.world = after.world ∧ mid.partner = after.partner := by
  cases r with
  | ok ended =>
    obtain ⟨res', after', last, hattempt', hleads, rfl⟩ := tryTarget_eq_ok h
    rw [hattempt] at hattempt'
    cases hattempt'
    cases hleads <;> exact ⟨rfl, rfl⟩
  | error s =>
    obtain ⟨res', hattempt', -⟩ := tryTarget_eq_error h
    rw [hattempt] at hattempt'
    cases hattempt'
    exact ⟨rfl, rfl⟩

/-- What the attempt of a round that connects has come to depends on what has been received over its
connection, and so does which partner is remembered after it. -/
theorem roundAttempt_exchange {r : Except Stop RoundEnd} {target : Target} {timeout : Option Span}
    (h : roundAttempt x plan run = (r, mid)) (hc : Connects run mid target timeout) :
    ∃ aliases res after, (roundTarget x plan run).1 = .ok target ∧
      attempt x.server (x.attempt target timeout run.world.now) (run.resolving aliases) = (res, after) ∧
      tryTarget x target timeout (run.resolving aliases) = (r, mid) ∧
      mid.partner = (namedPartner? (sinceConnected mid.world.trace)).or run.partner ∧
      Requests (x.attempt target timeout run.world.now) (run.world.connects + 1) (sinceConnected mid.world.trace) ∧
      Exchange (x.attempt target timeout run.world.now) (run.world.connects + 1) { run.base with aliases }
        (sinceConnected mid.world.trace) res after := by
  have hno (hworld : mid.world = run.world) : False := by
    have hconnects := hc.connects
    rw [hworld] at hconnects
    omega
  rcases roundAttempt_cases h with ⟨aliases, -, ⟨s, -, rfl⟩ | ⟨target', timeout', htarget, -, htry⟩⟩
  · exact (hno rfl).elim
  have hresolving : Connects (run.resolving aliases) mid target timeout := ⟨hc.connects, hc.trace⟩
  rcases tryTarget_connects htry with ⟨hworld, -⟩ | hc'
  · exact (hno hworld).elim
  obtain ⟨rfl, rfl⟩ := hresolving.unique hc'
  rcases hattempt : attempt x.server (x.attempt target timeout run.world.now) (run.resolving aliases) with
    ⟨res, after⟩
  obtain ⟨hworld, hpartner⟩ := tryTarget_kept htry hattempt
  rcases attempt_exchange hattempt with ⟨rfl, -⟩ | ⟨added, htrace, hnamed, hrequests, hexchange⟩
  · exact (hno hworld).elim
  rw [← hworld] at htrace
  rw [← hpartner] at hnamed
  rw [← (hresolving.sinceConnected_eq htrace).1] at hnamed hrequests hexchange
  exact ⟨aliases, res, after, htarget, hattempt, htry, hnamed, hrequests, hexchange⟩

/-- What the attempt of a round leads to is what its exchange has ended with. -/
theorem roundAttempt_leads {ended : RoundEnd} {target : Target} {timeout : Option Span}
    (h : roundAttempt x plan run = (.ok ended, mid)) (hc : Connects run mid target timeout) :
    ∃ (aliases : AliasCache) (res : Except Stop AttemptEnd) (after last : LoginRun σ),
      LeadsTo x.config target after res ended last ∧
      Exchange (x.attempt target timeout run.world.now) (run.world.connects + 1) { run.base with aliases }
        (sinceConnected mid.world.trace) res after := by
  obtain ⟨aliases, res, after, -, hattempt, htry, -, -, hexchange⟩ := roundAttempt_exchange h hc
  obtain ⟨res', after', last, hattempt', hleads, -⟩ := tryTarget_eq_ok htry
  obtain ⟨rfl, rfl⟩ := Prod.mk.inj (hattempt.symm.trans hattempt')
  exact ⟨aliases, res, after, last, hleads, hexchange⟩

end LoginM

end TdsSession
