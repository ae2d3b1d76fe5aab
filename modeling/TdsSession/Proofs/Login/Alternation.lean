import TdsSession.Proofs.Login.Course
import TdsSession.Script.Server

/-!
# Two hosts in turn

With a failover partner, the sides of the pair take turns: after every failure
that may pass it is the other side's turn. What stands on the partner's side is
looked up anew each time, and any server may have named another partner by
then, even the partner itself. So two attempts in a row go to different hosts
exactly if what is the partner then has another host than the primary.
-/

namespace TdsSession

variable {σ : Type}

/-- The data source on the partner's side, if `named` is the partner that a server has named last. -/
def partnerSource (configured : DataSource) : (named : Option String) → Except Error DataSource
  | some name => DataSource.parse name.toList
  | none => .ok configured

/-- A plan for two hosts, of which `partner` is one. -/
def LoginPlan.HasPartner (partner : DataSource) (plan : LoginPlan) : Prop :=
  ∃ p, plan = .pair p ∧ p.partner = partner

theorem LoginPlan.source_pair (c : Config) (named : Option String) (p : PairPlan) :
    (LoginPlan.pair p).source c named =
      if p.onPartner then partnerSource p.partner named else .ok c.server := by
  cases named <;> rfl

/-- No redirect has been followed on either side. -/
def LoginPlan.Unrouted : LoginPlan → Prop
  | .single p => p.routed = none
  | .pair p => p.primaryRoute = none ∧ p.partnerRoute = none

theorem LoginPlan.Unrouted.route {plan : LoginPlan} (h : plan.Unrouted) : plan.route = none := by
  cases plan with
  | single p => exact h
  | pair p =>
    obtain ⟨hprimary, hpartner⟩ := h
    show (if p.onPartner then p.partnerRoute else p.primaryRoute) = none
    rw [hprimary, hpartner, ite_self]

namespace LoginM

variable {x : LoginContext σ} {plan : LoginPlan} {run run' mid : LoginRun σ} {r r' : RoundStart σ}

theorem aliases_of_before (h : r.Before x r') :
    AliasCache.Grown x.config r.run.base.aliases r'.run.base.aliases := by
  obtain ⟨ended, mid, ha, hc⟩ := before_cases h
  refine (RoundFrame.roundAttempt ha).aliases.trans ?_
  generalize r.plan = plan, r'.plan = plan', r'.run = run' at hc
  cases hc <;> exact .refl _

/-- Redirects are counted over the whole login. -/
theorem redirects_of_before (h : r.Before x r') : r.run.redirects ≤ r'.run.redirects := by
  obtain ⟨ended, mid, ha, hc⟩ := before_cases h
  refine Nat.le_trans (RoundFrame.roundAttempt ha).redirects (Nat.le_of_eq ?_)
  generalize r.plan = plan, r'.plan = plan', r'.run = run' at hc
  cases hc <;> rfl

/-- As long as no redirect has been followed, none is in the plan. -/
theorem unrouted_of_before (h : r.Before x r') (hr : r.run.redirects = 0 → r.plan.Unrouted)
    (hr' : r'.run.redirects = 0) : r'.plan.Unrouted := by
  obtain ⟨ended, mid, ha, hc⟩ := before_cases h
  have hle := (RoundFrame.roundAttempt ha).redirects
  obtain ⟨plan, run⟩ := r
  obtain ⟨plan', run'⟩ := r'
  have hplan (hmid : mid.redirects = 0) : plan.Unrouted := hr (Nat.le_zero.mp (hmid ▸ hle))
  cases hc with
  | routed _ target => exact absurd hr' (Nat.pos_iff_ne_zero.mp (followed_of_routed ha).2)
  | renewed _ e he => exact hplan hr'
  | slept p e he ht hp hs => exact hplan hr'
  | switched p e he ht name hp hm partner hs slice hb => exact ⟨rfl, rfl⟩
  | alternated p e he ht hb hodd => exact hplan hr'
  | sleptAlternated p e he ht hb heven hs => exact hplan hr'

/-- A login that tries two hosts keeps doing so. -/
theorem hasPartner_of_before {partner : DataSource} (h : r.Before x r') (hr : r.plan.HasPartner partner) :
    r'.plan.HasPartner partner := by
  obtain ⟨ended, mid, ha, hc⟩ := before_cases h
  obtain ⟨plan, run⟩ := r
  obtain ⟨plan', run'⟩ := r'
  obtain ⟨p, rfl, hp⟩ := hr
  cases hc with
  | routed _ target =>
    refine ⟨p.withRoute target, rfl, ?_⟩
    unfold PairPlan.withRoute
    split <;> exact hp
  | renewed _ e he => exact ⟨p, rfl, hp⟩
  | alternated p e he ht hb hodd => exact ⟨_, rfl, hp⟩
  | sleptAlternated p e he ht hb heven hs => exact ⟨_, rfl, hp⟩

/-- After a failure it is the other side's turn, unless the budget is renewed. -/
theorem sides_alternate {p : PairPlan} {e : Error} (h : r.Before x r') (hp : r.plan = .pair p)
    (ha : roundAttempt x r.plan r.run = (.ok (.failed e), mid)) (he : ¬ mid.Renews e) :
    ∃ p', r'.plan = .pair p' ∧ p'.onPartner = (!p.onPartner) ∧ p'.partner = p.partner := by
  obtain ⟨ended, mid', ha', hc⟩ := before_cases h
  rw [ha] at ha'
  cases ha'
  obtain ⟨plan, run⟩ := r
  obtain ⟨plan', run'⟩ := r'
  cases hp
  cases hc with
  | renewed _ e he' => exact absurd he' he
  | alternated _ _ => exact ⟨_, rfl, rfl, rfl⟩
  | sleptAlternated _ _ => exact ⟨_, rfl, rfl, rfl⟩

end LoginM

namespace LoginStart

variable {s : LoginStart} {server : Server σ} {attempts : Nat} {w : World σ} {r r' : RoundStart σ}

/-- What a data source stands for in a login. -/
def targetOf (s : LoginStart) (w : World σ) (source : DataSource) : Except Error Target :=
  (Target.resolve s.config true (s.begun w).base.aliases source).map Prod.fst

theorem aliases_of_mem_course (h : r ∈ s.course server attempts w) :
    AliasCache.Grown s.config (s.begun w).base.aliases r.run.base.aliases :=
  course_induction (P := fun r => AliasCache.Grown s.config (s.begun w).base.aliases r.run.base.aliases)
    (fun _ _ => .refl _) (fun _ _ hr hbefore => hr.trans (LoginM.aliases_of_before hbefore)) h

theorem hasPartner_of_mem_course {partner : DataSource} (hpartner : s.config.partner = some partner)
    (h : r ∈ s.course server attempts w) : r.plan.HasPartner partner := by
  refine course_induction (P := fun r => r.plan.HasPartner partner) ?_
    (fun _ _ hr hbefore => LoginM.hasPartner_of_before hbefore hr) h
  intro plan hplan
  rw [LoginM.firstPlan_apply, hpartner] at hplan
  rcases hslice : (s.begun w).budget.slice with o | slice <;> rw [hslice] at hplan <;> cases hplan
  exact ⟨_, rfl, rfl⟩

theorem unrouted_of_mem_course (h : r ∈ s.course server attempts w) (hr : r.run.redirects = 0) :
    r.plan.Unrouted := by
  refine course_induction (P := fun r => r.run.redirects = 0 → r.plan.Unrouted) ?_ ?_ h hr
  · intro plan hplan _
    rw [LoginM.firstPlan_apply] at hplan
    rcases hslice : (s.begun w).budget.slice with o | slice <;> rw [hslice] at hplan
    · cases hplan
    · rcases hpartner : s.config.partner with _ | partner <;> rw [hpartner] at hplan <;> cases hplan
      · rfl
      · exact ⟨rfl, rfl⟩
  · intro r r' hr hbefore hr'
    exact LoginM.unrouted_of_before hbefore hr hr'

/-- What a data source stands for does not depend on what has been looked up before. -/
theorem targetOf_of_resolve {run : LoginRun σ} {source : DataSource} {target : Target}
    (haliases : AliasCache.Grown s.config (s.begun w).base.aliases run.base.aliases)
    (h : (LoginM.resolve s.config source run).1 = .ok target) : s.targetOf w source = .ok target := by
  unfold targetOf
  rw [← haliases.resolve_eq source]
  rw [LoginM.resolve_apply] at h
  rcases hresolve : Target.resolve s.config true run.base.aliases source with e | ⟨found, aliases⟩ <;>
    rw [hresolve] at h <;> cases h
  rfl

/-- Where no redirect has been followed, an attempt goes to what its data source stands for, whatever has
been looked up before. -/
theorem source_of_connects {mid : LoginRun σ} {ended : Except Stop RoundEnd} {target : Target}
    {timeout : Option Span} (h : r ∈ s.course server attempts w) (hr : r.run.redirects = 0)
    (ha : LoginM.roundAttempt (s.context server) r.plan r.run = (ended, mid))
    (hc : Connects r.run mid target timeout) :
    ∃ source, r.plan.source s.config r.run.partner = .ok source ∧ s.targetOf w source = .ok target := by
  rcases LoginM.roundAttempt_connects ha with ⟨hsame, -⟩ | ⟨target', timeout', htarget, hc'⟩
  · have hconnects := hc.connects
    rw [hsame] at hconnects
    omega
  obtain ⟨rfl, rfl⟩ := hc.unique hc'
  rw [LoginM.roundTarget_apply, (unrouted_of_mem_course h hr).route] at htarget
  rcases hsource : r.plan.source s.config r.run.partner with e | source <;>
    rw [show r.plan.source (s.context server).config r.run.partner = _ from hsource] at htarget
  · cases htarget
  · exact ⟨source, rfl, targetOf_of_resolve (aliases_of_mem_course h) htarget⟩

end LoginStart

/-- When an attempt of a login with a partner fails and the login goes on, without a redirect or a renewal
of its budget, the other side gets its turn. One of the two attempts goes to the primary, the other to what
is the partner when it is made: the partner that a server has named last, or else that of the options. So
their hosts differ exactly if those two do. -/
theorem hosts_differ_iff {server : Server σ} {attempts : Nat} {s : LoginStart} {w : World σ}
    {r r' : RoundStart σ} {configured : DataSource} {e : Error} {mid : LoginRun σ} {target target' : Target}
    {timeout timeout' : Option Span} (hpartner : s.config.partner = some configured)
    (h : [r, r'] <:+: s.course server attempts w)
    (ha : LoginM.roundAttempt (s.context server) r.plan r.run = (.ok (.failed e), mid))
    (he : ¬ mid.Renews e) (hredirects : r'.run.redirects = 0) (hc : Connects r.run mid target timeout)
    (hc' : Connects r'.run (LoginM.roundAttempt (s.context server) r'.plan r'.run).2 target' timeout') :
    ∃ p p' source primary partner, r.plan = .pair p ∧ r'.plan = .pair p' ∧ p'.onPartner = (!p.onPartner) ∧
      partnerSource configured (if p.onPartner then r.run.partner else r'.run.partner) = .ok source ∧
      s.targetOf w s.config.server = .ok primary ∧ s.targetOf w source = .ok partner ∧
      (target, target') = (if p.onPartner then (partner, primary) else (primary, partner)) ∧
      (target'.host ≠ target.host ↔ partner.host ≠ primary.host) := by
  have hr : r ∈ s.course server attempts w := h.subset List.mem_cons_self
  have hr' : r' ∈ s.course server attempts w := h.subset (List.mem_cons_of_mem _ List.mem_cons_self)
  have hbefore := LoginStart.before_of_adjacent h
  obtain ⟨p, hp, hconfigured⟩ := LoginStart.hasPartner_of_mem_course hpartner hr
  obtain ⟨p', hp', hturn, hconfigured'⟩ := LoginM.sides_alternate hbefore hp ha he
  have hredirects₀ : r.run.redirects = 0 := Nat.le_zero.mp (hredirects ▸ LoginM.redirects_of_before hbefore)
  -- the partner is looked up anew in each round, the primary is always that of the options
  obtain ⟨source, hsource, htarget⟩ := LoginStart.source_of_connects hr hredirects₀ ha hc
  obtain ⟨source', hsource', htarget'⟩ := LoginStart.source_of_connects hr' hredirects rfl hc'
  rw [hp, LoginPlan.source_pair, hconfigured] at hsource
  rw [hp', LoginPlan.source_pair, hconfigured', hconfigured, hturn] at hsource'
  refine ⟨p, p', ?_⟩
  rcases hside : p.onPartner with _ | _ <;> rw [hside] at hsource hsource' hturn
  · cases hsource
    exact ⟨source', target, target', hp, hp', hturn, hsource', htarget, htarget', rfl, Iff.rfl⟩
  · cases hsource'
    exact ⟨source, target', target, hp, hp', hturn, hsource, htarget', htarget, rfl, ne_comm⟩

/-- A login that has a second, for a host and its partner. -/
def pairedLogin : LoginStart where
  config := { server := .ofHost "primary", partner := some (.ofHost "mirror"), timeout := Span.ofSeconds 1 }

/-- A world that lets nobody in. -/
def closedWorld : World LoginScript := { server := {} }

/-- The first round of the paired login there, the state in which its attempt ends, and the second round. -/
def firstTurn : RoundStart LoginScript where
  plan := .pair
    { partner := .ofHost "mirror"
      slice := 80000000
      backoff := pairedLogin.config.retry.backoff
      onPartner := false }
  run := pairedLogin.begun closedWorld

def firstTurnEnd : LoginRun LoginScript :=
  (LoginM.roundAttempt (pairedLogin.context (LineFaults.server {})) firstTurn.plan firstTurn.run).2

def secondTurn : RoundStart LoginScript where
  plan := .pair
    { partner := .ofHost "mirror"
      slice := 80000000
      backoff := pairedLogin.config.retry.backoff
      onPartner := true
      failed := 1 }
  run := firstTurnEnd

/-- The partner has its turn if the primary refuses. -/
theorem closedWorld_turns : ∃ primary partner : Target,
    pairedLogin.targetOf closedWorld (.ofHost "primary") = .ok primary ∧
      pairedLogin.targetOf closedWorld (.ofHost "mirror") = .ok partner ∧
      (partner.host ≠ primary.host ↔ "mirror" ≠ "primary") := by
  let x := pairedLogin.context (LineFaults.server {})
  let primary : Target := ⟨"primary", "primary", none, none, none, some "MSSQLSvc/primary", none, none⟩
  let mirror : Target := ⟨"mirror", "mirror", none, none, none, some "MSSQLSvc/mirror", none, none⟩
  have hcourse : [firstTurn, secondTurn] <:+: pairedLogin.course (LineFaults.server {}) 2 closedWorld := by
    have hlist : pairedLogin.course (LineFaults.server {}) 2 closedWorld = [firstTurn, secondTurn] := by rfl
    exact hlist ▸ List.infix_refl _
  have hfailed : (LoginM.roundAttempt x firstTurn.plan firstTurn.run).1 =
      .ok (.failed (.io "connection to primary refused by script")) := by rfl
  have htoken : firstTurnEnd.tokenRetry = .notStarted := by decide +kernel
  have hrenews : ¬ firstTurnEnd.Renews (.io "connection to primary refused by script") := by
    rintro ⟨h, -⟩
    rw [htoken] at h
    cases h
  have hfirst : Connects firstTurn.run firstTurnEnd primary (some 80000000) :=
    ⟨by rfl, [], by rfl, fun _ h => nomatch h⟩
  have hsecond : Connects secondTurn.run (LoginM.roundAttempt x secondTurn.plan secondTurn.run).2 mirror
      (some 80000000) :=
    ⟨by rfl, [], by rfl, fun _ h => nomatch h⟩
  obtain ⟨p, p', source, primary', partner', hp, -, -, hsource, hprimary, hpartner, htargets, hdiffer⟩ :=
    hosts_differ_iff rfl hcourse (Prod.ext hfailed rfl) hrenews (by rfl) hfirst hsecond
  cases hp
  cases hsource
  cases htargets
  exact ⟨primary, mirror, hprimary, hpartner, hdiffer⟩

/-! ## The same host twice -/

/-- Nobody listens on the primary at first. The partner names the primary as its partner and is busy then;
after that nobody listens anywhere. -/
def returningMirror : LoginScript where
  queue :=
    [.refuse, .respond [.textChange .mirroringPartner "primary" "", .error 40613 14 "busy", .doneError] false]

/-- After the partner has named it, the primary is tried in both turns, and the partner never again. -/
theorem same_host_twice :
    (login (LineFaults.server {}) 6 pairedLogin { server := returningMirror }).2.world.connections.map
        (fun c => c.2.1) = ["primary", "mirror", "primary", "primary", "primary", "primary"] := by
  decide +kernel

end TdsSession
