import TdsSession.Proofs.Login.Alternation
import TdsSession.Proofs.Login.History
import TdsSession.Proofs.Login.Rejection

/-!
# Redirects

A login follows redirects on either side of a pair, and remembers them per side.
Wherever it connects, it got there from one of its hosts by hops that the trace
shows (`RoundStart.Oriented`): the response over one connection names the target
of the next. The redirects of a login are counted together, and a target that
cannot be connected to ends it.
-/

namespace TdsSession

open Relation (ReflTransGen)

variable {σ : Type}

/-! ## Hops -/

/-- Where a hop leads from `source` if the server there sends the login on to `next`. -/
structure Hop (c : Config) (source : Target) (next : Routing) (target : Target) : Prop where
  server : next.server ≠ ""
  protocol : next.protocol = 0
  port : next.port ≠ 0
  host : target.host = next.server
  targetPort : target.port = some next.port
  transport : target.transport = some .tcp
  spn : target.spn = source.spn
  routedFrom : target.routedFrom = some source.host
  database : target.database = next.database.or c.database

/-- The events show that the server at `source` has sent the login on to `target`: what is heard over the
connection to `source` is a whole response, and `target` is what it names last. -/
def SendsOn (c : Config) (events : List (Moment × Event)) (source target : Target) : Prop :=
  ∃ t n timeout heard earlier next, heard ++ (t, .connected n source timeout) :: earlier <:+ events ∧
    (∀ e ∈ heard, e.2.over n) ∧ Answered heard ∧ sentTo? heard = some next ∧ Hop c source next target

theorem Routing.valid_of_validate {next : Routing} (h : next.validate = .ok ()) :
    next.server ≠ "" ∧ next.protocol = 0 ∧ next.port ≠ 0 := by
  unfold validate fault? at h
  split at h
  · cases h
  rename_i hnone
  split at hnone
  · cases hnone
  rename_i hserver
  split at hnone
  · cases hnone
  rename_i hprotocol
  split at hnone
  · cases hnone
  rename_i hport
  exact ⟨fun h => hserver (String.isEmpty_iff.mpr h), not_not.mp hprotocol, hport⟩

theorem Routing.invalid_of_validate {next : Routing} {e : ProtocolError} (h : next.validate = .error e) :
    ∃ fault, e = .invalidRouting fault := by
  unfold validate at h
  split at h <;> cases h
  exact ⟨_, rfl⟩

theorem Hop.of_validate {c : Config} {source : Target} {next : Routing} (h : next.validate = .ok ()) :
    Hop c source next (.ofRouting c next source.host source.spn) := by
  obtain ⟨hserver, hprotocol, hport⟩ := Routing.valid_of_validate h
  exact ⟨hserver, hprotocol, hport, rfl, rfl, rfl, rfl, rfl, rfl⟩

theorem SendsOn.mono {c : Config} {old new : List (Moment × Event)} (h : old <:+ new) {source target : Target}
    (hsends : SendsOn c old source target) : SendsOn c new source target := by
  obtain ⟨t, n, timeout, heard, earlier, next, hsuffix, hrest⟩ := hsends
  exact ⟨t, n, timeout, heard, earlier, next, hsuffix.trans h, hrest⟩

/-- All targets of a chain of hops are reached as the same service. -/
theorem spn_of_chain {c : Config} {events : List (Moment × Event)} {first target : Target}
    (h : ReflTransGen (SendsOn c events) first target) : target.spn = first.spn := by
  induction h with
  | refl => rfl
  | tail _ hsends ih =>
    obtain ⟨t, n, timeout, heard, earlier, next, -, -, -, -, hhop⟩ := hsends
    exact hhop.spn.trans ih

namespace LoginStart

/-- The data sources that a login may go to by itself, after the events that are given. -/
inductive IsHost (s : LoginStart) (events : List (Moment × Event)) : DataSource → Prop
  | primary : IsHost s events s.config.server
  | configured {partner : DataSource} (h : s.config.partner = some partner) : IsHost s events partner
  /-- A server has named the partner. -/
  | named {e : Moment × Event} {name : String} {partner : DataSource} (he : e ∈ events)
      (hname : e.2.partner? = some name) (hparse : DataSource.parse name.toList = .ok partner) :
      IsHost s events partner

/-- A target is what a host stands for, or a chain of hops leads there from it. -/
def Reaches (s : LoginStart) (w : World σ) (events : List (Moment × Event)) (target : Target) : Prop :=
  ∃ source first, s.IsHost events source ∧ s.targetOf w source = .ok first ∧
    ReflTransGen (SendsOn s.config events) first target

section

variable {s : LoginStart} {w : World σ} {old new : List (Moment × Event)} {target target' : Target}

theorem IsHost.mono (h : old <:+ new) {source : DataSource} (hhost : s.IsHost old source) : s.IsHost new source := by
  cases hhost with
  | primary => exact .primary
  | configured hpartner => exact .configured hpartner
  | named he hname hparse => exact .named (h.subset he) hname hparse

theorem Reaches.mono (h : old <:+ new) (hreaches : s.Reaches w old target) : s.Reaches w new target := by
  obtain ⟨source, first, hhost, hfirst, hchain⟩ := hreaches
  exact ⟨source, first, hhost.mono h, hfirst, hchain.lift id fun _ _ => SendsOn.mono h⟩

theorem Reaches.hop (hreaches : s.Reaches w old target) (hsends : SendsOn s.config old target target') :
    s.Reaches w old target' := by
  obtain ⟨source, first, hhost, hfirst, hchain⟩ := hreaches
  exact ⟨source, first, hhost, hfirst, hchain.tail hsends⟩

end

end LoginStart

/-- A redirect that the plan remembers, for either side. -/
def LoginPlan.HasRoute (target : Target) : LoginPlan → Prop
  | .single p => p.routed = some target
  | .pair p => p.primaryRoute = some target ∨ p.partnerRoute = some target

namespace LoginPlan

variable {plan : LoginPlan} {target target' : Target}

theorem hasRoute_of_route (h : plan.route = some target) : plan.HasRoute target := by
  cases plan with
  | single p => exact h
  | pair p =>
    unfold route PairPlan.route at h
    dsimp only at h
    split at h
    · exact .inr h
    · exact .inl h

theorem hasPartner_of_withRoute {partner : DataSource} (h : (plan.withRoute target').HasPartner partner) :
    plan.HasPartner partner := by
  obtain ⟨p', hp', hpartner⟩ := h
  cases plan with
  | single p => cases hp'
  | pair p =>
    obtain rfl := LoginPlan.pair.inj hp'
    refine ⟨p, rfl, ?_⟩
    rw [← hpartner]
    unfold PairPlan.withRoute
    split <;> rfl

theorem hasRoute_of_withRoute (h : (plan.withRoute target').HasRoute target) :
    target = target' ∨ plan.HasRoute target := by
  cases plan with
  | single p => exact .inl (Option.some.inj h).symm
  | pair p =>
    unfold withRoute PairPlan.withRoute at h
    dsimp only at h
    split at h
    · rcases h with h | h
      · exact .inr (.inl h)
      · exact .inl (Option.some.inj h).symm
    · rcases h with h | h
      · exact .inl (Option.some.inj h).symm
      · exact .inr (.inr h)

end LoginPlan

/-! ## Where the rounds go -/

namespace RoundStart

/-- A login knows at the start of a round who the partner is, and where the redirects that it remembers have
come from. -/
structure Oriented (s : LoginStart) (w : World σ) (r : RoundStart σ) : Prop where
  partner : r.run.partner = namedPartner? (sinceBegan r.run.world.trace)
  routes : ∀ target, r.plan.HasRoute target → s.Reaches w (sinceBegan r.run.world.trace) target
  partners : ∀ source, r.plan.HasPartner source → s.IsHost (sinceBegan r.run.world.trace) source

variable {s : LoginStart} {server : Server σ} {w : World σ} {r r' : RoundStart σ} {target : Target}

/-- A partner that has been named is one that a server has named. -/
theorem isHost_of_named {events : List (Moment × Event)} {name : String} {partner : DataSource}
    (h : namedPartner? events = some name) (hparse : DataSource.parse name.toList = .ok partner) :
    s.IsHost events partner := by
  obtain ⟨e, he, hname⟩ := List.exists_of_findSome?_eq_some h
  exact .named he hname hparse

/-- A round goes to a host, or to where a redirect has led. -/
theorem Oriented.reaches (h : r.Oriented s w)
    (haliases : AliasCache.Grown s.config (s.begun w).base.aliases r.run.base.aliases)
    (htarget : (LoginM.roundTarget (s.context server) r.plan r.run).1 = .ok target) :
    s.Reaches w (sinceBegan r.run.world.trace) target := by
  rw [LoginM.roundTarget_apply] at htarget
  rcases hroute : r.plan.route with _ | next <;> rw [hroute] at htarget
  · rcases hsource : r.plan.source s.config r.run.partner with e | source <;>
      rw [show r.plan.source (s.context server).config r.run.partner = _ from hsource] at htarget
    · cases htarget
    refine ⟨source, target, ?_, LoginStart.targetOf_of_resolve haliases htarget, .refl⟩
    rcases hplan : r.plan with p | p <;> rw [hplan] at hsource
    · cases hsource
      exact .primary
    · rw [LoginPlan.source_pair] at hsource
      split at hsource
      · rcases hnamed : r.run.partner with _ | name <;> rw [hnamed] at hsource
        · cases hsource
          exact h.partners p.partner ⟨p, hplan, rfl⟩
        · exact isHost_of_named (h.partner.symm.trans hnamed) hsource
      · cases hsource
        exact .primary
  · cases htarget
    exact h.routes target (LoginPlan.hasRoute_of_route hroute)

end RoundStart

namespace LoginM

variable {x : LoginContext σ} {plan plan' : LoginPlan} {run mid run' : LoginRun σ} {ended : RoundEnd}
  {r r' : RoundStart σ}

/-- A round that goes on has connected, and is over then: what follows its attempt names nobody. -/
theorem connects_of_continues (ha : roundAttempt x plan run = (.ok ended, mid))
    (hc : Continues x mid plan ended plan' run') : ∃ target timeout, Connects run mid target timeout := by
  refine connects_of_ok ha ?_
  rintro m rfl
  have hfinal (ht : (Error.authentication (.unsupportedMethod m.toText)).isTransient) : False := by
    cases ht
  cases hc with
  | renewed _ e he => cases he.2
  | slept p e he ht => exact hfinal ht
  | switched p e he ht => exact hfinal ht
  | alternated p e he ht => exact hfinal ht
  | sleptAlternated p e he ht => exact hfinal ht

/-- What follows an attempt is not heard from a server. -/
theorem grows_of_continues (hc : Continues x mid plan ended plan' run') :
    run'.partner = mid.partner ∧
      Grows (fun e => e.ReadsNothing ∧ e ≠ .began) mid.world.trace run'.world.trace := by
  cases hc with
  | routed | switched | alternated => exact ⟨rfl, .refl _⟩
  | renewed | slept | sleptAlternated => exact ⟨rfl, .cons ⟨⟨rfl, nofun⟩, nofun⟩ _⟩

/-- A plan remembers the redirects of the plan before it, and the one that has just been followed. -/
theorem hasRoute_of_continues {target : Target} (hc : Continues x mid plan ended plan' run')
    (h : plan'.HasRoute target) : ended = .routed target ∨ plan.HasRoute target := by
  cases hc with
  | routed _ next =>
    rcases LoginPlan.hasRoute_of_withRoute h with rfl | h
    · exact .inl rfl
    · exact .inr h
  | renewed => exact .inr h
  | slept => exact .inr h
  | switched => rcases h with h | h <;> cases h
  | alternated => exact .inr h
  | sleptAlternated => exact .inr h

/-- The partner in a plan is that of the plan before it, or the one that a server has named. -/
theorem hasPartner_of_continues {partner : DataSource} (hc : Continues x mid plan ended plan' run')
    (h : plan'.HasPartner partner) :
    plan.HasPartner partner ∨ ∃ name, mid.partner = some name ∧ DataSource.parse name.toList = .ok partner := by
  cases hc with
  | routed _ next => exact .inl (LoginPlan.hasPartner_of_withRoute h)
  | renewed => exact .inl h
  | slept =>
    obtain ⟨p, hp, -⟩ := h
    cases hp
  | switched p e he ht name hname hm source hparse =>
    obtain ⟨p, hp, rfl⟩ := h
    cases hp
    exact .inr ⟨name, hname, hparse⟩
  | alternated p =>
    obtain ⟨p', hp, rfl⟩ := h
    cases hp
    exact .inl ⟨p, rfl, rfl⟩
  | sleptAlternated p =>
    obtain ⟨p', hp, rfl⟩ := h
    cases hp
    exact .inl ⟨p, rfl, rfl⟩

/-- A redirect that is followed is one that the server at the target of the round has sent the login on by. -/
theorem sendsOn_of_routed {source target : Target} {timeout : Option Span}
    (ha : roundAttempt x plan run = (.ok (.routed target), mid)) (hc : Connects run mid source timeout) :
    SendsOn x.config (sinceBegan mid.world.trace) source target := by
  obtain ⟨aliases, res, after, last, hleads, hexchange⟩ := roundAttempt_leads ha hc
  cases hleads with
  | routed next hlimit hb =>
    obtain ⟨hanswered, hnext, hvalid⟩ := hexchange.of_routed
    exact ⟨run.world.now, run.world.connects + 1, timeout, sinceConnected mid.world.trace,
      sinceBegan run.world.trace, next, hc.sinceBegan_eq ▸ List.suffix_refl _,
      fun e he => hc.over_of_mem_sinceConnected he, hanswered, hnext, .of_validate hvalid⟩

/-- What the events of this login say of the partner is what a round remembers. -/
theorem partner_of_attempt {res : Except Stop RoundEnd} {source : Target} {timeout : Option Span}
    (ha : roundAttempt x plan run = (res, mid)) (hc : Connects run mid source timeout)
    (hrun : run.partner = namedPartner? (sinceBegan run.world.trace)) :
    mid.partner = namedPartner? (sinceBegan mid.world.trace) := by
  obtain ⟨aliases, res, after, -, -, -, hpartner, -, -⟩ := roundAttempt_exchange ha hc
  rw [hpartner, hrun, hc.sinceBegan_eq, namedPartner?_append]
  rfl

end LoginM

namespace LoginStart

variable {s : LoginStart} {server : Server σ} {attempts : Nat} {w : World σ} {r r' : RoundStart σ}

/-- A round hands on what the login knows, with what has been heard in it. -/
theorem oriented_of_before
    (haliases : AliasCache.Grown s.config (s.begun w).base.aliases r.run.base.aliases)
    (h : r.Before (s.context server) r') (horiented : r.Oriented s w) : r'.Oriented s w := by
  obtain ⟨ended, mid, ha, hc⟩ := LoginM.before_cases h
  obtain ⟨source, timeout, hconnects⟩ := LoginM.connects_of_continues ha hc
  obtain ⟨hkept, hafter⟩ := LoginM.grows_of_continues hc
  have hmid := LoginM.partner_of_attempt ha hconnects horiented.partner
  have hbefore : sinceBegan r.run.world.trace <:+ sinceBegan mid.world.trace := by
    rw [hconnects.sinceBegan_eq]
    exact (List.suffix_cons ..).trans (List.suffix_append ..)
  have hgrown := sinceBegan_grows hafter
  obtain ⟨aliases, res, after, htarget, -⟩ := LoginM.roundAttempt_exchange ha hconnects
  have hsource : s.Reaches w (sinceBegan mid.world.trace) source :=
    (horiented.reaches haliases htarget).mono hbefore
  refine ⟨?_, ?_, ?_⟩
  · obtain ⟨added, hadded, hquiet⟩ := hgrown
    rw [hkept, hmid, hadded, namedPartner?_append, namedPartner?_eq_none hquiet, Option.none_or]
  · intro target hroute
    rcases LoginM.hasRoute_of_continues hc hroute with rfl | hroute
    · exact (hsource.hop (LoginM.sendsOn_of_routed ha hconnects)).mono hgrown.suffix
    · exact (horiented.routes target hroute).mono (hbefore.trans hgrown.suffix)
  · intro partner hpartner
    rcases LoginM.hasPartner_of_continues hc hpartner with hpartner | ⟨name, hname, hparse⟩
    · exact (horiented.partners partner hpartner).mono (hbefore.trans hgrown.suffix)
    · exact (RoundStart.isHost_of_named (hmid.symm.trans hname) hparse).mono hgrown.suffix

theorem oriented_first {plan : LoginPlan} (h : LoginM.firstPlan s.config (s.begun w) = (.ok plan, s.begun w)) :
    RoundStart.Oriented s w ⟨plan, s.begun w⟩ := by
  rw [LoginM.firstPlan_apply] at h
  rcases hslice : (s.begun w).budget.slice with o | slice <;> rw [hslice] at h
  · cases h
  rcases hpartner : s.config.partner with _ | partner <;> rw [hpartner] at h <;> cases h
  · refine ⟨rfl, ?_, ?_⟩
    · rintro target ⟨⟩
    · rintro source ⟨p, hp, -⟩
      cases hp
  · refine ⟨rfl, ?_, ?_⟩
    · rintro target (hroute | hroute) <;> cases hroute
    · rintro source ⟨p, hp, rfl⟩
      cases hp
      exact .configured hpartner

theorem oriented_of_mem_course (h : r ∈ s.course server attempts w) : r.Oriented s w :=
  (course_induction (P := fun r =>
      AliasCache.Grown s.config (s.begun w).base.aliases r.run.base.aliases ∧ r.Oriented s w)
    (fun _ hplan => ⟨.refl _, oriented_first hplan⟩)
    (fun _ _ hr h => ⟨hr.1.trans (LoginM.aliases_of_before h), oriented_of_before hr.1 h hr.2⟩) h).2

end LoginStart

/-! ## The last redirect -/

/-- The attempt of a round is sent on to `next`. -/
def RoundStart.SentOn (x : LoginContext σ) (r : RoundStart σ) (next : Routing) : Prop :=
  ∃ target timeout aliases after, (LoginM.roundTarget x r.plan r.run).1 = .ok target ∧
    LoginM.attempt x.server (x.attempt target timeout r.run.world.now) (r.run.resolving aliases) =
      (.ok (.routed next), after) ∧
    LoginM.roundAttempt x r.plan r.run = LoginM.tryTarget x target timeout (r.run.resolving aliases)

namespace LoginM

variable {x : LoginContext σ} {plan : LoginPlan} {run mid : LoginRun σ}

/-- A redirect that the options do not allow, or no more, fails the attempt of its round. -/
theorem roundAttempt_of_sentOn {next : Routing} (h : RoundStart.SentOn x ⟨plan, run⟩ next)
    (hlimit : x.config.redirect.follow = false ∨ x.config.redirect.limit ≤ run.redirects) :
    ∃ mid, roundAttempt x plan run = (.ok (.failed (.routingLimitExceeded x.config.redirect.limit)), mid) ∧
      mid.world.connects = run.world.connects + 1 := by
  obtain ⟨target, timeout, aliases, after, -, hattempt, htry⟩ := h
  rcases attempt_frame hattempt with ⟨-, m, hm⟩ | hframe
  · cases hm
  have hdenied : x.config.redirect.follow = false ∨ x.config.redirect.limit ≤ after.redirects := by
    rw [hframe.redirects]
    exact hlimit
  refine ⟨after.finished target (.failed (.routingLimitExceeded x.config.redirect.limit)), ?_, hframe.connects⟩
  rw [htry, tryTarget_of_attempt hattempt]
  unfold afterAttempt
  dsimp only
  rw [followRedirect_of_limit target next hdenied]

end LoginM

namespace LoginStart

variable {s : LoginStart} {server : Server σ} {attempts : Nat} {w : World σ} {r : RoundStart σ}

/-- The redirects that have been followed before a round are those of the attempts before it. -/
theorem redirects_of_mem_course (h : r ∈ s.course server attempts w) :
    r.run.redirects = r.run.attempts.countP (·.routedTo.isSome) := by
  refine course_induction (P := fun r => r.run.redirects = r.run.attempts.countP (·.routedTo.isSome))
    (fun _ _ => rfl) (fun r r' hr hbefore => ?_) h
  obtain ⟨ended, mid, ha, hs⟩ := Op.bind_eq_ok.mp hbefore
  have hidles := (LoginM.settle_follows (s.context server) r.plan ended mid).idles
  rw [hs] at hidles
  obtain ⟨source, hattempts, hredirects, -⟩ := LoginM.roundAttempt_recorded ha
  rw [hidles.redirects, hidles.attempts, hattempts, hredirects, hr, List.countP_cons]

/-- The redirect after the last one that the options allow ends the login. -/
theorem login_of_sentOn {next : Routing} (h : r ∈ s.course server attempts w)
    (hsent : r.SentOn (s.context server) next)
    (hlimit : s.config.redirect.follow = false ∨
      s.config.redirect.limit ≤ r.run.attempts.countP (·.routedTo.isSome)) :
    (login server attempts s w).1 = .error (.failed (.routingLimitExceeded s.config.redirect.limit)) ∧
      (login server attempts s w).2.world.connects = r.run.world.connects + 1 := by
  rw [← redirects_of_mem_course h] at hlimit
  obtain ⟨mid, ha, hconnects⟩ := LoginM.roundAttempt_of_sentOn hsent hlimit
  obtain ⟨hfailed, hlast⟩ := login_of_final h ha rfl rfl
  exact ⟨hfailed, hlast.trans hconnects⟩

/-- A record that names a target that cannot be connected to ends the login. -/
theorem login_of_invalid {t : Moment} {n : Nat} {record : Record} {older : List (Moment × Event)} {next : Routing}
    {e : ProtocolError}
    (h : (t, .received n record) :: older <:+ (login server attempts s w).2.world.trace) (hnew : w.trace <:+ older)
    (hnext : record.routing? = some next) (hinvalid : next.validate = .error e) :
    (login server attempts s w).1 = .error (.failed (.protocol e)) ∧
      (login server attempts s w).2.world.connects = n := by
  obtain ⟨r, hr, ended, mid, target, timeout, earlier, ha, hc, hheard, -⟩ :=
    attempt_of_event (by rintro ⟨⟩) (by rintro ⟨⟩) (by rintro ⟨⟩) rfl h hnew
  have hmem : (t, .received n record) ∈ sinceConnected mid.world.trace := hheard.subset List.mem_cons_self
  obtain ⟨aliases, res, after, -, hattempt, htry, -, -, hexchange⟩ := LoginM.roundAttempt_exchange ha hc
  rw [hexchange.of_invalid hmem hnext hinvalid] at hattempt
  rw [LoginM.tryTarget_of_attempt hattempt] at htry
  cases htry
  obtain ⟨fault, rfl⟩ := Routing.invalid_of_validate hinvalid
  obtain ⟨hfailed, hlast⟩ := login_of_final hr ha rfl rfl
  refine ⟨hfailed, hlast.trans (hc.connects.trans ?_)⟩
  rcases hc.over_of_mem_sinceConnected hmem with hover | hover
  · exact hover.symm
  · cases hover

end LoginStart

/-- Wherever a login connects, it goes to what one of its hosts stands for, or hops have led there from such a
target, as the same service. No more redirects are followed than the options allow: the next one ends the login.
And so does a record that names a target that cannot be connected to, without another connection. -/
theorem redirects_followed (server : Server σ) (attempts : Nat) (s : LoginStart) (w : World σ) :
    (∀ t n target timeout older,
      (t, .connected n target timeout) :: older <:+ (login server attempts s w).2.world.trace → w.trace <:+ older →
      ∃ source first, s.IsHost (sinceBegan older) source ∧ s.targetOf w source = .ok first ∧
        ReflTransGen (SendsOn s.config (sinceBegan older)) first target ∧ target.spn = first.spn) ∧
    (login server attempts s w).2.attempts.countP (·.routedTo.isSome) ≤ s.config.redirect.limit ∧
    (∀ r ∈ s.course server attempts w, ∀ next, r.SentOn (s.context server) next →
      s.config.redirect.follow = false ∨
        s.config.redirect.limit ≤ r.run.attempts.countP (·.routedTo.isSome) →
      (login server attempts s w).1 = .error (.failed (.routingLimitExceeded s.config.redirect.limit)) ∧
        (login server attempts s w).2.world.connects = r.run.world.connects + 1) ∧
    ∀ t n record older next e,
      (t, .received n record) :: older <:+ (login server attempts s w).2.world.trace → w.trace <:+ older →
      record.routing? = some next → next.validate = .error e →
      (login server attempts s w).1 = .error (.failed (.protocol e)) ∧
        (Error.protocol e).kind = .invalidRoutingInfo ∧ (login server attempts s w).2.world.connects = n := by
  refine ⟨fun t n target timeout older hc hnew => ?_, ?_, fun r hr next => LoginStart.login_of_sentOn hr,
    fun t n record older next e hreceived hnew hnext hinvalid => ?_⟩
  · obtain ⟨r, hr, rfl, -, -, htarget⟩ := LoginStart.round_of_connected hc hnew
    obtain ⟨source, first, hhost, hfirst, hchain⟩ :=
      (LoginStart.oriented_of_mem_course hr).reaches (LoginStart.aliases_of_mem_course hr) htarget
    exact ⟨source, first, hhost, hfirst, hchain, spn_of_chain hchain⟩
  · rw [← LoginStart.redirects_eq]
    exact LoginStart.redirects_le server attempts s w
  · obtain ⟨fault, rfl⟩ := Routing.invalid_of_validate hinvalid
    obtain ⟨hfailed, hlast⟩ := LoginStart.login_of_invalid hreceived hnew hnext hinvalid
    exact ⟨hfailed, rfl, hlast⟩

/-- A login that follows one redirect. -/
def routedLogin : LoginStart := { config := { server := .ofHost "primary", redirect := { limit := 1 } } }

/-- Servers that send everybody on. -/
def sendingWorld : World LoginScript where
  server := { queue := [.routeTo "second" 1433], fallback := .routeTo "third" 1433 }

/-- The second server is reached as the service of the first, and the third is not reached. -/
theorem sendingWorld_followed :
    (login (LineFaults.server {}) 3 routedLogin sendingWorld).2.world.connections.map (fun c => c.2.1) =
        ["primary", "second"] ∧
      (login (LineFaults.server {}) 3 routedLogin sendingWorld).2.attempts.countP (·.routedTo.isSome) ≤ 1 ∧
      (∀ t n target timeout older,
        (t, .connected n target timeout) :: older <:+
          (login (LineFaults.server {}) 3 routedLogin sendingWorld).2.world.trace →
        ∃ source first, routedLogin.IsHost (sinceBegan older) source ∧
          routedLogin.targetOf sendingWorld source = .ok first ∧ target.spn = first.spn) ∧
      (login (LineFaults.server {}) 3 routedLogin sendingWorld).2.world.trace.head? =
        some (0, .ended (.failed (.routingLimitExceeded 1))) := by
  obtain ⟨hchains, hcount, -, -⟩ := redirects_followed (LineFaults.server {}) 3 routedLogin sendingWorld
  refine ⟨by decide +kernel, hcount, fun t n target timeout older h => ?_, by decide +kernel⟩
  obtain ⟨source, first, hhost, hfirst, -, hspn⟩ := hchains t n target timeout older h (List.nil_suffix)
  exact ⟨source, first, hhost, hfirst, hspn⟩

end TdsSession
