import TdsSession.Proofs.Login.Acknowledged
import TdsSession.Proofs.Login.Isolation

/-!
# Sessions with a failover partner

A failover partner may be in the options, and a server may name one. The rules
about partners are looked at in four places: before the first attempt, when a
failure makes a server's partner the second host, when the partner lets the
client in, and when the session is there. Together they cover every way in
which a session is opened (`opened_by_partner_rules`): with many addresses for
one host no round of the login is the partner's turn
(`LoginStart.single_of_mem_course`), and every session that is given has passed
the last check (`LoginStart.partnerConflict?_of_login`).
-/

namespace TdsSession

variable {σ : Type}

/-! ## The last check -/

/-- A session can be used with the partner that its server has named, if one host has one address and the partner can be
read from as far as that is asked for. -/
theorem Established.partnerConflict?_eq_none {e : Established} {c : Config} :
    e.partnerConflict? c = none ↔
      (e.partner.isSome → c.multiSubnet = false ∧ (c.readOnly = true → e.capabilities.readOnlyFailover = true)) := by
  unfold partnerConflict?
  rcases e.partner with _ | name
  · exact ⟨fun _ => nofun, fun _ => rfl⟩
  rcases c.multiSubnet with _ | _
  · rcases c.readOnly with _ | _
    · exact ⟨fun _ _ => ⟨rfl, nofun⟩, fun _ => rfl⟩
    rcases e.capabilities.readOnlyFailover with _ | _
    · exact ⟨nofun, fun h => nomatch (h rfl).2 rfl⟩
    · exact ⟨fun _ _ => ⟨rfl, fun _ => rfl⟩, fun _ => rfl⟩
  · exact ⟨nofun, fun h => nomatch (h rfl).1⟩

/-- Options that do not conflict name no partner where one host has many addresses. -/
theorem Config.partner_eq_none {c : Config} (hm : c.multiSubnet = true) (hx : c.partnersConflict = false) :
    c.partner = none := by
  unfold partnersConflict at hx
  rw [hm, Bool.true_and] at hx
  exact Option.isNone_iff_eq_none.mp (Option.isSome_eq_false_iff.mp hx)

namespace LoginM

variable {x : LoginContext σ} {plan : LoginPlan} {run run' : LoginRun σ}

/-- The session of a round is on the host whose turn it was, and a partner has named a partner itself. -/
theorem onPartner_of_round {e : Established} (h : round x plan run = (.ok (.opened e), run')) :
    e.onPartner = plan.onPartner ∧ (e.onPartner = true → e.partner.isSome) := by
  obtain ⟨ended, mid, ha, hs⟩ := Op.bind_eq_ok.mp h
  obtain ⟨e₀, -, rfl, -, -⟩ := settle_eq_opened hs
  obtain ⟨target, timeout, hconnects⟩ := connects_of_ok ha nofun
  obtain ⟨aliases, res, after, last, hleads, hexchange⟩ := roundAttempt_leads ha hconnects
  cases hleads
  obtain ⟨ack, response, t, -, -, -, -, rfl⟩ := hexchange.of_opened
  cases plan with
  | single p =>
    cases hs
    exact ⟨rfl, nofun⟩
  | pair p =>
    unfold settle acceptSession at hs
    dsimp only at hs
    split at hs <;> cases hs
    rename_i hsilent
    refine ⟨rfl, fun hpartner => Option.isSome_iff_ne_none.mpr fun hnone => hsilent ?_⟩
    rw [show p.onPartner = true from hpartner, Option.isNone_iff_eq_none.mpr hnone]
    rfl

end LoginM

namespace LoginStart

variable {s : LoginStart} {server : Server σ} {attempts : Nat} {w : World σ} {r : RoundStart σ} {e : Established}

/-- A login whose options conflict fails before it connects to anything. -/
theorem login_of_conflict (server : Server σ) (attempts : Nat) (w : World σ) (h : s.config.partnersConflict = true) :
    login server attempts s w =
      (.error (.failed (.invalidPartnerConfiguration partnerConfiguredReason)), { s.begun w with
        phase := .failedFatal
        world := (s.begun w).world.record
          (.ended (.failed (.invalidPartnerConfiguration partnerConfiguredReason))) }) := by
  rw [login_apply]
  unfold LoginM.establish
  simp only [show (s.context server).config.partnersConflict = true from h, if_true]
  rfl

/-- With many addresses for one host, every round of a login is one with a single host. -/
theorem single_of_mem_course (hm : s.config.multiSubnet = true) (h : r ∈ s.course server attempts w) :
    ∃ p, r.plan = .single p := by
  obtain ⟨-, hx, -, -⟩ := course_eq_of_mem h
  refine course_induction (P := fun r => ∃ p, r.plan = .single p) (fun plan hplan => ?_) (fun r r' hr hbefore => ?_) h
  · rw [LoginM.firstPlan_apply, Config.partner_eq_none hm hx] at hplan
    rcases hb : (s.begun w).budget.slice with o | slice <;> rw [hb] at hplan <;> cases hplan
    exact ⟨_, rfl⟩
  · obtain ⟨p, hp⟩ := hr
    obtain ⟨ended, mid, -, hc⟩ := LoginM.before_cases hbefore
    rw [hp] at hc
    generalize r'.plan = plan', r'.run = run' at hc
    cases hc with
    | routed target => exact ⟨_, rfl⟩
    | renewed e he => exact ⟨_, rfl⟩
    | slept p e he ht hp hs => exact ⟨_, rfl⟩
    | switched p e he ht name hp hone partner hs slice hb =>
      rw [show s.config.multiSubnet = false from hone] at hm
      cases hm

/-- The session that a login gives has passed the last check. -/
theorem partnerConflict?_of_login (h : (login server attempts s w).1 = .ok e) : e.partnerConflict? s.config = none := by
  obtain ⟨r, hr, run', hround, -⟩ := login_eq_ok h
  rw [login_fst, establish_of_opened hr hround] at h
  cases hconflict : e.partnerConflict? s.config with
  | none => rfl
  | some conflict =>
    rw [hconflict] at h
    obtain ⟨stop, world, hrefuse, -⟩ := LoginM.refuse_apply e conflict run'
    dsimp only at h
    rw [hrefuse] at h
    cases h

/-- The server that a login has opened its session at has said last that its partner can be read from, if it can. -/
theorem readOnlyFailover_of_login (h : (login server attempts s w).1 = .ok e) :
    e.capabilities.readOnlyFailover =
      (readOnlyFailover? (received (sinceConnected (login server attempts s w).2.world.trace))).getD false := by
  obtain ⟨target, ack, res, -, -, -, -, hresponse, hcomes⟩ := comesOf_of_login h
  rw [hcomes.capabilities]
  exact (Response.takes_of_advanceAll hresponse).readOnlyFailover

end LoginStart

/-- However a session is opened, the partner that it is on has named a partner itself; if its server has named a partner,
one host has one address, and where the session is to be read-only the server has acknowledged that its partner can be
read from; and if one host has many addresses, there is no partner in the options and the session is not on one, nor has
any attempt of the login been the partner's turn. With a partner in the options it would have failed at once, without a
connection. -/
theorem opened_by_partner_rules (server : Server σ) (attempts : Nat) (s : LoginStart) (w : World σ) :
    (∀ e, (login server attempts s w).1 = .ok e →
      (e.onPartner = true → e.partner.isSome) ∧
      (e.partner.isSome → s.config.multiSubnet = false ∧
        (s.config.readOnly = true → e.capabilities.readOnlyFailover = true ∧
          readOnlyFailover? (received (sinceConnected (login server attempts s w).2.world.trace)) = some true)) ∧
      (s.config.multiSubnet = true → s.config.partner = none ∧ e.onPartner = false ∧
        ∀ r ∈ s.course server attempts w, r.plan.onPartner = false)) ∧
    (s.config.multiSubnet = true → s.config.partner.isSome →
      (login server attempts s w).1 = .error (.failed (.invalidPartnerConfiguration partnerConfiguredReason)) ∧
        (login server attempts s w).2.world.connects = w.connects) := by
  refine ⟨fun e he => ?_, fun hm hpartner => ?_⟩
  · obtain ⟨r, hr, run', hround, -⟩ := LoginStart.login_eq_ok he
    obtain ⟨hturn, hnamed⟩ := LoginM.onPartner_of_round hround
    have hchecked := Established.partnerConflict?_eq_none.mp (LoginStart.partnerConflict?_of_login he)
    refine ⟨hnamed, fun hpartner => ?_, fun hm => ?_⟩
    · obtain ⟨hone, hreadable⟩ := hchecked hpartner
      refine ⟨hone, fun hreadOnly => ⟨hreadable hreadOnly, ?_⟩⟩
      have hsaid := LoginStart.readOnlyFailover_of_login he
      rw [hreadable hreadOnly] at hsaid
      exact Option.getD_eq_iff.mp hsaid.symm |>.resolve_right nofun
    · have hsingle : ∀ r ∈ s.course server attempts w, r.plan.onPartner = false := by
        intro r hr
        obtain ⟨p, hp⟩ := LoginStart.single_of_mem_course hm hr
        rw [hp]
        rfl
      obtain ⟨-, hx, -, -⟩ := LoginStart.course_eq_of_mem hr
      exact ⟨Config.partner_eq_none hm hx, hturn.trans (hsingle r hr), hsingle⟩
  · have hx : s.config.partnersConflict = true := Bool.and_eq_true_iff.mpr ⟨hm, hpartner⟩
    rw [LoginStart.login_of_conflict server attempts w hx]
    exact ⟨rfl, rfl⟩

/-- A login for two hosts that is only going to read. -/
def readingLogin : LoginStart := { config := { mirroredLogin.config with readOnly := true } }

/-- Two hosts of which the first is not there; the second can be read from, and names the first as its partner. -/
def readableWorld : World LoginScript where
  server :=
    { queue := [.refuse]
      fallback := .success [.featureExtAck [⟨Feature.azureSqlSupport.id, [1]⟩],
        .textChange .mirroringPartner "primary" ""] }

/-- The session is on the partner. With many addresses for the first host, there would be no connection. -/
theorem readableWorld_by_rules :
    (∃ e, (login (LineFaults.server {}) 2 readingLogin readableWorld).1 = .ok e ∧ e.onPartner = true ∧
      e.partner.isSome ∧ e.capabilities.readOnlyFailover = true ∧
      readOnlyFailover? (received (sinceConnected
        (login (LineFaults.server {}) 2 readingLogin readableWorld).2.world.trace)) = some true) ∧
    (login (LineFaults.server {}) 2 { config := { readingLogin.config with multiSubnet := true } } readableWorld).1 =
      .error (.failed (.invalidPartnerConfiguration partnerConfiguredReason)) := by
  refine ⟨?_, ((opened_by_partner_rules _ _ _ _).2 rfl rfl).1⟩
  have hok : (login (LineFaults.server {}) 2 readingLogin readableWorld).1.isOk := by decide +kernel
  have hon : ((login (LineFaults.server {}) 2 readingLogin readableWorld).1.toOption.map (·.onPartner)) = some true := by
    decide +kernel
  rcases he : (login (LineFaults.server {}) 2 readingLogin readableWorld).1 with t | e
  · rw [he] at hok
    cases hok
  rw [he] at hon
  obtain ⟨hnamed, hreadable, -⟩ := (opened_by_partner_rules (LineFaults.server {}) 2 readingLogin readableWorld).1 e he
  have hpartner : e.onPartner = true := Option.some.inj hon
  obtain ⟨hcapable, hsaid⟩ := (hreadable (hnamed hpartner)).2 rfl
  exact ⟨e, rfl, hpartner, hnamed hpartner, hcapable, hsaid⟩

end TdsSession
