import TdsSession.Proofs.Connection.Recovery

/-!
# The aliases of a connection

A login looks aliases up with one cache from attempt to attempt, its session
keeps that cache, and a login that carries the session over goes on with it.
Nothing else touches it. So whatever happens to a connection, its cache is what
look-ups have made of an empty one (`Connection.Lives.looksUp`), and every
attempt connects to what it would connect to if no alias had been looked up
before it (`RoundStart.LooksUpAfresh`, `aliases_transparent`).
-/

namespace TdsSession

open Relation (ReflTransGen)
open Target (resolveAll resolveInPlace)

variable {σ : Type}

/-! ## The aliases of a login -/

namespace LoginM

variable {x : LoginContext σ} {plan : LoginPlan} {run : LoginRun σ}

theorem resolve_fst (c : Config) (source : DataSource) (run : LoginRun σ) :
    (resolve c source run).1 =
      ((Target.resolve c true run.base.aliases source).map Prod.fst).mapError Stop.failed := by
  rw [resolve_apply]
  rcases Target.resolve c true run.base.aliases source with e | ⟨target, aliases⟩ <;> rfl

/-- A round connects to what it would connect to with an empty cache. -/
theorem roundTarget_bare (h : AliasCache.Grown x.config [] run.base.aliases) :
    (roundTarget x plan run).1 = (roundTarget x plan { run with base := run.base.bare }).1 := by
  rw [roundTarget_apply, roundTarget_apply]
  rcases plan.route with _ | target
  · dsimp only
    rcases plan.source x.config run.partner with e | source
    · rfl
    · dsimp only
      rw [resolve_fst, resolve_fst, h.resolve_eq source]
      rfl
  · rfl

/-- A round that connects to nothing has looked nothing up. -/
theorem roundTarget_failed {run' : LoginRun σ} {t : Stop} (h : roundTarget x plan run = (.error t, run')) :
    run' = run := by
  rw [roundTarget_apply] at h
  rcases hroute : plan.route with _ | target <;> rw [hroute] at h <;> dsimp only at h
  · rcases hsource : plan.source x.config run.partner with e | source <;> rw [hsource] at h <;> dsimp only at h
    · cases h
      rfl
    · rw [resolve_apply] at h
      rcases hresolve : Target.resolve x.config true run.base.aliases source with e | ⟨target, aliases⟩ <;>
        rw [hresolve] at h <;> cases h
      rfl
  · cases h

end LoginM

/-- The cache of a round comes from look-ups alone. What the round connects to, or why it connects to nothing, is what
it would be with an empty cache; and if it connects to nothing, the login stays as it is. -/
structure RoundStart.LooksUpAfresh (x : LoginContext σ) (r : RoundStart σ) : Prop where
  after : AliasCache.After x.config [] r.run.base.aliases
  target : (LoginM.roundTarget x r.plan r.run).1 = (LoginM.roundTarget x r.plan { r.run with base := r.run.base.bare }).1
  failed : ∀ t run', LoginM.roundTarget x r.plan r.run = (.error t, run') → run' = r.run

namespace LoginStart

variable {s : LoginStart} {server : Server σ} {attempts : Nat} {w : World σ} {e : Established}

/-- The aliases of a session that a login has opened are what it has begun with, and what it has looked up. -/
theorem looksUp_of_login (h : (login server attempts s w).1 = .ok e) :
    AliasCache.After s.config (s.run w).base.aliases e.state.aliases := by
  obtain ⟨r, hr, mid, ack, res, e₀, ha, hopened, -⟩ := opened_in_course h
  rw [hopened.state, (Response.alters_of_advanceAll hopened.response).aliases]
  exact (looksUp_of_mem_course hr).trans ((LoginM.roundAttempt_looksUp _ _).of_eq ha)

/-- If a login begins with aliases from look-ups alone, so does each of its rounds. -/
theorem looksUpAfresh_of_mem_course {r : RoundStart σ} (h : AliasCache.After s.config [] (s.run w).base.aliases)
    (hr : r ∈ s.course server attempts w) : r.LooksUpAfresh (s.context server) :=
  have hafter := h.trans (looksUp_of_mem_course hr)
  ⟨hafter, LoginM.roundTarget_bare hafter.grown, fun _ _ => LoginM.roundTarget_failed⟩

end LoginStart

/-! ## The aliases of a connection -/

namespace ConnectionM

variable {server : Server σ} {attempts : Nat} {previous : SessionState} {run run' : ConnectionRun σ}
  {res : Except Stop Unit}

/-- The logins of a recovery leave the session as it is, but for one that has carried it over. -/
theorem relogins_looksUp {left : Nat} (h : relogins server attempts previous left run = (res, run')) :
    run'.connection.session = run.connection.session ∨
      AliasCache.After run.connection.config previous.aliases run'.connection.session.state.aliases := by
  induction left generalizing run with
  | zero =>
    cases h
    exact .inl rfl
  | succ left ih =>
    rcases relogins_succ_cases h with ⟨e, mid, hlogin, hresume⟩ | ⟨s, hlogin, rfl⟩ | ⟨e, mid, hlogin, -, h⟩
    · obtain ⟨-, s, hs, hprevious, after, hlogged, -⟩ := relogin_login hlogin
      have hlooksUp := LoginStart.looksUp_of_login (congrArg Prod.fst hlogged)
      have hsession := resume_session e mid
      rw [hresume] at hsession
      rw [LoginStart.run, hprevious, hs] at hlooksUp
      rw [hsession]
      exact .inr hlooksUp
    · exact .inl ((relogin_keeps server attempts previous).of_eq hlogin).session
    have hkept := ((relogin_keeps server attempts previous).of_eq hlogin).session
    have hconfig := (relogin_login hlogin).1
    rcases h with ⟨s, hs, rfl⟩ | ⟨later, hs, h⟩ <;> obtain ⟨-, hsame⟩ := inWorld_eq hs
    · exact .inl ((congrArg Connection.session hsame).trans hkept)
    · have hpaused : later.connection.config = run.connection.config := (congrArg Connection.config hsame).trans hconfig
      rcases ih h with hsession | hlooksUp
      · exact .inl (hsession.trans ((congrArg Connection.session hsame).trans hkept))
      · rw [hpaused] at hlooksUp
        exact .inr hlooksUp

theorem recover_looksUp (h : recover server attempts run = (res, run')) :
    AliasCache.After run.connection.config run.connection.session.state.aliases
      run'.connection.session.state.aliases := by
  rcases recover_cases h with ⟨e, -, -, rfl⟩ | ⟨-, -, t, rfl⟩ | ⟨-, after, hlogins, rfl⟩
  · exact .refl _
  · exact .refl _
  · rcases relogins_looksUp hlogins with hsession | hlooksUp
    · show AliasCache.After _ _ after.connection.session.state.aliases
      rw [hsession]
      exact .refl _
    · exact hlooksUp

end ConnectionM

namespace SessionState

variable {s s' : SessionState} {a : SessionAction}

theorem aliases_perform (ha : a.isUse) (h : s.perform a = .ok s') : s'.aliases = s.aliases := by
  have happly (token : StateToken) : (s.apply token).aliases = s.aliases :=
    (Alters.apply (Q := fun _ _ => True) (fun _ _ => trivial) s).aliases
  cases a with
  | record payload => exact ha.elim
  | rebase => exact ha.elim
  | carryOver => exact ha.elim
  | setAlias name target => exact ha.elim
  | apply token =>
    cases h
    exact happly token
  | applyBody body =>
    obtain ⟨⟨token, _⟩, -, h⟩ := Op.except_bind_eq_ok.mp h
    cases h
    exact happly token
  | reset =>
    cases h
    exact (Alters.reset (Q := fun _ _ => True) s).aliases
  | _ =>
    cases h
    rfl

/-- What the server or the client does to an open session leaves its aliases alone. -/
theorem aliases_act (ha : a.isUse) : (s.act a).1.aliases = s.aliases := by
  unfold act
  rcases h : s.perform a with e | s'
  · rfl
  · exact aliases_perform ha h

end SessionState

namespace Connection

/-- Anything happens to a connection, any number of times, while its options stay the same. -/
def Lives (c c' : Connection) : Prop := ReflTransGen (fun c c' => c.Step c' ∧ c'.config = c.config) c c'

theorem Step.looksUp {c c' : Connection} (h : c.Step c') :
    AliasCache.After c.config c.session.state.aliases c'.session.state.aliases := by
  cases h with
  | recovers h => exact ConnectionM.recover_looksUp h
  | acts _ ha =>
    rw [SessionState.aliases_act ha]
    exact .refl _
  | other h =>
    rw [h]
    exact .refl _

theorem Lives.looksUp {c c' : Connection} (h : c.Lives c') :
    c'.config = c.config ∧ AliasCache.After c.config c.session.state.aliases c'.session.state.aliases := by
  induction h with
  | refl => exact ⟨rfl, .refl _⟩
  | tail _ hstep ih =>
    have hlooksUp := hstep.1.looksUp
    rw [ih.1] at hlooksUp
    exact ⟨hstep.2.trans ih.1, ih.2.trans hlooksUp⟩

theorem looksUp_of_connect {server : Server σ} {attempts : Nat} {config : Config} {group : Group} {w : World σ}
    {c : Connection} (h : (connect server attempts config group w).1 = .ok c) :
    c.config = config ∧ AliasCache.After config [] c.session.state.aliases := by
  obtain ⟨e, hlogin, hconfig, hsession⟩ := connect_eq_ok h
  rw [hsession]
  exact ⟨hconfig, LoginStart.looksUp_of_login hlogin⟩

end Connection

/-- Look-ups that share a cache, empty at first, each come to what they come to with an empty cache. Under a host in
lower case the cache has what the options say about that host, and nothing else; and a look-up that fails leaves it as
it was. The same holds for the cache that a connection carries from attempt to attempt, and from login to login,
whatever happens to it. -/
theorem aliases_transparent (c : Config) :
    (∀ lookup source cache, resolveInPlace c lookup source cache = match Target.resolve c lookup cache source with
      | .error e => (.error e, cache)
      | .ok (target, cache') => (.ok target, cache')) ∧
    (∀ calls, (resolveAll c calls []).1 = calls.map (fun call => (resolveInPlace c call.1 call.2 []).1) ∧
      AliasCache.Faithful c (resolveAll c calls []).2) ∧
    (∀ lookup source cache e, (resolveInPlace c lookup source cache).1 = .error e →
      (resolveInPlace c lookup source cache).2 = cache) ∧
    (∀ {σ : Type} (server : Server σ) (attempts : Nat) (s : LoginStart) (w : World σ), s.config = c →
      s.previous = none → ∀ r ∈ s.course server attempts w, r.LooksUpAfresh (s.context server)) ∧
    ∀ {σ : Type} (server : Server σ) (attempts : Nat) (group : Group) (w : World σ) (c₀ c₁ : Connection),
      (Connection.connect server attempts c group w).1 = .ok c₀ → c₀.Lives c₁ →
      AliasCache.After c [] c₁.session.state.aliases ∧ AliasCache.Faithful c c₁.session.state.aliases ∧
      ∀ {τ : Type} (server' : Server τ) (attempts' : Nat) (s : LoginStart) (w' : World τ), s.config = c →
        s.previous = some c₁.session.state →
        ∀ r ∈ s.course server' attempts' w', r.LooksUpAfresh (s.context server') := by
  refine ⟨Target.resolveInPlace_apply c, fun calls => ⟨Target.resolveAll_fst c calls [], ?_⟩,
    fun lookup source cache e => Target.resolveInPlace_failed, ?_, ?_⟩
  · exact AliasCache.After.faithful ⟨calls, rfl⟩
  · rintro σ server attempts s w rfl hprevious r hr
    refine LoginStart.looksUpAfresh_of_mem_course ?_ hr
    rw [LoginStart.run, hprevious]
    exact .refl _
  · intro σ server attempts group w c₀ c₁ h₀ hlives
    obtain ⟨hconfig, hconnected⟩ := Connection.looksUp_of_connect h₀
    have hlived := hlives.looksUp.2
    rw [hconfig] at hlived
    have hafter := hconnected.trans hlived
    refine ⟨hafter, hafter.faithful, ?_⟩
    rintro τ server' attempts' s w' rfl hprevious r hr
    refine LoginStart.looksUpAfresh_of_mem_course ?_ hr
    rw [LoginStart.run, hprevious]
    exact hafter

/-- Options with an alias, and with another one that stands for nothing. -/
def aliasedConfig : Config where
  server := .ofHost "PROD"
  aliases := [("prod", "tcp:db1,14330"), ("broken", "tcp:db2,port")]

/-- The first login looks the one alias up, and it stays looked up. The other one cannot be looked up, and leaves
nothing behind. -/
theorem aliasedConfig_transparent :
    (∀ r ∈ LoginStart.course { config := aliasedConfig } (LineFaults.server {}) 2 openWorld,
      r.LooksUpAfresh (LoginStart.context { config := aliasedConfig } (LineFaults.server {}))) ∧
    ∃ c, (Connection.connect (LineFaults.server {}) 2 aliasedConfig {} openWorld).1 = .ok c ∧
      c.session.state.aliases = [("prod", ⟨some .tcp, "db1", some 14330, none⟩)] ∧
      AliasCache.Faithful aliasedConfig c.session.state.aliases ∧
      (∃ e, (resolveInPlace aliasedConfig true (.ofHost "Broken") c.session.state.aliases).1 = .error e) ∧
      (resolveInPlace aliasedConfig true (.ofHost "Broken") c.session.state.aliases).2 = c.session.state.aliases ∧
      ∀ r ∈ LoginStart.course { config := aliasedConfig, previous := some c.session.state } (LineFaults.server {}) 2
        openWorld, r.LooksUpAfresh (LoginStart.context
          { config := aliasedConfig, previous := some c.session.state } (LineFaults.server {})) := by
  obtain ⟨-, -, hfailed, hfirst, hconnected⟩ := aliases_transparent aliasedConfig
  have haliases : (Connection.connect (LineFaults.server {}) 2 aliasedConfig {} openWorld).1.toOption.map
      (·.session.state.aliases) = some [("prod", ⟨some .tcp, "db1", some 14330, none⟩)] := by decide +kernel
  have hnone : (resolveInPlace aliasedConfig true (.ofHost "Broken")
      [("prod", ⟨some .tcp, "db1", some 14330, none⟩)]).1.toOption = none := by decide +kernel
  have hbroken : ∃ e, (resolveInPlace aliasedConfig true (.ofHost "Broken")
      [("prod", ⟨some .tcp, "db1", some 14330, none⟩)]).1 = .error e := by
    rcases hresolve : (resolveInPlace aliasedConfig true (.ofHost "Broken")
      [("prod", ⟨some .tcp, "db1", some 14330, none⟩)]).1 with e | target
    · exact ⟨e, rfl⟩
    · rw [hresolve] at hnone
      cases hnone
  refine ⟨hfirst (LineFaults.server {}) 2 { config := aliasedConfig } openWorld rfl rfl, ?_⟩
  rcases h : (Connection.connect (LineFaults.server {}) 2 aliasedConfig {} openWorld).1 with t | c <;>
    rw [h] at haliases
  · cases haliases
  obtain ⟨-, hfaithful, hcarried⟩ := hconnected (LineFaults.server {}) 2 {} openWorld c c h .refl
  have hcache : c.session.state.aliases = [("prod", ⟨some .tcp, "db1", some 14330, none⟩)] := Option.some.inj haliases
  rw [← hcache] at hbroken
  obtain ⟨e, he⟩ := hbroken
  exact ⟨c, rfl, hcache, hfaithful, ⟨e, he⟩, hfailed _ _ _ e he,
    hcarried (LineFaults.server {}) 2 _ openWorld rfl rfl⟩

end TdsSession
