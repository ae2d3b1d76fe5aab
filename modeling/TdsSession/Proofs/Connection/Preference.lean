import TdsSession.Proofs.Connection.Recovery
import TdsSession.Proofs.Login.Completion

/-!
# Which host of a pair is tried first

The connections of a pool remember which host of a pair let the last of them in
(`Group.preferPartner`), and the next login of the pool tries that host first.
Nothing that happens before a login has succeeded changes what is remembered:
neither a failure on the way, nor a session that is given up because of its
partner (`LoginStart.login_learns`). So over any logins and recoveries of the
pool the first connection of each goes to the host of the last login that has
succeeded, and to the primary if none has (`partner_first_iff`).
-/

namespace TdsSession

open Op (Keeps)

variable {σ : Type}

/-! ## What a trace says -/

/-- The host on which a login has succeeded: the partner or not. -/
def Event.host? : Event → Option Bool
  | .ended (.succeeded onPartner) => some onPartner
  | _ => none

/-- The host of the last login that has succeeded. -/
def lastHost? (events : List (Moment × Event)) : Option Bool := events.findSome? fun e => e.2.host?

/-- The connection that is tried after `older` is the first one of its login. -/
def ConnectsFirst (older : List (Moment × Event)) : Prop := ∀ e ∈ sinceBegan older, e.2.isConnected = false

/-- Every login that has begun since `old` connects first to what `there` stands for. -/
def FirstGoes (there : Except Error Target) (old new : List (Moment × Event)) : Prop :=
  ∀ t n target timeout older, (t, .connected n target timeout) :: older <:+ new → old <:+ older →
    ConnectsFirst older → there = .ok target

theorem lastHost?_append (later earlier : List (Moment × Event)) :
    lastHost? (later ++ earlier) = (lastHost? later).or (lastHost? earlier) := List.findSome?_append

theorem lastHost?_eq_none {events : List (Moment × Event)} (h : ∀ e ∈ events, e.2.host? = none) :
    lastHost? events = none := List.findSome?_eq_none_iff.mpr h

theorem FirstGoes.trans {there : Except Error Target} {old mid new : List (Moment × Event)}
    (h : FirstGoes there old mid) (h' : FirstGoes there mid new) (hmid : mid <:+ new) : FirstGoes there old new := by
  intro t n target timeout older hc hold hfirst
  rcases cons_suffix_or_suffix hc hmid with hs | hs
  · exact h t n target timeout older hs hold hfirst
  · exact h' t n target timeout older hc hs hfirst

/-- Where nothing connects, no login does so first. -/
theorem FirstGoes.of_grows {Q : Event → Prop} (hQ : ∀ e, Q e → e.isConnected = false) (there : Except Error Target)
    {old new : List (Moment × Event)} (h : Grows Q old new) : FirstGoes there old new := by
  intro t n target timeout older hc hold _
  rcases h.cons_suffix_cases hc with ⟨hconnected, -⟩ | hc
  · cases hQ _ hconnected
  · exact absurd hc (not_cons_suffix hold)

theorem Event.over.host? {n : Nat} {e : Event} (h : e.over n) : e.host? = none := by
  rcases h with h | rfl
  · cases e <;> first | rfl | exact h.elim
  · rfl

theorem Event.ofClosing.host? {e : Event} (h : e.ofClosing) : e.host? = none := by
  cases e <;> first | rfl | exact h.elim

theorem Event.betweenLogins.host? {e : Event} (h : e.betweenLogins) : e.host? = none := by
  cases e <;> first | rfl | exact h.elim

theorem Event.betweenLogins.isConnected {e : Event} (h : e.betweenLogins) : e.isConnected = false := by
  cases e <;> first | rfl | exact h.elim

/-! ## One login -/

/-- What `g` has become by the logins that have left `events`: a group that serves one connection learns nothing. -/
structure Group.Learns (g : Group) (events : List (Moment × Event)) (g' : Group) : Prop where
  pooled : g'.pooled = g.pooled
  preferPartner : g'.preferPartner = if g.pooled then (lastHost? events).getD g.preferPartner else g.preferPartner

namespace Group

variable {g g' g'' : Group} {earlier later events : List (Moment × Event)}

theorem Learns.append (h : g.Learns earlier g') (h' : g'.Learns later g'') : g.Learns (later ++ earlier) g'' := by
  refine ⟨h'.pooled.trans h.pooled, ?_⟩
  rw [h'.preferPartner, h.preferPartner, h.pooled, lastHost?_append]
  cases g.pooled <;> cases lastHost? later <;> rfl

theorem Learns.of_none (hpooled : g'.pooled = g.pooled) (hprefer : g'.preferPartner = g.preferPartner)
    (hnone : lastHost? events = none) : g.Learns events g' := by
  refine ⟨hpooled, hprefer.trans ?_⟩
  rw [hnone]
  exact (ite_self _).symm

/-- Where no login has succeeded, nothing is learnt. -/
theorem Learns.preferPartner_of_none (h : g.Learns events g') (hnone : lastHost? events = none) :
    g'.preferPartner = g.preferPartner := by
  rw [h.preferPartner, hnone]
  exact ite_self _

theorem learns_afterLogin (g : Group) {onPartner : Bool} (h : lastHost? events = some onPartner) :
    g.Learns events (g.afterLogin onPartner) := by
  unfold afterLogin
  constructor
  · split <;> rfl
  · rw [h]
    split <;> rfl

end Group

/-- From `run` to `run'` no login has succeeded, and which host is preferred is remembered as before. -/
structure LoginRun.Prefers (run run' : LoginRun σ) : Prop where
  pooled : run'.group.pooled = run.group.pooled
  preferPartner : run'.group.preferPartner = run.group.preferPartner
  trace : TraceGrows (·.host? = none) run run'

instance : IsPreorder (LoginRun σ) LoginRun.Prefers where
  refl _ := ⟨rfl, rfl, .refl _⟩
  trans _ _ _ h h' :=
    ⟨h'.pooled.trans h.pooled, h'.preferPartner.trans h.preferPartner, h.trace.trans h'.trace⟩

namespace LoginM

theorem roundAttempt_prefers (x : LoginContext σ) (plan : LoginPlan) :
    Keeps LoginRun.Prefers (roundAttempt x plan : LoginM σ RoundEnd) := by
  intro run
  rcases ha : roundAttempt x plan run with ⟨res, mid⟩
  have hframe := RoundFrame.roundAttempt ha
  refine ⟨hframe.pooled, hframe.preferPartner, ?_⟩
  rcases roundAttempt_connects ha with ⟨hsame, -⟩ | ⟨target, timeout, -, hconnects⟩
  · unfold TraceGrows
    rw [hsame]
    exact .refl _
  · have hconnected : Grows (·.host? = none) run.world.trace
        ((run.world.now, .connected (run.world.connects + 1) target timeout) :: run.world.trace) :=
      .cons (Q := (·.host? = none)) rfl _
    exact hconnected.trans (hconnects.trace.mono fun _ => Event.over.host?)

theorem settle_prefers (x : LoginContext σ) (plan : LoginPlan) (ended : RoundEnd) :
    Keeps LoginRun.Prefers (settle x plan ended) := by
  intro mid
  have hfollows := settle_follows x plan ended mid
  generalize (settle x plan ended mid).2 = run' at hfollows
  cases hfollows with
  | atOnce => exact refl_of _ _
  | renewed e he => exact ⟨rfl, rfl, .cons (rfl : Event.restarted.host? = none) _⟩
  | slept span t hs ht hspan => exact ⟨rfl, rfl, .cons (rfl : (Event.slept span).host? = none) _⟩

/-- Nothing that is done for a session changes which host is preferred: not even that the session is given up after
its server has let the client in. -/
theorem establish_prefers (x : LoginContext σ) (attempts : Nat) :
    Keeps LoginRun.Prefers (establish x attempts) := by
  intro run
  rcases hx : x.config.partnersConflict with _ | _
  · have hrounds := allRounds_keeps (roundAttempt_prefers x) (settle_prefers x) attempts run
    refine trans_of LoginRun.Prefers hrounds (establish_keeps hx (fun _ _ => ⟨rfl, rfl, .refl _⟩) ?_)
    intro e conflict run' _
    obtain ⟨s, w, hrefuse, -, hclosing⟩ := refuse_apply e conflict run'
    rw [hrefuse]
    exact ⟨rfl, rfl, hclosing.mono fun _ => Event.ofClosing.host?⟩
  · unfold establish
    simp only [hx, if_true]
    exact ⟨rfl, rfl, .refl _⟩

end LoginM

/-- What the first connection of a login goes to, if the group prefers the partner or not. -/
def firstTarget (c : Config) (partner : DataSource) (previous : Option SessionState) (onPartner : Bool) :
    Except Error Target :=
  (Target.resolve c true ((previous.map SessionState.carryOver).getD .new).aliases
    (if onPartner then partner else c.server)).map Prod.fst

namespace LoginStart

variable {s : LoginStart} {server : Server σ} {attempts : Nat} {w : World σ} {partner : DataSource}

/-- The first connection of a login is that of its first round. -/
theorem eq_first_of_connectsFirst {r : RoundStart σ} (hr : r ∈ s.course server attempts w)
    (hfirst : ConnectsFirst r.run.world.trace) :
    r.run = s.begun w ∧ LoginM.firstPlan s.config (s.begun w) = (.ok r.plan, s.begun w) := by
  rcases first_or_follows hr with ⟨plan, hplan, rfl⟩ | ⟨r₀, hadjacent⟩
  · exact ⟨rfl, hplan⟩
  obtain ⟨ended, mid, ha, hc⟩ := LoginM.before_cases (before_of_adjacent hadjacent)
  obtain ⟨target, timeout, hconnects⟩ := LoginM.connects_of_continues ha hc
  obtain ⟨-, hafter⟩ := LoginM.grows_of_continues hc
  -- the round before has connected, and no login has begun since
  have hsince : sinceBegan mid.world.trace <:+ sinceBegan r.run.world.trace :=
    sinceBegan_suffix (hafter.mono fun _ h => h.2)
  rw [hconnects.sinceBegan_eq] at hsince
  have hearlier := hfirst _ (hsince.subset (List.mem_append_right _ List.mem_cons_self))
  cases hearlier

/-- The first connection of a login goes to the host that the group prefers. -/
theorem firstGoes_of_login (hpartner : s.config.partner = some partner) :
    FirstGoes (firstTarget s.config partner s.previous s.group.preferPartner) w.trace
      (login server attempts s w).2.world.trace := by
  intro t n target timeout older hc hnew hfirst
  obtain ⟨r, hr, rfl, -, -, htarget⟩ := round_of_connected hc hnew
  obtain ⟨hrun, hplan⟩ := eq_first_of_connectsFirst hr hfirst
  rw [hrun] at htarget
  rw [LoginM.firstPlan_apply, hpartner] at hplan
  rcases hslice : (s.begun w).budget.slice with o | slice <;> rw [hslice] at hplan
  · cases hplan
  have hplan := Except.ok.inj (Prod.mk.inj hplan).1
  have hunrouted : r.plan.Unrouted := by
    rw [← hplan]
    exact ⟨rfl, rfl⟩
  have hsource : r.plan.source s.config (s.begun w).partner =
      .ok (if s.group.preferPartner then partner else s.config.server) := by
    rw [← hplan, LoginPlan.source_pair]
    show (if s.group.preferPartner then partnerSource partner none else .ok s.config.server) = _
    split <;> rfl
  rw [LoginM.roundTarget_apply, hunrouted.route] at htarget
  dsimp only at htarget
  rw [show r.plan.source (s.context server).config _ = _ from hsource] at htarget
  exact targetOf_of_resolve (w := w) (.refl _) htarget

/-- The group learns on which host a login has succeeded, and nothing from one that has not. -/
theorem login_learns (server : Server σ) (attempts : Nat) (s : LoginStart) (w : World σ) :
    ∃ added, (login server attempts s w).2.world.trace = added ++ w.trace ∧
      lastHost? added = (login server attempts s w).1.toOption.map Established.onPartner ∧
      s.group.Learns added (login server attempts s w).2.group := by
  have hprefers := LoginM.establish_prefers (s.context server) attempts (s.begun w)
  obtain ⟨added, htrace, hquiet⟩ := hprefers.trace
  have hnone : lastHost? (added ++ [(w.now, .began)]) = none := by
    rw [lastHost?_append, lastHost?_eq_none hquiet]
    rfl
  have hlearns : s.group.Learns (added ++ [(w.now, .began)])
      (LoginM.establish (s.context server) attempts (s.begun w)).2.group :=
    .of_none hprefers.pooled hprefers.preferPartner hnone
  have hall : (LoginM.establish (s.context server) attempts (s.begun w)).2.world.trace =
      (added ++ [(w.now, .began)]) ++ w.trace := by
    rw [htrace, List.append_assoc]
    rfl
  rw [login_apply]
  rcases hend : LoginM.establish (s.context server) attempts (s.begun w) with ⟨t | e, run'⟩ <;>
    rw [hend] at hall hlearns <;> dsimp only at hall hlearns
  · cases t with
    | failed e =>
      have hfailed : lastHost? [(run'.world.now, .ended (.failed e))] = none := rfl
      refine ⟨[(run'.world.now, .ended (.failed e))] ++ (added ++ [(w.now, .began)]), ?_, hnone,
        hlearns.append (.of_none rfl rfl hfailed)⟩
      show _ :: run'.world.trace = _
      rw [hall]
      rfl
    | _ => exact ⟨_, hall, hnone, hlearns⟩
  · have hsucceeded : lastHost? [(run'.world.now, .ended (.succeeded e.onPartner))] = some e.onPartner := rfl
    refine ⟨[(run'.world.now, .ended (.succeeded e.onPartner))] ++ (added ++ [(w.now, .began)]), ?_, rfl,
      hlearns.append (run'.group.learns_afterLogin hsucceeded)⟩
    show _ :: run'.world.trace = _
    rw [hall]
    rfl

/-- A login ends on the host on which the attempt was made that has opened the session. -/
theorem host_of_login {e : Established} (he : (login server attempts s w).1 = .ok e) :
    ∃ r ∈ s.course server attempts w,
      r.run.world.connects + 1 = e.transport.number ∧ r.plan.onPartner = e.onPartner := by
  obtain ⟨r, hr, run', hround, -⟩ := login_eq_ok he
  exact ⟨r, hr, (LoginM.number_of_round hround).symm, (LoginM.onPartner_of_round hround).1.symm⟩

end LoginStart

/-! ## One recovery -/

/-- From `run` to `run'` logins may have been made to carry a session over. Each has connected first to the host that
is preferred in `run`, and none has succeeded. -/
structure ConnectionRun.Tries (previous : SessionState) (run run' : ConnectionRun σ) : Prop where
  config : run'.connection.config = run.connection.config
  learns : ∃ added, run'.world.trace = added ++ run.world.trace ∧ lastHost? added = none ∧
    run.connection.group.Learns added run'.connection.group
  first : ∀ partner, run.connection.config.partner = some partner →
    FirstGoes (firstTarget run.connection.config partner (some previous) run.connection.group.preferPartner)
      run.world.trace run'.world.trace

instance (previous : SessionState) : IsTrans (ConnectionRun σ) (ConnectionRun.Tries previous) where
  trans run mid run' h h' := by
    obtain ⟨earlier, hearlier, hnone, hlearns⟩ := h.learns
    obtain ⟨later, hlater, hnone', hlearns'⟩ := h'.learns
    refine ⟨h'.config.trans h.config, ⟨later ++ earlier, ?_, ?_, hlearns.append hlearns'⟩, fun partner hpartner => ?_⟩
    · rw [hlater, hearlier, List.append_assoc]
    · rw [lastHost?_append, hnone', hnone]
      rfl
    · have hrest := h'.first partner ((congrArg _ h.config).trans hpartner)
      rw [h.config, hlearns.preferPartner_of_none hnone] at hrest
      exact (h.first partner hpartner).trans hrest ⟨later, hlater.symm⟩

theorem ConnectionRun.Quiet.tries (previous : SessionState) {run run' : ConnectionRun σ} (h : run.Quiet run') :
    run.Tries previous run' := by
  obtain ⟨added, htrace, hadded⟩ := h.trace
  have hnone := lastHost?_eq_none fun e he => (hadded e he).host?
  exact ⟨h.config, ⟨added, htrace, hnone, .of_none (congrArg _ h.group) (congrArg _ h.group) hnone⟩,
    fun _ _ => .of_grows (fun _ => Event.betweenLogins.isConnected) _ h.trace⟩

namespace ConnectionM

variable {server : Server σ} {attempts : Nat} {previous : SessionState} {run run' : ConnectionRun σ}
  {res : Except Stop Unit}

/-- A login that carries a session over connects first to the host that is preferred, and the group learns on which
host it succeeds. -/
theorem relogin_learns {res : Except Stop Established} (h : relogin server attempts previous run = (res, run')) :
    run'.connection.config = run.connection.config ∧
    (∃ added, run'.world.trace = added ++ run.world.trace ∧ lastHost? added = res.toOption.map Established.onPartner ∧
      run.connection.group.Learns added run'.connection.group) ∧
    ∀ partner, run.connection.config.partner = some partner →
      FirstGoes (firstTarget run.connection.config partner (some previous) run.connection.group.preferPartner)
        run.world.trace run'.world.trace := by
  let s : LoginStart :=
    { config := run.connection.config, previous := some previous, group := run.connection.group,
      doomed := run.connection.shared.doomed }
  cases h
  refine ⟨rfl, LoginStart.login_learns server attempts s run.world, fun partner hpartner => ?_⟩
  exact LoginStart.firstGoes_of_login (s := s) (w := run.world) hpartner

theorem relogin_tries {s : Stop} (h : relogin server attempts previous run = (.error s, run')) :
    run.Tries previous run' :=
  have hlearns := relogin_learns h
  ⟨hlearns.1, hlearns.2.1, hlearns.2.2⟩

/-- Every login of a recovery connects first to the host that is preferred when the recovery begins. The group learns
on which host one of them succeeds, and nothing if none does. -/
theorem recover_learns (h : recover server attempts run = (res, run')) :
    (∀ partner, run.connection.config.partner = some partner →
      FirstGoes (firstTarget run.connection.config partner (some run.connection.session.state)
        run.connection.group.preferPartner) run.world.trace run'.world.trace) ∧
    ∃ added, run'.world.trace = added ++ run.world.trace ∧ run.connection.group.Learns added run'.connection.group ∧
      ((lastHost? added = none ∧ ∃ s, res = .error s) ∨
        ∃ s w e, Recovers server attempts run run' s w e ∧ lastHost? added = some e.onPartner) := by
  rcases recover_induction (R := ConnectionRun.Tries run.connection.session.state)
      (fun _ _ hquiet => hquiet.tries _) relogin_tries h with
    ⟨htries, hres⟩ | ⟨mid, e, after, htries, hok, last, hresume, rfl⟩ <;>
    obtain ⟨earlier, hearlier, hnone, hlearns⟩ := htries.learns
  · exact ⟨htries.first, earlier, hearlier, hlearns, .inl ⟨hnone, hres⟩⟩
  obtain ⟨hconfig, ⟨later, hlater, hhost, hlearns'⟩, hfirst⟩ := relogin_learns hok
  have hclosed := resume_quiet e after
  rw [hresume] at hclosed
  obtain ⟨hkept, ⟨closing, hclosing, hquiet, hlearns''⟩, hfirst'⟩ := hclosed.tries run.connection.session.state
  obtain ⟨s, w, hrecovers⟩ := recovers_of_relogin htries.config hok hresume
  refine ⟨fun partner hpartner => ?_, closing ++ (later ++ earlier), ?_, (hlearns.append hlearns').append hlearns'',
    .inr ⟨s, w, e, hrecovers, ?_⟩⟩
  · have hlogin := hfirst partner ((congrArg _ htries.config).trans hpartner)
    rw [htries.config, hlearns.preferPartner_of_none hnone] at hlogin
    have hlast := FirstGoes.of_grows (fun _ => Event.betweenLogins.isConnected)
      (firstTarget run.connection.config partner (some run.connection.session.state) run.connection.group.preferPartner)
      hclosed.trace
    exact ((htries.first partner hpartner).trans hlogin ⟨later, hlater.symm⟩).trans hlast ⟨closing, hclosing.symm⟩
  · show last.world.trace = _
    rw [hclosing, hlater, hearlier, List.append_assoc, List.append_assoc]
  · rw [lastHost?_append, hquiet, lastHost?_append, hhost]
    rfl

end ConnectionM

/-! ## The pool -/

/-- A group that the connections of a pool share, after any logins and recoveries of theirs, each with a server and
options of its own; `events` are those of all of them. What is cached for them may change as well. -/
inductive Group.History : Group → List (Moment × Event) → Prop
  | new : History { pooled := true } []
  | cached {g : Group} {events : List (Moment × Event)} (h : g.History events) (cache : TokenCache) :
      History { g with cache } events
  | login {σ : Type} {s : LoginStart} {events added : List (Moment × Event)} (h : s.group.History events)
      (server : Server σ) (attempts : Nat) (w : World σ)
      (hadded : (TdsSession.login server attempts s w).2.world.trace = added ++ w.trace) :
      History (TdsSession.login server attempts s w).2.group (added ++ events)
  | recovery {σ : Type} {run : ConnectionRun σ} {events added : List (Moment × Event)}
      (h : run.connection.group.History events) (server : Server σ) (attempts : Nat)
      (hadded : (ConnectionM.recover server attempts run).2.world.trace = added ++ run.world.trace) :
      History (ConnectionM.recover server attempts run).2.connection.group (added ++ events)

/-- A group remembers the host of the last login that has succeeded, and nothing else about its logins. -/
theorem Group.History.learns {g : Group} {events : List (Moment × Event)} (h : g.History events) :
    Group.Learns { pooled := true } events g := by
  induction h with
  | new => exact ⟨rfl, rfl⟩
  | cached _ cache ih => exact ⟨ih.pooled, ih.preferPartner⟩
  | login _ server attempts w hadded ih =>
    obtain ⟨added, htrace, -, hlearns⟩ := LoginStart.login_learns server attempts _ w
    rw [List.append_cancel_right (hadded.symm.trans htrace)]
    exact ih.append hlearns
  | recovery _ server attempts hadded ih =>
    obtain ⟨-, added, htrace, hlearns, -⟩ := ConnectionM.recover_learns (Prod.mk.eta).symm
    rw [List.append_cancel_right (hadded.symm.trans htrace)]
    exact ih.append hlearns

/-- Whatever logins and recoveries the connections of a pool have made, the first connection of the next login goes to
the partner if the last login that succeeded did so on the partner, and else to the primary. So does that of every
login in the next recovery. Only what succeeds counts: a login that has failed is none, whatever its server had
answered, and the host of one that has succeeded is that of the attempt which opened its session. -/
theorem partner_first_iff {g : Group} {events : List (Moment × Event)} (h : g.History events) :
    (∀ {σ : Type} (server : Server σ) (attempts : Nat) (s : LoginStart) (w : World σ), s.group = g →
      (∀ partner, s.config.partner = some partner →
        FirstGoes (firstTarget s.config partner s.previous ((lastHost? events).getD false)) w.trace
          (login server attempts s w).2.world.trace) ∧
      (∃ added, (login server attempts s w).2.world.trace = added ++ w.trace ∧
        lastHost? added = (login server attempts s w).1.toOption.map Established.onPartner) ∧
      ∀ e, (login server attempts s w).1 = .ok e → ∃ r ∈ s.course server attempts w,
        r.run.world.connects + 1 = e.transport.number ∧ r.plan.onPartner = e.onPartner) ∧
    ∀ {σ : Type} (server : Server σ) (attempts : Nat) (run run' : ConnectionRun σ) (res : Except Stop Unit),
      run.connection.group = g → ConnectionM.recover server attempts run = (res, run') →
      (∀ partner, run.connection.config.partner = some partner →
        FirstGoes (firstTarget run.connection.config partner (some run.connection.session.state)
          ((lastHost? events).getD false)) run.world.trace run'.world.trace) ∧
      ∃ added, run'.world.trace = added ++ run.world.trace ∧
        ((lastHost? added = none ∧ ∃ s, res = .error s) ∨
          ∃ s w e, ConnectionM.Recovers server attempts run run' s w e ∧ lastHost? added = some e.onPartner) := by
  have hprefer : g.preferPartner = (lastHost? events).getD false := h.learns.preferPartner
  rw [← hprefer]
  refine ⟨fun server attempts s w hs => ⟨fun partner hpartner => ?_, ?_, fun e => LoginStart.host_of_login⟩,
    fun server attempts run run' res hrun hrecover => ?_⟩
  · rw [← hs]
    exact LoginStart.firstGoes_of_login hpartner
  · obtain ⟨added, htrace, hlast, -⟩ := LoginStart.login_learns server attempts s w
    exact ⟨added, htrace, hlast⟩
  · obtain ⟨hfirst, added, htrace, -, hlast⟩ := ConnectionM.recover_learns hrecover
    rw [← hrun]
    exact ⟨hfirst, added, htrace, hlast⟩

/-- A login of a pool for a host and its partner. -/
def pooledLogin (preferPartner : Bool) : LoginStart :=
  { mirroredLogin with group := { pooled := true, preferPartner } }

/-- After a login for which only the partner was there, the next one tries the partner first. -/
theorem pooledLogin_partner_first : ∃ events target, (pooledLogin true).group.History events ∧
    lastHost? events = some true ∧ target.host = "mirror" ∧
    FirstGoes (.ok target) [] (login (LineFaults.server {}) 1 (pooledLogin true) readableWorld).2.world.trace ∧
    (login (LineFaults.server {}) 1 (pooledLogin true) readableWorld).2.world.connects = 1 := by
  have hlast : lastHost? (login (LineFaults.server {}) 2 (pooledLogin false) readableWorld).2.world.trace =
      some true := by decide +kernel
  have hgroup : (login (LineFaults.server {}) 2 (pooledLogin false) readableWorld).2.group =
      (pooledLogin true).group := by decide +kernel
  have hhost : ((firstTarget mirroredLogin.config (.ofHost "mirror") none true).toOption.map (·.host)) =
      some "mirror" := by decide +kernel
  have hhistory := Group.History.login (s := pooledLogin false) .new (LineFaults.server {}) 2 readableWorld
    (List.append_nil _).symm
  rw [List.append_nil, hgroup] at hhistory
  rcases htarget : firstTarget mirroredLogin.config (.ofHost "mirror") none true with e | target <;>
    rw [htarget] at hhost
  · cases hhost
  have hgoes := ((partner_first_iff hhistory).1 (LineFaults.server {}) 1 (pooledLogin true) readableWorld rfl).1 _ rfl
  rw [hlast] at hgoes
  change FirstGoes (firstTarget mirroredLogin.config _ none true) [] _ at hgoes
  rw [htarget] at hgoes
  exact ⟨_, target, hhistory, hlast, Option.some.inj hhost, hgoes, by decide +kernel⟩

end TdsSession
