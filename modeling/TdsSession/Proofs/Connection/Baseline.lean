import TdsSession.Proofs.Connection.Relogin
import TdsSession.Proofs.Login.Established
import TdsSession.Proofs.Login.Reported
import TdsSession.Session.Action

/-!
# What a connection keeps of its session

The session of a connection may break and be recovered any number of times, and
between two recoveries the server and the client change its state
(`Connection.Step`). What the first session began with is what every later one
begins with, and no alias is looked up twice. All else of a recovered session is
what the server has said about it over its own transport (`session_carried_over`).
-/

namespace TdsSession

open Relation (ReflTransGen)

variable {σ : Type}

/-! ## One recovery -/

/-- A session in state `s` goes on over connection `n` in state `s'`: it begins as it began before, and every slot
that has changed has been reported over that connection by what `events` show. -/
structure SessionState.CarriesOver (s s' : SessionState) (n : Nat) (events : List (Moment × Event)) : Prop where
  baseline : s'.baseline = s.baseline
  initial : s'.initial = s.initial
  aliases : s'.aliases.Remembers s.aliases
  recovering : s'.recovering = false
  changes : ∀ slot change, s'.changes.get slot = some change →
    ∃ t record, (t, .received n record) ∈ events ∧ record.Reports slot change

theorem SessionState.CarriesOver.mono {s s' : SessionState} {n : Nat} {events events' : List (Moment × Event)}
    (h : s.CarriesOver s' n events) (hsubset : events ⊆ events') : s.CarriesOver s' n events' where
  baseline := h.baseline
  initial := h.initial
  aliases := h.aliases
  recovering := h.recovering
  changes slot change hc :=
    have ⟨t, record, hrecord, hreports⟩ := h.changes slot change hc
    ⟨t, record, hsubset hrecord, hreports⟩

/-- Only a login that carries a session over opens one that is being carried over. -/
theorem LoginStart.recovering_of_login {server : Server σ} {attempts : Nat} {s : LoginStart} {w : World σ}
    {e : Established} (h : (login server attempts s w).1 = .ok e) : e.state.recovering = s.base.recovering := by
  obtain ⟨run, mid, ack, res, hopened, -⟩ := opened_of_login h
  have hbase : mid.base.bare.recovering = s.base.recovering := by rw [hopened.base]
  rw [hopened.state, (Response.alters_of_advanceAll hopened.response).recovering]
  exact hbase

/-- A login that carries a session over does so by what it has received over the transport of the new session. -/
theorem LoginStart.carriesOver_of_login {server : Server σ} {attempts : Nat} {s : LoginStart} {w : World σ}
    {e : Established} {previous : SessionState} (hs : s.previous = some previous)
    (h : (login server attempts s w).1 = .ok e) :
    ∃ added, (login server attempts s w).2.world.trace = added ++ w.trace ∧
      previous.CarriesOver e.state.endRecovery e.transport.number added := by
  obtain ⟨run, mid, ack, res, hopened, htrace⟩ := opened_of_login h
  obtain ⟨added, hadded, hheard⟩ := hopened.added
  have halters := Response.alters_of_advanceAll hopened.response
  have hbase : mid.base.bare = previous.carryOver.bare := by
    rw [hopened.base, base, hs]
    rfl
  have hbegan : (s.run w).base = previous.carryOver := by
    unfold LoginStart.run
    rw [hs]
    rfl
  have kept {α : Type} (f : SessionState → α) : f mid.base.bare = f previous.carryOver.bare := congrArg f hbase
  have hnone : mid.base.changes = Slots.empty := kept SessionState.changes
  have hremembers : mid.base.aliases.Remembers previous.aliases := by
    have hremembers := hopened.aliases
    rwa [hbegan] at hremembers
  refine ⟨_ :: added, by rw [htrace, hadded]; rfl, ?_⟩
  rw [hopened.state]
  exact {
    baseline := halters.baseline.trans (kept SessionState.baseline)
    initial := (halters.initial (kept SessionState.recovering)).trans (kept SessionState.initial)
    aliases := by
      show res.session.aliases.Remembers previous.aliases
      rw [halters.aliases]
      exact hremembers
    recovering := rfl
    changes := fun slot change hc => by
      rcases halters.changes slot change hc with hold | ⟨record, hrecord, hreports⟩
      · change mid.base.changes.get slot = some change at hold
        rw [hnone, Slots.get_empty] at hold
        cases hold
      · obtain ⟨t, hreceived⟩ := hopened.received_over hrecord
        exact ⟨t, record, List.mem_cons_of_mem _ (hheard hreceived), hreports⟩ }

namespace ConnectionM

variable {server : Server σ} {attempts : Nat} {previous : SessionState} {run run' : ConnectionRun σ}
  {res : Except Stop Unit}

/-- Putting a session in the place of another, whether the old transport can be closed or not. -/
theorem resume_session (e : Established) (run : ConnectionRun σ) :
    (resume e run).2.connection.session =
      .ofLogin { e with state := e.state.endRecovery } run.connection.config.mars := by
  unfold resume
  rw [Op.bind_of_ok (Op.get_apply run)]
  dsimp only
  rw [Op.bind_of_ok (Op.modify_apply ..), Op.bind_apply, inWorld_apply]
  rcases WorldM.discard run.connection.session.transport none run.world with ⟨s | ⟨⟩, w⟩ <;> rfl

theorem relogin_carriesOver {e : Established} {mid : ConnectionRun σ}
    (h : relogin server attempts previous run = (.ok e, mid)) :
    ∃ added, mid.world.trace = added ++ run.world.trace ∧
      previous.CarriesOver e.state.endRecovery e.transport.number added := by
  obtain ⟨-, s, -, hs, after, hlogin, hworld⟩ := relogin_login h
  have hcarries := LoginStart.carriesOver_of_login hs (congrArg Prod.fst hlogin)
  rw [hlogin] at hcarries
  rw [hworld]
  exact hcarries

/-- The session that a connection had has not been replaced, or it goes on with what has been reported since. -/
def Replaces (previous : SessionState) (run : ConnectionRun σ) (res : Except Stop Unit) (run' : ConnectionRun σ) :
    Prop :=
  (run'.connection.session = run.connection.session ∧ res ≠ .ok ()) ∨
    ∃ added, run'.world.trace = added ++ run.world.trace ∧
      previous.CarriesOver run'.connection.session.state run'.connection.session.transport.number added

/-- The logins of a recovery replace no session but by one that they carry over. -/
theorem relogins_replaces {left : Nat} (h : relogins server attempts previous left run = (res, run')) :
    Replaces previous run res run' := by
  induction left generalizing run with
  | zero =>
    cases h
    exact .inl ⟨rfl, nofun⟩
  | succ left ih =>
    rcases relogins_succ_cases h with ⟨e, mid, hlogin, hresume⟩ | ⟨s, hlogin, rfl⟩ | ⟨e, mid, hlogin, -, h⟩
    · have hsession := resume_session e mid
      have hclosing := resume_trace e mid
      rw [hresume] at hsession hclosing
      obtain ⟨closing, hclosed, -⟩ := hclosing
      obtain ⟨added, hadded, hcarries⟩ := relogin_carriesOver hlogin
      refine .inr ⟨closing ++ added, ?_, ?_⟩
      · rw [hclosed, hadded, List.append_assoc]
      · rw [hsession]
        exact hcarries.mono (List.subset_append_right _ _)
    · have hkept := (relogin_keeps server attempts previous).of_eq hlogin
      exact .inl ⟨hkept.session, nofun⟩
    have hkept := (relogin_keeps server attempts previous).of_eq hlogin
    obtain ⟨-, first, hfirst, -, -⟩ := relogin_trace hlogin
    rcases h with ⟨s, hs, rfl⟩ | ⟨later, hs, h⟩ <;> obtain ⟨hslept, hsame⟩ := inWorld_eq hs
    · exact .inl ⟨(congrArg Connection.session hsame).trans hkept.session, nofun⟩
    rcases ih h with ⟨hsession, hres⟩ | ⟨added, hadded, hcarries⟩
    · exact .inl ⟨hsession.trans ((congrArg Connection.session hsame).trans hkept.session), hres⟩
    · have hpause := WorldM.sleep_trace hslept
      refine .inr ⟨added ++ (mid.world.now, .slept mid.connection.config.retry.recoveryPause) :: first, ?_,
        hcarries.mono (List.subset_append_left _ _)⟩
      rw [hadded, hpause, hfirst, List.append_assoc, List.cons_append]

/-- A recovery leaves the session as it is, or carries it over. If it succeeds, it has done so. -/
theorem recover_replaces (h : recover server attempts run = (res, run')) :
    Replaces run.connection.session.state run res run' := by
  rcases recover_cases h with ⟨e, -, rfl, rfl⟩ | ⟨-, rfl, t, rfl⟩ | ⟨-, after, hlogins, rfl⟩
  · exact .inl ⟨rfl, nofun⟩
  · exact .inl ⟨rfl, nofun⟩
  · have hreplaces : Replaces run.connection.session.state (run.withLock run.connection.shared.lock.taken) res after :=
      relogins_replaces hlogins
    exact hreplaces

end ConnectionM

/-! ## Any number of recoveries -/

/-- What the server or the client does to the state of an open session, other than to begin it or carry it over. -/
def SessionAction.isUse : SessionAction → Prop
  | .record _ | .rebase | .carryOver | .setAlias .. => False
  | _ => True

/-- What can happen to a connection: its session is recovered, or that fails; the state of its session changes; or
anything else does. -/
inductive Connection.Step : Connection → Connection → Prop
  | recovers {σ : Type} {server : Server σ} {attempts : Nat} {run run' : ConnectionRun σ} {res : Except Stop Unit}
      (h : ConnectionM.recover server attempts run = (res, run')) : Step run.connection run'.connection
  | acts (c : Connection) {a : SessionAction} (ha : a.isUse) :
      Step c { c with session := { c.session with state := (c.session.state.act a).1 } }
  | other {c c' : Connection} (h : c'.session.state = c.session.state) : Step c c'

namespace SessionState

/-- From `s` to `s'`, what the session began with has stayed, and no alias has been forgotten. -/
structure Stays (s s' : SessionState) : Prop where
  baseline : s'.baseline = s.baseline
  initial : s'.initial = s.initial
  aliases : s'.aliases.Remembers s.aliases
  recovering : s.recovering = false → s'.recovering = false

instance : IsPreorder SessionState Stays where
  refl _ := ⟨rfl, rfl, .refl _, id⟩
  trans _ _ _ h h' := ⟨h'.baseline.trans h.baseline, h'.initial.trans h.initial, h.aliases.trans h'.aliases,
    fun hs => h'.recovering (h.recovering hs)⟩

variable {s s' : SessionState}

theorem CarriesOver.stays {n : Nat} {events : List (Moment × Event)} (h : s.CarriesOver s' n events) : s.Stays s' :=
  ⟨h.baseline, h.initial, h.aliases, fun _ => h.recovering⟩

theorem Alters.stays {Q : UInt8 → SlotChange → Prop} (h : Alters Q s s') (hinitial : s'.initial = s.initial) :
    s.Stays s' where
  baseline := h.baseline
  initial := hinitial
  aliases := by
    rw [h.aliases]
    exact .refl _
  recovering hs := h.recovering.trans hs

/-- A token is never about what the session began with. -/
theorem stays_apply (s : SessionState) (token : StateToken) : s.Stays (s.apply token) := by
  refine (Alters.apply (Q := fun _ _ => True) (fun _ _ => trivial) s).stays ?_
  have hloop (rs : List StateRecord) (s : SessionState) :
      (rs.foldl (applySlot token.sequence token.recoverable) s).initial = s.initial := by
    induction rs generalizing s with
    | nil => rfl
    | cons r rs ih =>
      refine (ih _).trans ?_
      unfold applySlot
      dsimp only
      split <;> rfl
  unfold apply
  refine (hloop token.records _).trans ?_
  split <;> rfl

theorem stays_reset (s : SessionState) : s.Stays s.reset := by
  refine (Alters.reset (Q := fun _ _ => True) s).stays ?_
  unfold reset
  split <;> rfl

theorem stays_perform {a : SessionAction} (ha : a.isUse) (h : s.perform a = .ok s') : s.Stays s' := by
  cases a with
  | record payload => exact ha.elim
  | rebase => exact ha.elim
  | carryOver => exact ha.elim
  | setAlias name target => exact ha.elim
  | apply token =>
    cases h
    exact stays_apply s token
  | applyBody body =>
    obtain ⟨⟨token, _⟩, -, h⟩ := Op.except_bind_eq_ok.mp h
    cases h
    exact stays_apply s token
  | reset =>
    cases h
    exact stays_reset s
  | endRecovery =>
    cases h
    exact ⟨rfl, rfl, .refl _, fun _ => rfl⟩
  | _ =>
    cases h
    exact ⟨rfl, rfl, .refl _, id⟩

/-- An action that fails changes nothing. -/
theorem stays_act {a : SessionAction} (ha : a.isUse) : s.Stays (s.act a).1 := by
  unfold act
  rcases h : s.perform a with e | s'
  · exact refl_of Stays s
  · exact stays_perform ha h

end SessionState

namespace Connection

/-- Whatever happens to a connection, what its session began with stays. -/
theorem Step.stays {c c' : Connection} (h : c.Step c') : c.session.state.Stays c'.session.state := by
  cases h with
  | recovers h =>
    rcases ConnectionM.recover_replaces h with ⟨hsame, -⟩ | ⟨added, -, hcarries⟩
    · rw [hsame]
      exact refl_of _ _
    · exact hcarries.stays
  | acts _ ha => exact SessionState.stays_act ha
  | other h =>
    rw [h]
    exact refl_of _ _

theorem stays_of_steps {c c' : Connection} (h : ReflTransGen Step c c') :
    c.session.state.Stays c'.session.state := by
  induction h with
  | refl => exact refl_of _ _
  | tail _ hstep ih => exact trans_of SessionState.Stays ih hstep.stays

/-- A connection is made by a login that succeeds, and has its session. -/
theorem connect_eq_ok {server : Server σ} {attempts : Nat} {config : Config} {group : Group} {w : World σ}
    {c : Connection} (h : (connect server attempts config group w).1 = .ok c) :
    ∃ e, (login server attempts { config, group } w).1 = .ok e ∧ c.config = config ∧
      c.session = .ofLogin { e with state := e.state.rebase } config.mars := by
  unfold connect at h
  dsimp only at h
  rcases hlogin : login server attempts { config, group } w with ⟨t | e, run⟩ <;> rw [hlogin] at h <;> cases h
  exact ⟨e, rfl, rfl, rfl⟩

/-- A connection that has just been made is not being recovered. -/
theorem recovering_of_connect {server : Server σ} {attempts : Nat} {config : Config} {group : Group} {w : World σ}
    {c : Connection} (h : (connect server attempts config group w).1 = .ok c) :
    c.session.state.recovering = false := by
  obtain ⟨e, hlogin, -, hsession⟩ := connect_eq_ok h
  have hrecovering : e.state.recovering = false := LoginStart.recovering_of_login hlogin
  rw [hsession]
  exact hrecovering

end Connection

/-- Let a connection be made, and let anything happen to it: recoveries that succeed or fail, tokens from the server,
resets and settings. What its first session began with, every session begins with, and an alias that has been looked
up is known from then on. No session is left in the middle of being carried over. And after a recovery that succeeds,
every slot that has changed is one that the server has reported over the transport of the new session, since the
recovery began: no change is left of the session that was broken. -/
theorem session_carried_over {server : Server σ} {attempts : Nat} {config : Config} {group : Group} {w : World σ}
    {c₀ c₁ c₂ : Connection} (h₀ : (Connection.connect server attempts config group w).1 = .ok c₀)
    (h₁ : ReflTransGen Connection.Step c₀ c₁) (h₂ : ReflTransGen Connection.Step c₁ c₂) :
    c₂.session.state.baseline = c₀.session.state.baseline ∧
    (∀ slot, c₂.session.state.initial.get slot = c₀.session.state.initial.get slot) ∧
    (∀ name target, Table.find? c₁.session.state.aliases name = some target →
      Table.find? c₂.session.state.aliases name = some target) ∧
    c₂.session.state.recovering = false ∧
    ∀ {τ : Type} (server' : Server τ) (attempts' : Nat) (run run' : ConnectionRun τ), run.connection = c₂ →
      ConnectionM.recover server' attempts' run = (.ok (), run') →
      run'.connection.session.state.recovering = false ∧
      ∃ added, run'.world.trace = added ++ run.world.trace ∧
        ∀ slot change, run'.connection.session.state.changes.get slot = some change →
          ∃ t record, (t, .received run'.connection.session.transport.number record) ∈ added ∧
            record.Reports slot change := by
  have hfirst := Connection.stays_of_steps (h₁.trans h₂)
  refine ⟨hfirst.baseline, fun slot => by rw [hfirst.initial], (Connection.stays_of_steps h₂).aliases,
    hfirst.recovering (Connection.recovering_of_connect h₀), ?_⟩
  rintro τ server' attempts' run run' rfl h
  rcases ConnectionM.recover_replaces h with ⟨-, hno⟩ | ⟨added, htrace, hcarries⟩
  · exact absurd rfl hno
  · exact ⟨hcarries.recovering, added, htrace, hcarries.changes⟩

/-- A connection to a server that begins its session with a database and a slot. -/
def begunConnection : Except Stop Connection :=
  (Connection.connect (LineFaults.server {}) 2 plainLogin.config {}
    { server := { fallback := .success [.textChange .database "master" "", .recoveryAck [⟨5, [1]⟩]] } }).1

/-- The connection after the server has changed the slot of its session. -/
def Connection.changed (c : Connection) : Connection :=
  { c with session := { c.session with state := (c.session.state.act (.apply ⟨1, true, [⟨5, [7]⟩]⟩)).1 } }

/-- The session is carried over by a server that reports another slot. -/
def Connection.resumed (c : Connection) : Except Stop Unit × ConnectionRun LoginScript :=
  ConnectionM.recover (LineFaults.server {}) 2
    { world := { server := { fallback := .success [.recoveryAck [⟨6, [2]⟩]] } }, connection := c.changed }

/-- The change that the new server has not reported is gone, and the one that it has reported is there. -/
theorem begunConnection_carried_over : ∃ c₀ run', begunConnection = .ok c₀ ∧ c₀.resumed = (.ok (), run') ∧
    run'.connection.session.state.baseline = c₀.session.state.baseline ∧
    c₀.session.state.baseline.database = some "master" ∧ c₀.changed.session.state.changes.get 5 = some ⟨true, 1, [7]⟩ ∧
    run'.connection.session.state.changes.get 5 = none ∧
    run'.connection.session.state.changes.get 6 = some ⟨true, 0, [2]⟩ ∧
    ∃ t record, (t, .received run'.connection.session.transport.number record) ∈ run'.world.trace ∧
      record.Reports 6 ⟨true, 0, [2]⟩ := by
  have hok : begunConnection.isOk := by decide +kernel
  have hresumed : ∀ c ∈ begunConnection.toOption, c.resumed.1 = .ok () ∧
      c.session.state.baseline.database = some "master" ∧
      c.changed.session.state.changes.get 5 = some ⟨true, 1, [7]⟩ ∧
      c.resumed.2.connection.session.state.changes.get 5 = none ∧
      c.resumed.2.connection.session.state.changes.get 6 = some ⟨true, 0, [2]⟩ := by
    decide +kernel
  rcases h₀ : begunConnection with t | c₀ <;> rw [h₀] at hok hresumed
  · cases hok
  obtain ⟨hrecovered, hdatabase, hchanged, hfive, hsix⟩ := hresumed c₀ rfl
  rcases hrun : c₀.resumed with ⟨res, run'⟩
  rw [hrun] at hrecovered hfive hsix
  cases hrecovered
  have hact : c₀.Step c₀.changed := .acts c₀ trivial
  have hstep : c₀.changed.Step run'.connection := .recovers hrun
  obtain ⟨hbaseline, -, -, -, -⟩ := session_carried_over h₀ (.single hact) (.single hstep)
  obtain ⟨-, -, -, -, hrecover⟩ := session_carried_over h₀ (.single hact) .refl
  obtain ⟨-, added, htrace, hchanges⟩ := hrecover _ _ _ _ rfl hrun
  obtain ⟨t, record, hreceived, hreports⟩ := hchanges 6 _ hsix
  refine ⟨c₀, run', rfl, hrun, hbaseline, hdatabase, hchanged, hfive, hsix, t, record, ?_, hreports⟩
  rw [htrace]
  exact List.mem_append_left _ hreceived

end TdsSession
