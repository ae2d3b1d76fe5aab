import TdsSession.Proofs.Connection.Baseline

/-!
# Recoveries as logins

Whatever a recovery does besides its logins adds little to the trace: a pause,
or that the old transport is given up (`ConnectionRun.Quiet`). Its logins fail
up to one that succeeds, if one does (`ConnectionM.recover_induction`). So a
recovery keeps whatever its logins keep (`recover_keeps_of`), and one that
succeeds ends with a login that has succeeded (`recover_eq_ok`).
-/

namespace TdsSession

open Op (Keeps)

variable {σ : Type}

/-- An event of a recovery outside its logins. -/
def Event.betweenLogins : Event → Prop
  | .slept _ | .disconnected .. => True
  | _ => False

/-- From `run` to `run'` nobody has logged in: neither the options nor the group have changed, and no more has been
added to the trace than comes between two logins. -/
structure ConnectionRun.Quiet (run run' : ConnectionRun σ) : Prop where
  config : run'.connection.config = run.connection.config
  group : run'.connection.group = run.connection.group
  trace : Grows Event.betweenLogins run.world.trace run'.world.trace

theorem ConnectionRun.Quiet.refl (run : ConnectionRun σ) : run.Quiet run := ⟨rfl, rfl, .refl _⟩

theorem Event.ofClosing.betweenLogins {e : Event} (h : e.ofClosing) : e.betweenLogins := by
  cases e <;> first | exact h | exact h.elim

namespace ConnectionM

variable {server : Server σ} {attempts : Nat} {previous : SessionState} {run run' : ConnectionRun σ}

theorem resume_quiet (e : Established) (run : ConnectionRun σ) : run.Quiet (resume e run).2 := by
  have hclosed := (resume_trace e run).mono fun _ => Event.ofClosing.betweenLogins
  have hkept : (resume e run).2.connection.config = run.connection.config ∧
      (resume e run).2.connection.group = run.connection.group := by
    unfold resume
    rw [Op.bind_of_ok (Op.get_apply run)]
    dsimp only
    rw [Op.bind_of_ok (Op.modify_apply ..), Op.bind_apply, inWorld_apply]
    rcases WorldM.discard run.connection.session.transport none run.world with ⟨s | ⟨⟩, w⟩ <;> exact ⟨rfl, rfl⟩
  exact ⟨hkept.1, hkept.2, hclosed⟩

theorem pause_quiet {span : Span} {res : Except Stop Unit} (h : inWorld (WorldM.sleep span) run = (res, run')) :
    run.Quiet run' := by
  obtain ⟨hslept, hsame⟩ := inWorld_eq h
  refine ⟨congrArg _ hsame, congrArg _ hsame, ?_⟩
  rw [WorldM.sleep_trace hslept]
  exact .cons trivial _

section

variable {R : ConnectionRun σ → ConnectionRun σ → Prop} [IsTrans (ConnectionRun σ) R]
  (hquiet : ∀ run run', run.Quiet run' → R run run')

include hquiet

/-- The logins of a recovery fail, one after the other, until one succeeds or there is none left. What the failing ones
keep, and the pauses, is kept up to there. -/
theorem relogins_induction
    (hfailed : ∀ {run mid s}, relogin server attempts previous run = (.error s, mid) → R run mid) {left : Nat}
    {res : Except Stop Unit} (h : relogins server attempts previous left run = (res, run')) :
    (R run run' ∧ ∃ s, res = .error s) ∨ ∃ mid e after, R run mid ∧
      relogin server attempts previous mid = (.ok e, after) ∧ resume e after = (res, run') := by
  induction left generalizing run with
  | zero =>
    cases h
    exact .inl ⟨hquiet _ _ (.refl _), _, rfl⟩
  | succ left ih =>
    rcases relogins_succ_cases h with ⟨e, after, hend, hresume⟩ | ⟨s, hend, rfl⟩ | ⟨e, mid, hend, -, h⟩
    · exact .inr ⟨run, e, after, hquiet _ _ (.refl _), hend, hresume⟩
    · exact .inl ⟨hfailed hend, s, rfl⟩
    rcases h with ⟨s, hs, rfl⟩ | ⟨later, hs, h⟩ <;>
      have hpaused := trans_of R (hfailed hend) (hquiet _ _ (pause_quiet hs))
    · exact .inl ⟨hpaused, s, rfl⟩
    · rcases ih h with ⟨hrest, hres⟩ | ⟨before, e, after, hrest, hok, hresume⟩
      · exact .inl ⟨trans_of R hpaused hrest, hres⟩
      · exact .inr ⟨before, e, after, trans_of R hpaused hrest, hok, hresume⟩

/-- A recovery consists of logins that fail, and one at most that succeeds after them. -/
theorem recover_induction
    (hfailed : ∀ {run₀ mid s}, relogin server attempts run.connection.session.state run₀ = (.error s, mid) → R run₀ mid)
    {res : Except Stop Unit} (h : recover server attempts run = (res, run')) :
    (R run run' ∧ ∃ s, res = .error s) ∨ ∃ mid e after, R run mid ∧
      relogin server attempts run.connection.session.state mid = (.ok e, after) ∧
      ∃ last, resume e after = (res, last) ∧ run' = last.withLock .freed := by
  rcases recover_cases h with ⟨e, -, rfl, rfl⟩ | ⟨-, rfl, t, rfl⟩ | ⟨-, last, hlogins, rfl⟩
  · exact .inl ⟨hquiet _ _ (.refl _), _, rfl⟩
  · exact .inl ⟨hquiet _ _ ⟨rfl, rfl, .refl _⟩, _, rfl⟩
  have htaken : R run (run.withLock run.connection.shared.lock.taken) := hquiet _ _ ⟨rfl, rfl, .refl _⟩
  have hfreed : R last (last.withLock .freed) := hquiet _ _ ⟨rfl, rfl, .refl _⟩
  rcases relogins_induction hquiet hfailed hlogins with ⟨hkept, hres⟩ | ⟨mid, e, after, hkept, hok, hresume⟩
  · exact .inl ⟨trans_of R htaken (trans_of R hkept hfreed), hres⟩
  · exact .inr ⟨mid, e, after, trans_of R htaken hkept, hok, last, hresume, rfl⟩

/-- A recovery keeps what its logins keep, if the pauses do, and what happens to the lock. -/
theorem recover_keeps_of (hlogin : Keeps R (relogin server attempts run.connection.session.state))
    {res : Except Stop Unit} (h : recover server attempts run = (res, run')) : R run run' := by
  rcases recover_induction hquiet (fun hfailed => hlogin.of_eq hfailed) h with
    ⟨hkept, -⟩ | ⟨mid, e, after, hkept, hok, last, hresume, rfl⟩
  · exact hkept
  have hresumed := resume_quiet e after
  rw [hresume] at hresumed
  have hfreed : R after (last.withLock .freed) := hquiet _ _ ⟨hresumed.config, hresumed.group, hresumed.trace⟩
  exact trans_of R hkept (trans_of R (hlogin.of_eq hok) hfreed)

end

/-- The last login of a recovery that has succeeded: it carries the session over, and what it has opened is the
session of the connection. -/
structure Recovers (server : Server σ) (attempts : Nat) (run run' : ConnectionRun σ) (s : LoginStart) (w : World σ)
    (e : Established) : Prop where
  config : s.config = run.connection.config
  previous : s.previous = some run.connection.session.state
  login : (TdsSession.login server attempts s w).1 = .ok e
  session : run'.connection.session =
    .ofLogin { e with state := e.state.endRecovery } run.connection.config.mars
  trace : Grows Event.ofClosing (TdsSession.login server attempts s w).2.world.trace run'.world.trace

/-- A login of a recovery that succeeds is the last one. -/
theorem recovers_of_relogin {mid after last : ConnectionRun σ} {e : Established} {res : Except Stop Unit}
    (hconfig : mid.connection.config = run.connection.config)
    (hok : relogin server attempts run.connection.session.state mid = (.ok e, after))
    (hresume : resume e after = (res, last)) : ∃ s w, Recovers server attempts run (last.withLock .freed) s w e := by
  obtain ⟨hkept, s, hs, hprevious, run₁, hlogin, hworld⟩ := relogin_login hok
  have hsession := resume_session e after
  have hclosing := resume_trace e after
  rw [hresume] at hsession hclosing
  refine ⟨s, mid.world, hs.trans hconfig, hprevious, by rw [hlogin], ?_, ?_⟩
  · rw [← hconfig, ← hkept]
    exact hsession
  · rw [hlogin, ← hworld]
    exact hclosing

/-- A recovery that succeeds ends with a login that has succeeded. -/
theorem recover_eq_ok (h : recover server attempts run = (.ok (), run')) :
    ∃ s w e, Recovers server attempts run run' s w e := by
  have hsame : IsTrans (ConnectionRun σ) fun run run' => run'.connection.config = run.connection.config :=
    ⟨fun _ _ _ h h' => h'.trans h⟩
  rcases recover_induction (R := fun run run' => run'.connection.config = run.connection.config)
      (fun _ _ hquiet => hquiet.config) (fun hfailed => (relogin_login hfailed).1) h with
    ⟨-, s, hres⟩ | ⟨mid, e, after, hconfig, hok, last, hresume, rfl⟩
  · cases hres
  obtain ⟨s, w, hrecovers⟩ := recovers_of_relogin hconfig hok hresume
  exact ⟨s, w, e, hrecovers⟩

end ConnectionM

end TdsSession
