import TdsSession.Proofs.Connection.Relogin
import TdsSession.Proofs.Login.Encryption

/-!
# What is announced before a login

A handshake says whether the login that follows will show a token. The login
announces that token, and it requests features: authentication by token, and
session recovery if it carries a session over. All this comes of the options,
but not of the same parts of them, so the two requests need not agree
(`LoginRequest.Agrees`). They do exactly if no provider is to issue a token for
the one method that is not federated, and if the options request session
recovery where a session is carried over (`requests_agree_iff`).
-/

namespace TdsSession

variable {σ : Type}

/-! ## One handshake and one login -/

/-- A login agrees with the handshake before it: both say whether a token will be shown, and the features that the
login requests are those it uses. -/
structure LoginRequest.Agrees (q : LoginRequest) (h : HandshakeRequest) : Prop where
  announced : q.fedAuth.isSome = h.fedAuth
  requested : q.features.contains Feature.fedAuth.flag = h.fedAuth
  carriesOver : q.recovery.isSome → q.features.contains Feature.sessionRecovery.flag

instance (q : LoginRequest) (h : HandshakeRequest) : Decidable (q.Agrees h) :=
  decidable_of_iff (q.fedAuth.isSome = h.fedAuth ∧ q.features.contains Feature.fedAuth.flag = h.fedAuth ∧
      (q.recovery.isSome → q.features.contains Feature.sessionRecovery.flag))
    ⟨fun hparts => ⟨hparts.1, hparts.2.1, hparts.2.2⟩,
      fun hagrees => ⟨hagrees.announced, hagrees.requested, hagrees.carriesOver⟩⟩

namespace Config

/-- A login announces a token exactly if the credentials are federated, unless the token is to be issued by the method
that is not. -/
theorem announces_iff (c : Config) :
    (AttemptPlan.showCredentials c.credentials).2.2.isSome = c.credentials.isFederated ↔
      ∀ user secret, c.credentials ≠ .federated .sqlPassword user secret := by
  rcases c.credentials with _ | _ | ⟨method, user, secret⟩
  · exact iff_of_true rfl fun _ _ heq => by cases heq
  · exact iff_of_true rfl fun _ _ heq => by cases heq
  · show true = (method != .sqlPassword) ↔ _
    rw [eq_comm, bne_iff_ne]
    exact ⟨fun hne _ _ heq => by cases heq; exact hne rfl, fun h heq => h user secret (by rw [heq])⟩

end Config

/-- The event of a request that is made by the options `c`, as to what a handshake and a login may disagree on. -/
def Event.madeBy (c : Config) (recovery : Option Bytes) : Event → Prop
  | .handshake _ h _ => h.fedAuth = c.credentials.isFederated
  | .login _ q _ =>
    q.fedAuth = (AttemptPlan.showCredentials c.credentials).2.2 ∧ q.features = c.loginFeatures ∧ q.recovery = recovery
  | _ => True

theorem Event.AsksNothing.madeBy {c : Config} {recovery : Option Bytes} {e : Event} (h : e.AsksNothing) :
    e.madeBy c recovery := by
  cases e with
  | handshake => cases h.handshake
  | login => cases h.login
  | _ => trivial

/-! ## The requests of a run -/

/-- The handshake `h` has been sent over connection `n`, and later the login `q`. -/
def Negotiated (n : Nat) (h : HandshakeRequest) (q : LoginRequest) (events : List (Moment × Event)) : Prop :=
  ∃ t t' asked sent older, (t', .login n q sent) :: older <:+ events ∧ (t, .handshake n h asked) ∈ older

/-- Every login comes after a handshake over its connection, and the two agree exactly if `p` holds. In any case
authentication by token is requested exactly if the handshake has said that a token will be shown. -/
structure AgreesIff (p : Prop) (events : List (Moment × Event)) : Prop where
  follows : ∀ t n q sent, (t, .login n q sent) ∈ events → ∃ h, Negotiated n h q events
  requested : ∀ n h q, Negotiated n h q events → q.features.contains Feature.fedAuth.flag = h.fedAuth
  agrees : ∀ n h q, Negotiated n h q events → (q.Agrees h ↔ p)

theorem AgreesIff.nil {p : Prop} : AgreesIff p [] := by
  have hnone {n : Nat} {h : HandshakeRequest} {q : LoginRequest} (hpair : Negotiated n h q []) : False := by
    obtain ⟨_, _, _, _, _, hlogin, -⟩ := hpair
    cases List.suffix_nil.mp hlogin
  exact ⟨fun _ _ _ _ hlogin => absurd hlogin List.not_mem_nil, fun _ _ _ hpair => (hnone hpair).elim,
    fun _ _ _ hpair => (hnone hpair).elim⟩

/-- All requests are made by the options `c`, and every login comes after a handshake over its connection. -/
structure Announces (c : Config) (recovery : Option Bytes) (events : List (Moment × Event)) : Prop where
  follows : ∀ t n q sent older, (t, .login n q sent) :: older <:+ events →
    ∃ t' h asked, (t', .handshake n h asked) ∈ older
  madeBy : ∀ e ∈ events, e.2.madeBy c recovery

namespace Announces

variable {c : Config} {recovery : Option Bytes} {later earlier events : List (Moment × Event)}

theorem of_asksNothing (h : ∀ e ∈ events, e.2.AsksNothing) : Announces c recovery events where
  follows _ _ _ _ _ hlogin := by cases (h _ (hlogin.subset List.mem_cons_self)).login
  madeBy e he := (h e he).madeBy

theorem append (hlater : Announces c recovery later) (hearlier : Announces c recovery earlier) :
    Announces c recovery (later ++ earlier) where
  follows t n q sent older hlogin := by
    rcases cons_suffix_append_cases hlogin with ⟨between, hbetween, rfl⟩ | hafter
    · obtain ⟨t', h, asked, hmem⟩ := hlater.follows t n q sent between hbetween
      exact ⟨t', h, asked, List.mem_append_left _ hmem⟩
    · exact hearlier.follows t n q sent older hafter
  madeBy := List.forall_mem_append.mpr ⟨hlater.madeBy, hearlier.madeBy⟩

/-- Requests that are made by the options agree exactly if the options have a token issued by a federated method only,
and request session recovery where a session is carried over. -/
theorem agreesIff (h : Announces c recovery events) :
    AgreesIff ((∀ user secret, c.credentials ≠ .federated .sqlPassword user secret) ∧
      (recovery.isSome → c.retry.recoveries ≠ 0 ∧ c.features.contains Feature.sessionRecovery.flag)) events := by
  have hmade {n : Nat} {h' : HandshakeRequest} {q : LoginRequest} (hpair : Negotiated n h' q events) :
      h'.fedAuth = c.credentials.isFederated ∧ q.fedAuth = (AttemptPlan.showCredentials c.credentials).2.2 ∧
        q.features = c.loginFeatures ∧ q.recovery = recovery := by
    obtain ⟨t, t', asked, sent, older, hlogin, hhandshake⟩ := hpair
    exact ⟨h.madeBy _ (hlogin.subset (List.mem_cons_of_mem _ hhandshake)),
      h.madeBy _ (hlogin.subset List.mem_cons_self)⟩
  have hrequested {n : Nat} {h' : HandshakeRequest} {q : LoginRequest} (hpair : Negotiated n h' q events) :
      q.features.contains Feature.fedAuth.flag = h'.fedAuth := by
    obtain ⟨hfedAuth, -, hfeatures, -⟩ := hmade hpair
    rw [hfeatures, Config.loginFeatures_fedAuth, hfedAuth]
  refine ⟨fun t n q sent hlogin => ?_, fun n h' q => hrequested, fun n h' q hpair => ?_⟩
  · obtain ⟨newer, older, hsplit⟩ := List.append_of_mem hlogin
    have hsuffix : (t, .login n q sent) :: older <:+ events := hsplit ▸ List.suffix_append ..
    obtain ⟨t', h', asked, hmem⟩ := h.follows t n q sent older hsuffix
    exact ⟨h', t', t, asked, sent, older, hsuffix, hmem⟩
  · obtain ⟨hfedAuth, hannouncement, hfeatures, hrecovery⟩ := hmade hpair
    have hcarries : q.features.contains Feature.sessionRecovery.flag = true ↔
        c.retry.recoveries ≠ 0 ∧ c.features.contains Feature.sessionRecovery.flag = true := by
      rw [hfeatures, Config.loginFeatures_sessionRecovery, Bool.and_eq_true, bne_iff_ne]
    rw [← c.announces_iff, ← hannouncement, ← hfedAuth, ← hrecovery, ← hcarries]
    exact ⟨fun hagrees => ⟨hagrees.announced, hagrees.carriesOver⟩,
      fun hparts => ⟨hparts.1, hrequested hpair, hparts.2⟩⟩

end Announces

/-! ## Logins and recoveries -/

/-- A login comes after the handshake over its connection. -/
theorem Requests.handshake_of_login {p : AttemptPlan} {n k : Nat} {added older : List (Moment × Event)} {t : Moment}
    {q : LoginRequest} {sent : Bool} (h : Requests p n added) (he : (t, .login k q sent) :: older <:+ added) :
    ∃ t' asked, (t', .handshake k p.handshake asked) ∈ older := by
  rcases h.event_cases he with ⟨_, _, heq, -⟩ | ⟨t', _, _, asked, _, _, ⟨heq, -⟩ | heq | ⟨hnothing, -⟩⟩
  · cases heq
  · cases heq
  · cases heq
    exact ⟨t', asked, List.mem_cons_of_mem _ List.mem_cons_self⟩
  · cases hnothing.login

namespace LoginStart

variable {s : LoginStart} {server : Server σ} {attempts : Nat} {w : World σ}

/-- The requests of a login are made by its options. -/
theorem announces_of_login (server : Server σ) (attempts : Nat) (s : LoginStart) (w : World σ) :
    ∃ added, (login server attempts s w).2.world.trace = added ++ w.trace ∧ Announces s.config s.recovery added := by
  obtain ⟨added, htrace⟩ : w.trace <:+ (login server attempts s w).2.world.trace :=
    (List.suffix_cons ..).trans (login_grows server attempts s w).suffix
  have hin {e : Moment × Event} {older : List (Moment × Event)} (he : e :: older <:+ added) :
      e :: (older ++ w.trace) <:+ (login server attempts s w).2.world.trace := by
    rw [← htrace, ← List.cons_append]
    exact List.suffix_append_self_iff.mpr he
  refine ⟨added, htrace.symm, ⟨fun t n q sent older hlogin => ?_, fun e he => ?_⟩⟩
  · obtain ⟨p, n', requests, earlier, before, hasks, hearlier, hsplit, -⟩ :=
      asks_of_event (by rintro ⟨⟩) (by rintro ⟨⟩) (by rintro ⟨⟩) rfl (hin hlogin) (List.suffix_append ..)
    obtain ⟨t', asked, hmem⟩ := hasks.requests.handshake_of_login hearlier
    obtain ⟨between, rfl⟩ := hasks.new
    rw [← List.append_assoc] at hsplit
    rw [List.append_cancel_right hsplit]
    exact ⟨t', _, asked, List.mem_append_left _ hmem⟩
  · obtain ⟨newer, older, hsplit⟩ := List.append_of_mem he
    have hsuffix := hin (hsplit ▸ List.suffix_append newer (e :: older))
    obtain ⟨t, e⟩ := e
    cases e with
    | handshake n h asked =>
      obtain ⟨p, hconfig, rfl⟩ := handshake_of_event hsuffix (List.suffix_append ..)
      exact congrArg (·.credentials.isFederated) hconfig
    | login n q sent =>
      obtain ⟨target, -, rfl⟩ := login_of_event hsuffix (List.suffix_append ..)
      exact ⟨rfl, rfl, rfl⟩
    | _ => trivial

end LoginStart

namespace ConnectionM

variable {server : Server σ} {attempts : Nat} {previous : SessionState} {run run' : ConnectionRun σ}

/-- The requests of a login that carries a session over are made by the options of the connection. -/
theorem relogin_announces {res : Except Stop Established} (h : relogin server attempts previous run = (res, run')) :
    run'.connection.config = run.connection.config ∧ ∃ added, run'.world.trace = added ++ run.world.trace ∧
      Announces run.connection.config (some previous.recoveryRequest.write) added := by
  obtain ⟨hsame, s, hconfig, hs, after, hlogin, hworld⟩ := relogin_login h
  have hannounces := LoginStart.announces_of_login server attempts s run.world
  unfold LoginStart.recovery at hannounces
  rw [hlogin, hconfig, hs] at hannounces
  rw [hworld]
  exact ⟨hsame, hannounces⟩

/-- And so are those of all the logins of a recovery. -/
theorem relogins_announces {left : Nat} {res : Except Stop Unit}
    (h : relogins server attempts previous left run = (res, run')) :
    ∃ added, run'.world.trace = added ++ run.world.trace ∧
      Announces run.connection.config (some previous.recoveryRequest.write) added := by
  induction left generalizing run with
  | zero =>
    cases h
    exact ⟨[], rfl, .of_asksNothing (List.forall_mem_nil _)⟩
  | succ left ih =>
    rcases relogins_succ_cases h with ⟨e, mid, hlogin, hresume⟩ | ⟨s, hlogin, -⟩ | ⟨e, mid, hlogin, -, h⟩ <;>
      obtain ⟨hconfig, first, hfirst, hannounces⟩ := relogin_announces hlogin
    · have hclosing := resume_trace e mid
      rw [hresume] at hclosing
      obtain ⟨closing, hclosed, hquiet⟩ := hclosing
      refine ⟨closing ++ first, by rw [hclosed, hfirst, List.append_assoc], ?_⟩
      exact (Announces.of_asksNothing fun e he => (hquiet e he).asksNothing).append hannounces
    · exact ⟨first, hfirst, hannounces⟩
    have hpaused : Announces run.connection.config (some previous.recoveryRequest.write)
        ((mid.world.now, .slept mid.connection.config.retry.recoveryPause) :: first) :=
      (Announces.of_asksNothing (List.forall_mem_singleton.mpr ⟨rfl, rfl, rfl⟩)).append hannounces
    rcases h with ⟨s, hs, -⟩ | ⟨later, hs, h⟩ <;> obtain ⟨hslept, hsame⟩ := inWorld_eq hs <;>
      have hsleep := WorldM.sleep_trace hslept <;> rw [hfirst, ← List.cons_append] at hsleep
    · exact ⟨_, hsleep, hpaused⟩
    · obtain ⟨rest, hrest, hannounced⟩ := ih h
      rw [hsame, hconfig] at hannounced
      exact ⟨_, by rw [hrest, hsleep, List.append_assoc], hannounced.append hpaused⟩

/-- The requests of a recovery are made by the options of the connection, and there are none if sessions are not
recovered. -/
theorem recover_announces {res : Except Stop Unit} (h : recover server attempts run = (res, run')) :
    ∃ added, run'.world.trace = added ++ run.world.trace ∧
      Announces run.connection.config (some run.connection.session.state.recoveryRequest.write) added ∧
      (added = [] ∨ run.connection.config.retry.recoveries ≠ 0) := by
  have hnothing : Announces run.connection.config (some run.connection.session.state.recoveryRequest.write) [] :=
    .of_asksNothing (List.forall_mem_nil _)
  rcases recover_cases h with ⟨e, -, -, rfl⟩ | ⟨-, -, t, rfl⟩ | ⟨hrefusal, after, hlogins, rfl⟩
  · exact ⟨[], rfl, hnothing, .inl rfl⟩
  · exact ⟨[], rfl, hnothing, .inl rfl⟩
  · obtain ⟨added, htrace, hannounces⟩ := relogins_announces hlogins
    refine ⟨added, htrace, hannounces, .inr fun hnone => ?_⟩
    unfold Connection.refusal? at hrefusal
    rw [hnone] at hrefusal
    split at hrefusal <;> cases hrefusal

end ConnectionM

/-- Every login follows a handshake over its connection, and requests authentication by token exactly if that
handshake has said that a token will be shown. The two agree exactly if no token is to be issued by the one method
that is not federated, and if, where a session is carried over, the options recover sessions and request session
recovery. A recovery is refused unless the options recover sessions; of its logins the rest is true. -/
theorem requests_agree_iff (server : Server σ) (attempts : Nat) :
    (∀ s w, ∃ added, (login server attempts s w).2.world.trace = added ++ w.trace ∧
      AgreesIff ((∀ user secret, s.config.credentials ≠ .federated .sqlPassword user secret) ∧
        (s.previous.isSome → s.config.retry.recoveries ≠ 0 ∧
          s.config.features.contains Feature.sessionRecovery.flag)) added) ∧
    ∀ run res run', ConnectionM.recover server attempts run = (res, run') →
      ∃ added, run'.world.trace = added ++ run.world.trace ∧
        AgreesIff ((∀ user secret, run.connection.config.credentials ≠ .federated .sqlPassword user secret) ∧
          run.connection.config.features.contains Feature.sessionRecovery.flag) added := by
  constructor
  · intro s w
    obtain ⟨added, htrace, hannounces⟩ := LoginStart.announces_of_login server attempts s w
    have hrecovery : s.recovery.isSome = s.previous.isSome := Option.isSome_map
    have hagrees := hannounces.agreesIff
    rw [hrecovery] at hagrees
    exact ⟨added, htrace, hagrees⟩
  · intro run res run' h
    obtain ⟨added, htrace, hannounces, hrecovers⟩ := ConnectionM.recover_announces h
    refine ⟨added, htrace, ?_⟩
    rcases hrecovers with rfl | hrecovers
    · exact .nil
    · have hagrees := hannounces.agreesIff
      simp only [Option.isSome_some, forall_const, ne_eq, hrecovers, not_false_eq_true, true_and] at hagrees
      exact hagrees

/-- The requests of both logins that recover the session agree. -/
theorem slowRun_agrees :
    logins (ConnectionM.recover (LineFaults.server {}) 20 slowRun).2.world.trace = 2 ∧
      ∀ n h q, Negotiated n h q (ConnectionM.recover (LineFaults.server {}) 20 slowRun).2.world.trace → q.Agrees h := by
  refine ⟨by decide +kernel, fun n h q hpair => ?_⟩
  rcases hend : ConnectionM.recover (LineFaults.server {}) 20 slowRun with ⟨res, run'⟩
  rw [hend] at hpair
  obtain ⟨added, htrace, hagrees⟩ := (requests_agree_iff (LineFaults.server {}) 20).2 slowRun res run' hend
  rw [show slowRun.world.trace = [] from rfl, List.append_nil] at htrace
  rw [htrace] at hpair
  refine (hagrees.agrees n h q hpair).mpr ⟨fun user secret => ?_, by decide⟩
  rintro ⟨⟩

/-- A provider is to issue a token by the method that is not federated. -/
def passwordTokenLogin : LoginStart where
  config := { server := .ofHost "primary", credentials := .federated .sqlPassword (some "user") (some "secret") }

def passwordTokenWorld : World LoginScript where
  server := clearWorld.server
  providers := [(.sqlPassword, .fixed ⟨"token", Span.ofSeconds 3600⟩)]

/-- What happens when a connection is made and its session is recovered at once. -/
def recoveredTrace (c : Config) (w : World LoginScript) : List (Moment × Event) :=
  match Connection.connect (LineFaults.server {}) 2 c {} w with
  | (.ok connection, run) =>
    (ConnectionM.recover (LineFaults.server {}) 2 { world := run.world, connection }).2.world.trace
  | (.error _, run) => run.world.trace

/-- A token is announced in a login whose handshake has said that none will be shown. And where the options do not
request session recovery, a session is carried over all the same, in the login that follows the one that began it. -/
theorem requests_disagree :
    (let events := sinceConnected (login (LineFaults.server {}) 1 passwordTokenLogin passwordTokenWorld).2.world.trace
      ∃ h ∈ shown Event.handshake? events, ∃ q ∈ shown Event.login? events,
        h.fedAuth = false ∧ q.fedAuth = some .onRequest ∧ ¬ q.Agrees h) ∧
    let events := sinceConnected (recoveredTrace { server := .ofHost "primary", features := ⟨0⟩ } clearWorld)
    ∃ h ∈ shown Event.handshake? events, ∃ q ∈ shown Event.login? events,
      q.recovery.isSome ∧ q.features = ⟨0⟩ ∧ ¬ q.Agrees h := by
  constructor <;> decide +kernel

end TdsSession
