import TdsSession.Proofs.Login.Course
import TdsSession.Script.Server

/-!
# Renewing the budget with a token at hand

Whether a login has a token, and whether its budget has been renewed because of
it, is kept in one flag for the whole login, not for each attempt. The flag
always says what the trace says (`tokenRetry_of_mem_course`), so the budget is
renewed after an attempt that ran out of time exactly if any attempt of the
login has got a token before, and the budget has not been renewed yet.
-/

namespace TdsSession

variable {σ : Type}

namespace Event

def isTokenObtained : Event → Bool
  | .tokenObtained _ => true
  | _ => false

end Event

/-- What has happened since a login began last, newest event first. -/
def sinceBegan (trace : List (Moment × Event)) : List (Moment × Event) :=
  trace.takeWhile fun e => e.2 != .began

/-- As long as no other login begins, all that is added comes after what has happened in this one. -/
theorem sinceBegan_grows {P : Event → Prop} {old new : List (Moment × Event)}
    (h : Grows (fun e => P e ∧ e ≠ .began) old new) : Grows P (sinceBegan old) (sinceBegan new) := by
  obtain ⟨added, rfl, hadded⟩ := h
  have hkept : ∀ e ∈ added, (e.2 != .began) = true := fun e he => bne_iff_ne.mpr (hadded e he).2
  refine ⟨added, ?_, fun e he => (hadded e he).1⟩
  unfold sinceBegan
  rw [List.takeWhile_append_of_pos hkept]

theorem sinceBegan_suffix {old new : List (Moment × Event)} (h : Grows (· ≠ .began) old new) :
    sinceBegan old <:+ sinceBegan new :=
  (sinceBegan_grows (P := fun _ => True) (h.mono fun _ he => ⟨trivial, he⟩)).suffix

/-- A token has been got. -/
def GotToken (events : List (Moment × Event)) : Prop := ∃ e ∈ events, e.2.isTokenObtained

instance (events : List (Moment × Event)) : Decidable (GotToken events) :=
  inferInstanceAs (Decidable (∃ e ∈ events, _))

/-- The budget has been renewed. -/
def WasRenewed (events : List (Moment × Event)) : Prop := ∃ e ∈ events, e.2 = .restarted

theorem gotToken_append {later earlier : List (Moment × Event)} :
    GotToken (later ++ earlier) ↔ GotToken later ∨ GotToken earlier := by
  simp only [GotToken, List.mem_append, or_and_right, exists_or]

theorem gotToken_cons_connected {t : Moment} {n : Nat} {target : Target} {timeout : Option Span}
    {earlier : List (Moment × Event)} :
    GotToken ((t, .connected n target timeout) :: earlier) ↔ GotToken earlier := by
  simp [GotToken, Event.isTokenObtained]

namespace Connects

variable {run mid : LoginRun σ} {target : Target} {timeout : Option Span}

/-- What has happened over a connection came after all that had happened before in the same login. -/
theorem sinceBegan_eq (h : Connects run mid target timeout) :
    sinceBegan mid.world.trace = sinceConnected mid.world.trace ++
      (run.world.now, .connected (run.world.connects + 1) target timeout) :: sinceBegan run.world.trace := by
  have hbegan : ∀ e ∈ sinceConnected mid.world.trace, (e.2 != .began) = true := fun e he =>
    bne_iff_ne.mpr (h.over_of_mem_sinceConnected he).ne_began
  rw [h.trace_eq, sinceBegan, List.takeWhile_append_of_pos hbegan, List.takeWhile_cons_of_pos rfl, ← h.trace_eq]
  rfl

/-- A login has got a token once an attempt is over, if the attempt got it or it was got before. -/
theorem gotToken_iff (h : Connects run mid target timeout) :
    GotToken (sinceBegan mid.world.trace) ↔
      GotToken (sinceConnected mid.world.trace) ∨ GotToken (sinceBegan run.world.trace) := by
  rw [h.sinceBegan_eq, gotToken_append, gotToken_cons_connected]

end Connects

namespace TokenRetry

/-- The flag says that the budget has been renewed exactly if it has been. -/
theorem ofTrace_eq_retrying_iff (trace : List (Moment × Event)) :
    ofTrace trace = .retrying ↔ WasRenewed (sinceBegan trace) := by
  unfold WasRenewed sinceBegan
  induction trace with
  | nil => simp [ofTrace]
  | cons e older ih =>
    obtain ⟨t, e⟩ := e
    by_cases hb : e = .began
    · subst hb
      simp [ofTrace]
    rw [List.takeWhile_cons_of_pos (by simpa using hb)]
    simp only [List.mem_cons, exists_eq_or_imp]
    rw [← ih]
    cases e with
    | began => exact absurd rfl hb
    | restarted => simp [ofTrace]
    | tokenObtained n =>
      simp only [ofTrace]
      cases ofTrace older <;> simp [withToken]
    | _ => simp [ofTrace]

/-- The flag says that there is a token exactly if one has been got and the budget has not been renewed. -/
theorem ofTrace_eq_hasToken_iff (trace : List (Moment × Event)) :
    ofTrace trace = .hasToken ↔ GotToken (sinceBegan trace) ∧ ¬ WasRenewed (sinceBegan trace) := by
  rw [← ofTrace_eq_retrying_iff]
  unfold GotToken sinceBegan
  induction trace with
  | nil => simp [ofTrace]
  | cons e older ih =>
    obtain ⟨t, e⟩ := e
    by_cases hb : e = .began
    · subst hb
      simp [ofTrace]
    rw [List.takeWhile_cons_of_pos (by simpa using hb)]
    simp only [List.mem_cons, exists_eq_or_imp]
    cases e with
    | began => exact absurd rfl hb
    | restarted => simp [ofTrace]
    | tokenObtained n =>
      simp only [ofTrace, Event.isTokenObtained]
      cases ofTrace older <;> simp [withToken]
    | _ => simpa [ofTrace, Event.isTokenObtained] using ih

end TokenRetry

namespace LoginM

variable {x : LoginContext σ} {plan : LoginPlan} {run run' mid : LoginRun σ} {r r' : RoundStart σ}

/-- A round keeps the flag in step with the trace. -/
theorem tokenRetry_of_before (h : r.Before x r') (hr : r.run.tokenRetry = .ofTrace r.run.world.trace) :
    r'.run.tokenRetry = .ofTrace r'.run.world.trace := by
  obtain ⟨ended, mid, ha, hc⟩ := before_cases h
  have hmid := (RoundFrame.roundAttempt ha).token hr
  generalize r.plan = plan, r'.plan = plan', r'.run = run' at hc
  cases hc with
  | routed => exact hmid
  | renewed => rfl
  | slept => exact hmid
  | switched => exact hmid
  | alternated => exact hmid
  | sleptAlternated => exact hmid

/-- The budget is renewed after an attempt exactly if a token is at hand and the attempt ran out of time. -/
theorem round_eq_restarted_iff {e : Error} (ha : roundAttempt x plan run = (.ok (.failed e), mid)) :
    (round x plan run).2 = mid.restarted ↔ mid.Renews e := by
  rw [round, Op.bind_of_ok ha]
  constructor
  · intro h
    by_cases he : mid.Renews e
    · exact he
    exfalso
    have htrace := (settle_of_not_renews x plan he).trace
    rw [h] at htrace
    rcases htrace.cons_suffix_cases (List.suffix_refl _) with ⟨hsleep, -⟩ | hs
    · exact hsleep
    · exact not_cons_suffix (List.suffix_refl _) hs
  · intro he
    rw [settle_of_renews he]

/-- Only a round that renews the budget notes that it does. -/
theorem restarted_of_round {t : Moment} {older : List (Moment × Event)}
    (h : (t, .restarted) :: older <:+ (round x plan run).2.world.trace) (hnew : run.world.trace <:+ older) :
    ∃ e mid, roundAttempt x plan run = (.ok (.failed e), mid) ∧ mid.Renews e ∧
      mid.world.trace = older ∧ mid.world.now = t := by
  have attempt {r : Except Stop RoundEnd} {mid : LoginRun σ} (ha : roundAttempt x plan run = (r, mid)) :
      ¬ (t, .restarted) :: older <:+ mid.world.trace := fun hs => by
    rcases attempt_event ha hs hnew with (hover | hover) | ⟨-, target, timeout, -, heq⟩
    · exact hover
    · cases hover
    · cases heq
  rcases ha : roundAttempt x plan run with ⟨s | ended, mid⟩
  · rw [round, Op.bind_of_error ha] at h
    exact absurd h (attempt ha)
  rw [round, Op.bind_of_ok ha] at h
  cases ended with
  | failed e =>
    by_cases he : mid.Renews e
    · rw [settle_of_renews he] at h
      rcases List.suffix_cons_iff.mp h with heq | h
      · cases heq
        exact ⟨e, mid, rfl, he, rfl, rfl⟩
      · exact absurd h (attempt ha)
    · rcases (settle_of_not_renews x plan he).trace.cons_suffix_cases h with ⟨hsleep, -⟩ | h
      · exact hsleep.elim
      · exact absurd h (attempt ha)
  | opened e =>
    rw [settle_opened_snd] at h
    exact absurd h (attempt ha)
  | routed target => exact absurd h (attempt ha)

/-- An attempt that ran out of time has connected. -/
theorem connects_of_isTimeout {e : Error} (ha : roundAttempt x plan run = (.ok (.failed e), mid))
    (he : e.isTimeout) : ∃ target timeout, Connects run mid target timeout := by
  refine connects_of_ok ha fun m hm => ?_
  cases hm
  cases he

end LoginM

namespace LoginStart

variable {s : LoginStart} {server : Server σ} {attempts : Nat} {w : World σ} {r : RoundStart σ}

/-- The flag says what the trace says, whenever a round starts. -/
theorem tokenRetry_of_mem_course (h : r ∈ s.course server attempts w) :
    r.run.tokenRetry = .ofTrace r.run.world.trace :=
  course_induction (P := fun r => r.run.tokenRetry = .ofTrace r.run.world.trace) (fun _ _ => rfl)
    (fun _ _ hr hbefore => LoginM.tokenRetry_of_before hbefore hr) h

/-- Every renewal of the budget is that of a round whose attempt ran out of time with a token at hand. -/
theorem round_of_restarted {t : Moment} {older : List (Moment × Event)}
    (h : (t, .restarted) :: older <:+ (login server attempts s w).2.world.trace) (hnew : w.trace <:+ older) :
    ∃ r ∈ s.course server attempts w, ∃ e mid,
      LoginM.roundAttempt (s.context server) r.plan r.run = (.ok (.failed e), mid) ∧ mid.Renews e ∧
        mid.world.trace = older ∧ mid.world.now = t := by
  obtain ⟨r, hr, hsuffix, hround⟩ := round_of_event (by rintro ⟨⟩) (by rintro ⟨⟩) h hnew
  exact ⟨r, hr, LoginM.restarted_of_round hround hsuffix⟩

/-- After an attempt the budget is renewed exactly if the attempt ran out of time, the login has got a token
in any of its attempts, and the budget has not been renewed before. -/
theorem renews_iff {e : Error} {mid : LoginRun σ} (h : r ∈ s.course server attempts w)
    (ha : LoginM.roundAttempt (s.context server) r.plan r.run = (.ok (.failed e), mid)) :
    mid.Renews e ↔ e.isTimeout ∧ GotToken (sinceBegan mid.world.trace) ∧
      ¬ WasRenewed (sinceBegan mid.world.trace) := by
  have hflag := (RoundFrame.roundAttempt ha).token (tokenRetry_of_mem_course h)
  unfold LoginRun.Renews
  rw [hflag, TokenRetry.ofTrace_eq_hasToken_iff]
  exact and_comm

end LoginStart

/-- After an attempt that ran out of time, the budget is renewed exactly if the login has got a token since
it began and the budget has not been renewed since; and every renewal follows such an attempt. The attempt
that ran out of time need not be the one that got the token: the budget is renewed after an attempt without
a token of its own exactly if an earlier attempt got one. -/
theorem renewed_iff_gotToken (server : Server σ) (attempts : Nat) (s : LoginStart) (w : World σ) :
    (∀ t older, (t, Event.restarted) :: older <:+ (login server attempts s w).2.world.trace →
      w.trace <:+ older →
      ∃ r ∈ s.course server attempts w, ∃ e mid,
        LoginM.roundAttempt (s.context server) r.plan r.run = (.ok (.failed e), mid) ∧
          mid.world.trace = older ∧ mid.world.now = t ∧ e.isTimeout ∧ GotToken (sinceBegan older) ∧
            ¬ WasRenewed (sinceBegan older)) ∧
    (∀ r ∈ s.course server attempts w, ∀ e mid,
      LoginM.roundAttempt (s.context server) r.plan r.run = (.ok (.failed e), mid) →
      ((LoginM.round (s.context server) r.plan r.run).2 = mid.restarted ↔
        e.isTimeout ∧ GotToken (sinceBegan mid.world.trace) ∧ ¬ WasRenewed (sinceBegan mid.world.trace)) ∧
      ((LoginM.round (s.context server) r.plan r.run).2 = mid.restarted ∧
          ¬ GotToken (sinceConnected mid.world.trace) ↔
        e.isTimeout ∧ GotToken (sinceBegan r.run.world.trace) ∧ ¬ GotToken (sinceConnected mid.world.trace) ∧
          ¬ WasRenewed (sinceBegan mid.world.trace))) := by
  constructor
  · intro t older h hnew
    obtain ⟨r, hr, e, mid, ha, hrenews, rfl, rfl⟩ := LoginStart.round_of_restarted h hnew
    exact ⟨r, hr, e, mid, ha, rfl, rfl, (LoginStart.renews_iff hr ha).mp hrenews⟩
  · intro r hr e mid ha
    have hrenewed := (LoginM.round_eq_restarted_iff ha).trans (LoginStart.renews_iff hr ha)
    refine ⟨hrenewed, ?_⟩
    rw [hrenewed]
    constructor
    · rintro ⟨⟨he, htoken, honce⟩, hown⟩
      obtain ⟨target, timeout, hconnects⟩ := LoginM.connects_of_isTimeout ha he
      exact ⟨he, (hconnects.gotToken_iff.mp htoken).resolve_left hown, hown, honce⟩
    · rintro ⟨he, hearlier, hown, honce⟩
      obtain ⟨target, timeout, hconnects⟩ := LoginM.connects_of_isTimeout ha he
      exact ⟨⟨he, hconnects.gotToken_iff.mpr (.inr hearlier), honce⟩, hown⟩

/-! ## A renewal without a token -/

/-- A login with a token from a provider. -/
def federatedLogin : LoginStart where
  config := { server := .ofHost "primary", credentials := .federated .directoryDefault none none }

/-- A server that asks for a token and is busy then, does not answer the second time, and lets everybody in
after that. -/
def busyWorld : World LoginScript where
  server :=
    { queue :=
        [.respond [.fedAuthInfo ⟨"https://sts", "sql"⟩, .error 40613 14 "busy", .doneError] false, .hang]
      fallback := .success [] }
  providers := [(.directoryDefault, .fixed ⟨"token", Span.ofSeconds 3600⟩)]

/-- What has happened before the budget is renewed there. -/
def beforeRenewal : List (Moment × Event) :=
  (login (LineFaults.server {}) 3 federatedLogin busyWorld).2.world.trace.drop 9

theorem busyWorld_renewed : ∃ r ∈ federatedLogin.course (LineFaults.server {}) 3 busyWorld, ∃ e mid,
    LoginM.roundAttempt (federatedLogin.context (LineFaults.server {})) r.plan r.run = (.ok (.failed e), mid) ∧
      mid.world.now = 15000000000 ∧ e.isTimeout ∧
      (LoginM.round (federatedLogin.context (LineFaults.server {})) r.plan r.run).2 = mid.restarted := by
  obtain ⟨hevents, hrounds⟩ := renewed_iff_gotToken (LineFaults.server {}) 3 federatedLogin busyWorld
  obtain ⟨r, hr, e, mid, ha, htrace, hnow, he, htoken, honce⟩ :=
    hevents 15000000000 beforeRenewal (by decide +kernel) (by decide +kernel)
  rw [← htrace] at htoken honce
  exact ⟨r, hr, e, mid, ha, hnow, he, (hrounds r hr e mid ha).1.mpr ⟨he, htoken, honce⟩⟩

/-- The second attempt has got no token of its own and runs out of time. The budget is renewed, and a third
attempt is made when all of it has passed. -/
theorem renewed_without_token :
    (15000000000, Event.restarted) :: beforeRenewal <:+
        (login (LineFaults.server {}) 3 federatedLogin busyWorld).2.world.trace ∧
      ¬ GotToken (sinceConnected beforeRenewal) ∧
      (login (LineFaults.server {}) 3 federatedLogin busyWorld).2.world.connections =
        [(0, "primary", some 15000000000), (100000000, "primary", some 14900000000),
          (15000000000, "primary", some 15000000000)] := by
  refine ⟨by decide +kernel, by decide +kernel, by decide +kernel⟩

end TdsSession
