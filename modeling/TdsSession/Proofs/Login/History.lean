import TdsSession.Proofs.Login.Exchange
import TdsSession.Proofs.Login.Termination

/-!
# The history of a login

A login keeps what came of each attempt that has ended, and a round adds one
entry at most (`RoundStart.entry?`). After an entry the login goes on for one of
three reasons, which are those of `Continues`: the attempt was sent on, it
failed in a way that may pass, or the budget has been renewed. So all but the
last entry show such a reason, and only the last may show a success
(`history_accounted`).
-/

namespace TdsSession

open Op (Ends Keeps)

variable {σ : Type}

/-! ## Entries -/

/-- The attempt was sent on, or failed in a way that may pass. -/
def AttemptRecord.MayGoOn (a : AttemptRecord) : Prop :=
  a.routedTo.isSome ∨ a.error = some .transientServerError ∨ a.error = some .transport

/-- What came of an attempt, and whether the budget has been renewed after it. -/
structure HistoryEntry where
  attempt : AttemptRecord
  renewed : Bool
deriving DecidableEq

/-- There is a reason to go on after the attempt. -/
def HistoryEntry.GoesOn (a : HistoryEntry) : Prop :=
  a.attempt.succeeded = false ∧ (a.attempt.MayGoOn ∨ a.renewed = true)

/-- The budget is renewed after an attempt that ends like this in state `mid`. -/
def RoundEnd.renews (mid : LoginRun σ) : RoundEnd → Bool
  | .failed e => decide (mid.Renews e)
  | .opened _ | .routed _ => false

/-- What the round that starts at `r` adds to the history, if its attempt ends. -/
def RoundStart.entry? (x : LoginContext σ) (r : RoundStart σ) : Option HistoryEntry :=
  match LoginM.roundAttempt x r.plan r.run with
  | (.ok ended, mid) => mid.attempts.head?.map (⟨·, ended.renews mid⟩)
  | _ => none

/-- The history of a login with at most the given number of attempts, oldest entry first. -/
def LoginStart.entries (s : LoginStart) (server : Server σ) (attempts : Nat) (w : World σ) : List HistoryEntry :=
  (s.course server attempts w).filterMap (RoundStart.entry? (s.context server))

/-! ## Renewals -/

/-- How often a trace shows that the budget has been renewed. -/
def restarts (trace : List (Moment × Event)) : Nat := trace.countP fun e => decide (e.2 = .restarted)

theorem restarts_of_grows {old new : List (Moment × Event)} (h : Grows (· ≠ .restarted) old new) :
    restarts new = restarts old := by
  obtain ⟨added, rfl, hadded⟩ := h
  unfold restarts
  rw [List.countP_append, List.countP_eq_zero.mpr fun e he => by simpa using hadded e he, Nat.zero_add]

theorem Event.ofClosing.ne_restarted {e : Event} (h : e.ofClosing) : e ≠ .restarted := by
  rintro rfl
  exact h

theorem Event.over.ne_restarted {n : Nat} {e : Event} (h : e.over n) : e ≠ .restarted := by
  rintro rfl
  rcases h with h | h
  · exact h
  · cases h

namespace LoginM

variable {x : LoginContext σ} {plan : LoginPlan} {run mid run' : LoginRun σ}

/-- No attempt renews the budget. -/
theorem restarts_of_roundAttempt {r : Except Stop RoundEnd} (h : roundAttempt x plan run = (r, mid)) :
    restarts mid.world.trace = restarts run.world.trace := by
  rcases roundAttempt_connects h with ⟨hsame, -⟩ | ⟨target, timeout, -, hconnects⟩
  · rw [hsame]
  · refine restarts_of_grows ((Grows.cons ?_ _).trans (hconnects.trace.mono fun _ => Event.over.ne_restarted))
    rintro ⟨⟩

/-- What follows an attempt renews the budget exactly if the entry says so, and uses the only renewal up
then. -/
theorem renews_of_settle {ended : RoundEnd} {res : Except Stop Round} (h : settle x plan ended mid = (res, run')) :
    restarts run'.world.trace = restarts mid.world.trace + (if ended.renews mid then 1 else 0) ∧
      (if ended.renews mid then 1 else 0) + run'.renewalsLeft ≤ mid.renewalsLeft := by
  have hkept (hrun : run' = mid) : restarts run'.world.trace = restarts mid.world.trace + 0 ∧
      0 + run'.renewalsLeft ≤ mid.renewalsLeft := by
    rw [hrun, Nat.zero_add]
    exact ⟨rfl, Nat.le_refl _⟩
  cases ended with
  | opened e =>
    refine hkept ?_
    rw [← settle_opened_snd x plan e mid, h]
  | routed target =>
    cases h
    exact hkept rfl
  | failed e =>
    by_cases he : mid.Renews e
    · rw [settle_of_renews he] at h
      cases h
      obtain ⟨hbefore, hafter⟩ := LoginRun.renewalsLeft_of_renews he
      rw [hbefore, hafter, show (RoundEnd.failed e).renews mid = true from decide_eq_true he]
      exact ⟨List.countP_cons_of_pos rfl, Nat.le_refl 1⟩
    · have hframe := settle_of_not_renews x plan he
      have hfollows := settle_follows x plan (.failed e) mid
      rw [h] at hframe hfollows
      rw [show (RoundEnd.failed e).renews mid = false from decide_eq_false he, if_neg Bool.false_ne_true, Nat.zero_add]
      refine ⟨restarts_of_grows (hframe.trace.mono fun e hsleep => ?_), ?_⟩
      · rintro rfl
        exact hsleep
      · cases hfollows with
        | atOnce => exact Nat.le_refl _
        | renewed e he => exact Nat.zero_le _
        | slept span t hs ht hspan => exact Nat.le_refl _

end LoginM

/-! ## One round -/

namespace LoginM

variable {x : LoginContext σ} {plan plan' : LoginPlan} {run mid run' : LoginRun σ}

/-- The entry of an attempt that has ended is what has been recorded of it. -/
theorem entry?_of_attempts {ended : RoundEnd} {a : AttemptRecord} {rest : List AttemptRecord}
    (h : roundAttempt x plan run = (.ok ended, mid)) (hattempts : mid.attempts = a :: rest) :
    RoundStart.entry? x ⟨plan, run⟩ = some ⟨a, ended.renews mid⟩ := by
  unfold RoundStart.entry?
  rw [h]
  simp only [hattempts, List.head?_cons, Option.map_some]

theorem entry?_of_error {s : Stop} (h : roundAttempt x plan run = (.error s, mid)) :
    RoundStart.entry? x ⟨plan, run⟩ = none := by
  unfold RoundStart.entry?
  rw [h]

theorem phase_of_roundAttempt {ended : RoundEnd} (h : roundAttempt x plan run = (.ok ended, mid)) :
    mid.phase = ended.phase := by
  obtain ⟨aliases, source, timeout, res, after, last, -, -, -, -, rfl⟩ := roundAttempt_eq_ok h
  rfl

/-- An open session is at the target of its attempt. -/
theorem attempts_of_opened {e : Established} (h : roundAttempt x plan run = (.ok (.opened e), mid)) :
    mid.attempts = ⟨e.target, true, none, none⟩ :: run.attempts := by
  obtain ⟨aliases, source, timeout, res, after, last, -, -, hattempt, hleads, rfl⟩ := roundAttempt_eq_ok h
  cases hleads with
  | opened e =>
    rcases attempt_exchange hattempt with ⟨-, m, hm⟩ | ⟨added, htrace, -, -, hexchange⟩
    · cases hm
    obtain ⟨ack, r, t, -, -, -, -, rfl⟩ := hexchange.of_opened
    rcases attempt_frame hattempt with ⟨-, m, hm⟩ | hframe
    · cases hm
    · exact congrArg (_ :: ·) hframe.attempts

/-- A failure that may pass is of one of two kinds. -/
theorem mayGoOn_of_isTransient {e : Error} (source : Target) (h : e.isTransient) :
    ((RoundEnd.failed e).record source).MayGoOn := by
  unfold Error.isTransient at h
  rcases Bool.or_eq_true_iff.mp h with h | h
  · exact .inr (.inl (congrArg some (beq_iff_eq.mp h)))
  · exact .inr (.inr (congrArg some (beq_iff_eq.mp h)))

/-- Where a round is followed by another, its entry shows the reason. -/
theorem goesOn_of_continues {ended : RoundEnd} (h : Continues x mid plan ended plan' run') (source : Target) :
    (HistoryEntry.mk (ended.record source) (ended.renews mid)).GoesOn := by
  cases h with
  | routed _ target => exact ⟨rfl, .inl (.inl rfl)⟩
  | renewed _ e he => exact ⟨rfl, .inr (decide_eq_true he)⟩
  | slept p e he ht => exact ⟨rfl, .inl (mayGoOn_of_isTransient source ht)⟩
  | switched p e he ht => exact ⟨rfl, .inl (mayGoOn_of_isTransient source ht)⟩
  | alternated p e he ht => exact ⟨rfl, .inl (mayGoOn_of_isTransient source ht)⟩
  | sleptAlternated p e he ht => exact ⟨rfl, .inl (mayGoOn_of_isTransient source ht)⟩

/-- Only an attempt that has opened a session is followed by one that is open, and it is the same but for the
side that it is on. -/
theorem settle_eq_opened {ended : RoundEnd} {e : Established}
    (h : settle x plan ended mid = (.ok (.opened e), run')) :
    ∃ e₀ onPartner, ended = .opened e₀ ∧ e = { e₀ with onPartner } ∧ run' = mid := by
  have hno (hended : ended.Closes fun _ => False) : False := (settle_gives hended).value trivial h
  cases ended with
  | opened e₀ =>
    rcases settle_opened_cases x plan e₀ mid with ⟨-, hsettle⟩ | ⟨-, onPartner, hsettle⟩ <;> rw [hsettle] at h <;>
      cases h
    exact ⟨e₀, onPartner, rfl, rfl, rfl⟩
  | routed target => exact (hno trivial).elim
  | failed e => exact (hno trivial).elim

/-- A round that opens a session has made an attempt that opens it, over a connection of its own. -/
theorem round_eq_opened {e : Established} (h : round x plan run = (.ok (.opened e), run')) :
    ∃ e₀ onPartner target timeout, roundAttempt x plan run = (.ok (.opened e₀), run') ∧ e = { e₀ with onPartner } ∧
      Connects run run' target timeout := by
  obtain ⟨ended, mid, ha, hs⟩ := Op.bind_eq_ok.mp h
  obtain ⟨e₀, onPartner, rfl, rfl, rfl⟩ := settle_eq_opened hs
  obtain ⟨target, timeout, hconnects⟩ := connects_of_ok ha nofun
  exact ⟨e₀, onPartner, target, timeout, ha, rfl, hconnects⟩

/-- The session of a partner that names no partner itself is not taken. -/
theorem settle_opened_eq_error {e₀ : Established} {s : Stop}
    (h : settle x plan (.opened e₀) mid = (.error s, run')) :
    s = .failed (.invalidPartnerConfiguration partnerSilentReason) := by
  rcases settle_opened_cases x plan e₀ mid with ⟨-, hsettle⟩ | ⟨-, onPartner, hsettle⟩ <;> rw [hsettle] at h <;> cases h
  rfl

/-- From `run` to `run'`, the entry `a` has been added to the history. -/
structure Adds (c : Config) (run : LoginRun σ) (a : HistoryEntry) (run' : LoginRun σ) : Prop where
  attempts : run'.attempts = a.attempt :: run.attempts
  redirects : run'.redirects = run.redirects + (if a.attempt.routedTo.isSome then 1 else 0)
  limit : a.attempt.routedTo.isSome → run.redirects < c.redirect.limit
  renewed : (if a.renewed then 1 else 0) + run'.renewalsLeft ≤ run.renewalsLeft
  restarted : restarts run'.world.trace = restarts run.world.trace + (if a.renewed then 1 else 0)

/-- A round whose attempt ends adds an entry, whatever follows the attempt. -/
theorem round_adds {ended : RoundEnd} {res : Except Stop Round}
    (htoken : run.tokenRetry = .ofTrace run.world.trace) (ha : roundAttempt x plan run = (.ok ended, mid))
    (hs : settle x plan ended mid = (res, run')) :
    ∃ source, RoundStart.entry? x ⟨plan, run⟩ = some ⟨ended.record source, ended.renews mid⟩ ∧
      Adds x.config run ⟨ended.record source, ended.renews mid⟩ run' := by
  obtain ⟨source, hattempts, hredirects, hlimit⟩ := roundAttempt_recorded ha
  have hidles := (settle_follows x plan ended mid).idles
  rw [hs] at hidles
  obtain ⟨hrestarts, hrenewals⟩ := renews_of_settle hs
  refine ⟨source, entry?_of_attempts ha hattempts, ?_, ?_, hlimit, ?_, ?_⟩
  · exact hidles.attempts.trans hattempts
  · exact hidles.redirects.trans hredirects
  · exact Nat.le_trans hrenewals (renewalsLeft_le ha htoken)
  · rw [hrestarts, restarts_of_roundAttempt ha]

/-! ## Rounds in a row -/

/-- From `run` to `run'`, rounds that end with `res` have added `entries` to the history. -/
structure Accounts (c : Config) (run : LoginRun σ) (entries : List HistoryEntry)
    (res : Except Stop Established) (run' : LoginRun σ) : Prop where
  attempts : run'.attempts.reverse = run.attempts.reverse ++ entries.map (·.attempt)
  redirects : run'.redirects = run.redirects + entries.countP (·.attempt.routedTo.isSome)
  limit : run.redirects ≤ c.redirect.limit → run'.redirects ≤ c.redirect.limit
  goesOn : ∀ a ∈ entries.dropLast, a.GoesOn
  renewed : entries.countP (·.renewed) + run'.renewalsLeft ≤ run.renewalsLeft
  restarted : restarts run'.world.trace = restarts run.world.trace + entries.countP (·.renewed)
  opened : ∀ e, res = .ok e → run'.phase = .open ∧
    ∃ a, entries.getLast? = some a ∧ a.attempt.succeeded = true ∧ a.attempt.target = e.target
  failed : ∀ e, res = .error (.failed e) → ∀ a, entries.getLast? = some a → a.attempt.succeeded = true →
    ∃ reason, e = .invalidPartnerConfiguration reason

namespace Accounts

variable {c : Config} {a : HistoryEntry} {entries : List HistoryEntry} {res : Except Stop Established}

/-- A round whose attempt stops adds nothing. -/
theorem stopped {s : Stop} (hattempts : run'.attempts = run.attempts) (hredirects : run'.redirects = run.redirects)
    (hrenewals : run'.renewalsLeft ≤ run.renewalsLeft)
    (hrestarts : restarts run'.world.trace = restarts run.world.trace) : Accounts c run [] (.error s) run' where
  attempts := by rw [hattempts, List.map_nil, List.append_nil]
  redirects := hredirects
  limit := by
    rw [hredirects]
    exact id
  goesOn := List.forall_mem_nil _
  renewed := by
    rw [List.countP_nil, Nat.zero_add]
    exact hrenewals
  restarted := hrestarts
  opened _ he := by cases he
  failed _ _ a ha := by cases ha

/-- The last round of a login. -/
theorem last (h : Adds c run a run')
    (hopened : ∀ e, res = .ok e → run'.phase = .open ∧ a.attempt.succeeded = true ∧ a.attempt.target = e.target)
    (hfailed : ∀ e, res = .error (.failed e) → a.attempt.succeeded = true →
      ∃ reason, e = .invalidPartnerConfiguration reason) :
    Accounts c run [a] res run' where
  attempts := by rw [h.attempts, List.reverse_cons, List.map_singleton]
  redirects := by rw [h.redirects, List.countP_singleton]
  limit hle := by
    rw [h.redirects]
    split
    · rename_i hrouted
      exact h.limit hrouted
    · exact hle
  goesOn := List.forall_mem_nil _
  renewed := by
    rw [List.countP_singleton]
    exact h.renewed
  restarted := by
    rw [h.restarted, List.countP_singleton]
  opened e he := by
    obtain ⟨hphase, hsucceeded, htarget⟩ := hopened e he
    exact ⟨hphase, a, rfl, hsucceeded, htarget⟩
  failed e he a' ha' := by
    cases ha'
    exact hfailed e he

/-- A round that is followed by others. -/
theorem cons (h : Adds c run a mid) (ha : a.GoesOn) (hrest : Accounts c mid entries res run') :
    Accounts c run (a :: entries) res run' where
  attempts := by
    rw [hrest.attempts, h.attempts, List.reverse_cons, List.append_assoc, List.map_cons, List.singleton_append]
  redirects := by
    rw [hrest.redirects, h.redirects, List.countP_cons]
    omega
  limit hle := by
    refine hrest.limit ?_
    rw [h.redirects]
    split
    · rename_i hrouted
      exact h.limit hrouted
    · exact hle
  goesOn b hb := by
    cases entries with
    | nil => cases hb
    | cons next later =>
      rcases List.mem_cons.mp hb with rfl | hb
      · exact ha
      · exact hrest.goesOn b hb
  renewed := by
    have hfirst := h.renewed
    have hlater := hrest.renewed
    rw [List.countP_cons]
    omega
  restarted := by
    rw [hrest.restarted, h.restarted, List.countP_cons]
    omega
  opened e he := by
    obtain ⟨hphase, b, hb, hsucceeded⟩ := hrest.opened e he
    exact ⟨hphase, b, List.mem_getLast?_cons hb, hsucceeded⟩
  failed e he b hb hsucceeded := by
    cases entries with
    | nil =>
      obtain rfl : a = b := Option.some.inj hb
      rw [ha.1] at hsucceeded
      cases hsucceeded
    | cons next later => exact hrest.failed e he b hb hsucceeded

/-- After the rounds of a login no entry is added, and no session is opened. -/
theorem ended {res' : Except Stop Established} {run'' : LoginRun σ} (h : Accounts c run entries res run')
    (hattempts : run''.attempts = run'.attempts) (hredirects : run''.redirects = run'.redirects)
    (hretry : run''.tokenRetry = run'.tokenRetry)
    (hrestarts : restarts run''.world.trace = restarts run'.world.trace)
    (hopened : ∀ e, res' = .ok e → res = .ok e ∧ run''.phase = run'.phase)
    (hfailed : ∀ e, res' = .error (.failed e) →
      res = .error (.failed e) ∨ ∃ reason, e = .invalidPartnerConfiguration reason) :
    Accounts c run entries res' run'' where
  attempts := by rw [hattempts, h.attempts]
  redirects := by rw [hredirects, h.redirects]
  limit hle := by
    rw [hredirects]
    exact h.limit hle
  goesOn := h.goesOn
  renewed := by
    unfold LoginRun.renewalsLeft
    rw [hretry]
    exact h.renewed
  restarted := by rw [hrestarts, h.restarted]
  opened e he := by
    obtain ⟨hres, hphase⟩ := hopened e he
    rw [hphase]
    exact h.opened e hres
  failed e he a ha hsucceeded := (hfailed e he).elim (h.failed e · a ha hsucceeded) id

end Accounts

/-- Whatever a login comes to, its history accounts for it. -/
theorem rounds_accounts (x : LoginContext σ) (attempts : Nat) (plan : LoginPlan) (run : LoginRun σ)
    (htoken : run.tokenRetry = .ofTrace run.world.trace) :
    Accounts x.config run ((course x attempts plan run).filterMap (RoundStart.entry? x))
      (rounds x attempts plan run).1 (rounds x attempts plan run).2 := by
  induction attempts generalizing plan run with
  | zero => exact .stopped rfl rfl (Nat.le_refl _) rfl
  | succ attempts ih =>
    rw [rounds, course, Op.bind_apply]
    rcases ha : roundAttempt x plan run with ⟨s | ended, mid⟩
    · have hround : round x plan run = (.error s, mid) := Op.bind_of_error ha _
      obtain ⟨hattempts, hredirects⟩ := roundAttempt_unrecorded ha
      rw [hround, List.filterMap_cons, entry?_of_error ha]
      dsimp only
      exact .stopped hattempts hredirects (renewalsLeft_le ha htoken) (restarts_of_roundAttempt ha)
    rcases hs : settle x plan ended mid with ⟨res, run'⟩
    have hround : round x plan run = (res, run') := by rw [round, Op.bind_of_ok ha, hs]
    obtain ⟨source, hentry, hadds⟩ := round_adds htoken ha hs
    rw [hround, List.filterMap_cons, hentry]
    rcases res with s | e | plan' <;> dsimp only
    · refine .last hadds (fun e he => by cases he) fun e he hsucceeded => ?_
      cases ended with
      | opened e₀ =>
        cases he
        exact ⟨_, Stop.failed.inj (settle_opened_eq_error hs)⟩
      | routed target => cases hsucceeded
      | failed e => cases hsucceeded
    · obtain ⟨e₀, onPartner, rfl, rfl, rfl⟩ := settle_eq_opened hs
      refine .last hadds (fun e he => ?_) fun e he => by cases he
      cases he
      have hrecord := (List.cons.inj (hadds.attempts.symm.trans (attempts_of_opened ha))).1
      exact ⟨phase_of_roundAttempt ha, rfl, congrArg AttemptRecord.target hrecord⟩
    · have hbefore : RoundStart.Before x ⟨plan, run⟩ ⟨plan', run'⟩ := hround
      exact .cons hadds (goesOn_of_continues (settle_eq_again hs) source)
        (ih plan' run' (tokenRetry_of_before hbefore htoken))

/-! ## The whole login -/

end LoginM

/-- The reason is not a failure. -/
def Stop.IsOther (s : Stop) : Prop := ∀ e, s ≠ .failed e

/-- A wait that does not come to its end is cut off or given up. -/
theorem WorldM.wait_other (delay : Option Span) (deadline : Option Moment) :
    Op.Stops (fun _ => True) Stop.IsOther (wait delay deadline : WorldM σ Unit) := by
  intro w _
  rw [wait_apply]
  rcases waitFrom w.now delay (earlier deadline w.patience) with t | t | _
  · exact ⟨trivial, trivial⟩
  · refine ⟨trivial, ?_⟩
    show Stop.IsOther (cutReason deadline t)
    unfold cutReason
    split <;> exact nofun
  · exact ⟨trivial, nofun⟩

/-- Giving up a transport does not fail. -/
theorem WorldM.discard_other (t : Transport) (deadline : Option Moment) :
    Op.Stops (fun _ => True) Stop.IsOther (discard t deadline : WorldM σ Unit) := by
  have any : Op.Stops (fun _ => True) (fun _ => True) (disconnect t deadline : WorldM σ Unit) :=
    fun w _ => ⟨trivial, by split <;> trivial⟩
  refine any.tryCatch fun s _ => ?_
  cases s with
  | failed e => exact Ends.pure trivial
  | cut => exact Ends.throw nofun
  | abandoned => exact Ends.throw nofun
  | overflow => exact Ends.throw nofun
  | exhausted => exact Ends.throw nofun

/-- Giving up a session marks the login as failed, and comes to the conflict if it comes to an end. -/
theorem LoginM.refuse_apply (e : Established) (conflict : Error) (run : LoginRun σ) :
    ∃ s w, refuse e conflict run = (.error s, { run with phase := .failedFatal, world := w }) ∧
      (∀ e', s = .failed e' → e' = conflict) ∧ Grows Event.ofClosing run.world.trace w.trace := by
  have htrace : Grows Event.ofClosing run.world.trace (WorldM.discard e.transport none run.world).2.trace :=
    WorldStep.grows (WorldM.discard_notes (fun _ => trivial) run.world)
  unfold refuse
  rw [Op.bind_of_ok (enter_apply ..), Op.bind_apply, inWorld_apply]
  rcases hdiscard : WorldM.discard e.transport none run.world with ⟨s | ⟨⟩, w⟩ <;> rw [hdiscard] at htrace <;>
    dsimp only
  · exact ⟨s, w, rfl, fun e' he => absurd he ((WorldM.discard_other e.transport none).reason trivial hdiscard e'),
      htrace⟩
  · exact ⟨_, w, rfl, fun e' he => by cases he; rfl, htrace⟩

theorem Established.eq_of_partnerConflict? {e : Established} {c : Config} {conflict : Error}
    (h : e.partnerConflict? c = some conflict) : ∃ reason, conflict = .invalidPartnerConfiguration reason := by
  unfold partnerConflict? at h
  split at h
  · cases h
  split at h
  · cases h
    exact ⟨_, rfl⟩
  split at h <;> cases h
  exact ⟨_, rfl⟩

/-- The history accounts for what the rounds of a login lead to, and a failure is marked as such. -/
theorem LoginM.establish_accounts {x : LoginContext σ} {attempts : Nat} {plan : LoginPlan} {run : LoginRun σ}
    (hx : x.config.partnersConflict = false) (hplan : firstPlan x.config run = (.ok plan, run))
    (htoken : run.tokenRetry = .ofTrace run.world.trace) :
    Accounts x.config run ((course x attempts plan run).filterMap (RoundStart.entry? x))
        (establish x attempts run).1 (establish x attempts run).2 ∧
      ∀ e, (establish x attempts run).1 = .error (.failed e) → (establish x attempts run).2.phase = .failedFatal := by
  have haccounts := rounds_accounts x attempts plan run htoken
  have hall : allRounds x attempts run = rounds x attempts plan run := Op.bind_of_ok hplan _
  rw [← hall] at haccounts
  rcases hrounds : allRounds x attempts run with ⟨t | e, run'⟩ <;> rw [hrounds] at haccounts
  · by_cases ht : ∃ e, t = .failed e
    · obtain ⟨e, rfl⟩ := ht
      rw [establish_of_failed hx hrounds]
      exact ⟨haccounts.ended rfl rfl rfl rfl (fun _ he => by cases he) fun _ he => .inl he, fun _ _ => rfl⟩
    · have ht (e : Error) : t ≠ .failed e := fun he => ht ⟨e, he⟩
      rw [establish_of_stopped ht hx hrounds]
      exact ⟨haccounts, fun e he => absurd (Except.error.inj he) (ht e)⟩
  · rw [establish_of_ok hx hrounds]
    rcases hconflict : e.partnerConflict? x.config with _ | conflict
    · exact ⟨haccounts, fun _ he => by cases he⟩
    · obtain ⟨t, w, hrefuse, ht, hclosing⟩ := refuse_apply e conflict run'
      have hrestarts := restarts_of_grows (hclosing.mono fun _ => Event.ofClosing.ne_restarted)
      obtain ⟨reason, hreason⟩ := Established.eq_of_partnerConflict? hconflict
      dsimp only
      rw [hrefuse]
      refine ⟨haccounts.ended rfl rfl rfl hrestarts (fun _ he => by cases he) fun e' he => .inr ⟨reason, ?_⟩,
        fun _ _ => rfl⟩
      rw [ht e' (Except.error.inj he), hreason]

namespace LoginStart

theorem restarts_cons_ended (t : Moment) (outcome : LoginOutcome) (trace : List (Moment × Event)) :
    restarts ((t, .ended outcome) :: trace) = restarts trace := List.countP_cons_of_neg (by simp)

/-- The history accounts for a login, and a login that fails is marked as failed. -/
theorem login_accounts (server : Server σ) (attempts : Nat) (s : LoginStart) (w : World σ) :
    LoginM.Accounts s.config (s.begun w) (s.entries server attempts w) (login server attempts s w).1
        (login server attempts s w).2 ∧
      ∀ e, (login server attempts s w).1 = .error (.failed e) →
        (login server attempts s w).2.phase = .failedFatal := by
  have hestablish : LoginM.Accounts s.config (s.begun w) (s.entries server attempts w)
        (LoginM.establish (s.context server) attempts (s.begun w)).1
        (LoginM.establish (s.context server) attempts (s.begun w)).2 ∧
      ∀ e, (LoginM.establish (s.context server) attempts (s.begun w)).1 = .error (.failed e) →
        (LoginM.establish (s.context server) attempts (s.begun w)).2.phase = .failedFatal := by
    unfold entries
    rcases hx : s.config.partnersConflict with _ | _
    · rcases LoginM.firstPlan_cases s.config (s.begun w) with ⟨plan, hplan⟩ | hover
      · rw [course_eq hx hplan]
        exact LoginM.establish_accounts (x := s.context server) hx hplan rfl
      · have hcourse : s.course server attempts w = [] := by
          unfold course
          rw [hx, hover]
          rfl
        rw [hcourse, LoginM.establish_of_stopped (x := s.context server) (fun _ he => by cases he) hx
          (allRounds_of_overflow hover)]
        exact ⟨.stopped rfl rfl (Nat.le_refl _) rfl, fun _ he => by cases he⟩
    · have hcourse : s.course server attempts w = [] := if_pos hx
      rw [hcourse]
      unfold LoginM.establish
      simp only [show (s.context server).config.partnersConflict = true from hx, if_true]
      exact ⟨.stopped rfl rfl (Nat.le_refl _) rfl, fun _ _ => rfl⟩
  obtain ⟨haccounts, hphase⟩ := hestablish
  rw [login_apply]
  rcases hend : LoginM.establish (s.context server) attempts (s.begun w) with ⟨t | e, run'⟩ <;>
    rw [hend] at haccounts hphase
  · cases t with
    | failed e =>
      exact ⟨haccounts.ended rfl rfl rfl (restarts_cons_ended ..) (fun _ he => by cases he) fun _ he => .inl he, hphase⟩
    | cut => exact ⟨haccounts, hphase⟩
    | abandoned => exact ⟨haccounts, hphase⟩
    | overflow => exact ⟨haccounts, hphase⟩
    | exhausted => exact ⟨haccounts, hphase⟩
  · exact ⟨haccounts.ended rfl rfl rfl (restarts_cons_ended ..) (fun _ he => ⟨he, rfl⟩) fun _ he => .inl he, hphase⟩

/-- The redirects that a login has followed are those of its history. -/
theorem redirects_eq (server : Server σ) (attempts : Nat) (s : LoginStart) (w : World σ) :
    (login server attempts s w).2.redirects =
      (login server attempts s w).2.attempts.countP (·.routedTo.isSome) := by
  obtain ⟨haccounts, -⟩ := login_accounts server attempts s w
  have hcount := congrArg (List.countP (·.routedTo.isSome)) haccounts.attempts
  rw [List.countP_reverse, List.countP_append, List.countP_map] at hcount
  rw [haccounts.redirects, hcount]
  rfl

/-- No more redirects are followed than the options allow. -/
theorem redirects_le (server : Server σ) (attempts : Nat) (s : LoginStart) (w : World σ) :
    (login server attempts s w).2.redirects ≤ s.config.redirect.limit :=
  (login_accounts server attempts s w).1.limit (Nat.zero_le _)

end LoginStart

/-- The history of a login accounts for it. After every attempt but the last there is a reason to go on: it
was sent on, or failed in a way that may pass, or it is the only one after which the budget has been renewed;
and none of them opened a session. If the login succeeds, the last attempt has opened the session. If it
fails, the last attempt has opened none, or there is a conflict about the partner. The redirects that have
been followed are those of the history, and no more than the options allow. -/
theorem history_accounted (server : Server σ) (attempts : Nat) (s : LoginStart) (w : World σ) :
    (login server attempts s w).2.attempts.reverse = (s.entries server attempts w).map (·.attempt) ∧
    (∀ a ∈ (s.entries server attempts w).dropLast,
      a.attempt.succeeded = false ∧ (a.attempt.MayGoOn ∨ a.renewed = true)) ∧
    restarts (login server attempts s w).2.world.trace =
      restarts w.trace + (s.entries server attempts w).countP (·.renewed) ∧
    (s.entries server attempts w).countP (·.renewed) ≤ 1 ∧
    (∀ e, (login server attempts s w).1 = .ok e → (login server attempts s w).2.phase = .open ∧
      ∃ a, (login server attempts s w).2.attempts.head? = some a ∧ a.succeeded = true ∧ a.target = e.target) ∧
    (∀ e, (login server attempts s w).1 = .error (.failed e) →
      (login server attempts s w).2.phase = .failedFatal ∧
      ∀ a, (login server attempts s w).2.attempts.head? = some a → a.succeeded = true →
        ∃ reason, e = .invalidPartnerConfiguration reason) ∧
    (login server attempts s w).2.redirects =
      (login server attempts s w).2.attempts.countP (·.routedTo.isSome) ∧
    (login server attempts s w).2.redirects ≤ s.config.redirect.limit := by
  obtain ⟨haccounts, hphase⟩ := LoginStart.login_accounts server attempts s w
  have hhistory : (login server attempts s w).2.attempts.reverse = (s.entries server attempts w).map (·.attempt) :=
    haccounts.attempts
  have hlast : (login server attempts s w).2.attempts.head? =
      (s.entries server attempts w).getLast?.map (·.attempt) := by
    rw [← List.getLast?_reverse, hhistory, List.getLast?_map]
  refine ⟨hhistory, haccounts.goesOn, haccounts.restarted, ?_, fun e he => ?_, fun e he => ?_,
    LoginStart.redirects_eq .., LoginStart.redirects_le ..⟩
  · exact Nat.le_trans (Nat.le_add_right ..) haccounts.renewed
  · obtain ⟨hopen, a, ha, hsucceeded, htarget⟩ := haccounts.opened e he
    refine ⟨hopen, a.attempt, ?_, hsucceeded, htarget⟩
    rw [hlast, ha]
    rfl
  · refine ⟨hphase e he, fun a ha hsucceeded => ?_⟩
    rw [hlast] at ha
    obtain ⟨b, hb, rfl⟩ := Option.map_eq_some_iff.mp ha
    exact haccounts.failed e he b hb hsucceeded

/-- A login that gets through in the third attempt, after a busy server and a renewal of the budget. -/
theorem busyWorld_accounted : ∃ entries : List HistoryEntry,
    (login (LineFaults.server {}) 3 federatedLogin busyWorld).2.attempts.reverse = entries.map (·.attempt) ∧
      (∀ a ∈ entries.dropLast, a.attempt.succeeded = false ∧ (a.attempt.MayGoOn ∨ a.renewed = true)) ∧
      entries.countP (·.renewed) = 1 ∧
      (login (LineFaults.server {}) 3 federatedLogin busyWorld).2.attempts.map (fun a => (a.succeeded, a.error)) =
        [(true, none), (false, some .transport), (false, some .transientServerError)] ∧
      (login (LineFaults.server {}) 3 federatedLogin busyWorld).2.phase = .open := by
  obtain ⟨hhistory, hgoesOn, hrestarts, -, hopened, -, -, -⟩ :=
    history_accounted (LineFaults.server {}) 3 federatedLogin busyWorld
  generalize federatedLogin.entries (LineFaults.server {}) 3 busyWorld = entries at hhistory hgoesOn hrestarts
  have hnone : restarts busyWorld.trace = 0 := rfl
  have hcount : restarts (login (LineFaults.server {}) 3 federatedLogin busyWorld).2.world.trace = 1 := by
    decide +kernel
  have hok : (login (LineFaults.server {}) 3 federatedLogin busyWorld).1.isOk := by decide +kernel
  rcases hend : (login (LineFaults.server {}) 3 federatedLogin busyWorld).1 with s | e
  · rw [hend] at hok
    cases hok
  rw [hcount, hnone, Nat.zero_add] at hrestarts
  exact ⟨entries, hhistory, hgoesOn, hrestarts.symm, by decide +kernel, (hopened e hend).1⟩

end TdsSession
