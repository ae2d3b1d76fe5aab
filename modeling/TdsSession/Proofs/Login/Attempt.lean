import TdsSession.Login.Attempt
import TdsSession.Proofs.Operation
import TdsSession.Proofs.Time.Wait

/-!
# What an attempt does

An attempt makes its connection at once, and then goes on in small steps over
that connection: it notes an event, waits, asks a provider, or takes over what
it has learned. `AttemptStep` lists these steps, and `timedAttempt_cases` says
that an attempt is a sequence of them, however it ends. Whatever every step
keeps is then kept by the whole attempt.
-/

namespace TdsSession

open Relation (ReflTransGen)
open Op (Keeps)

/-! ## Asking a provider -/

/-- A provider is asked for no longer than the timer allows. -/
theorem inTime_askProvider (p : AcquirePolicy) (r : TokenRequest) (until? : Option Moment) (timer : Timer)
    {cutoff patience : Option Moment} (ht : timer.limit = earlier cutoff patience)
    (throttled : Nat) (backoff : Span) (now : Moment) (left : List ProviderAnswer) :
    InTime cutoff now (askProvider p r until? timer throttled backoff now left).now := by
  have ready {now t : Moment} {delay : Option Span} (h : timer.wait now delay = .ready t) :
      InTime cutoff now t := by
    rw [Timer.wait, ht] at h
    exact .of_ready h
  have cut {now t : Moment} {delay : Option Span} (h : timer.wait now delay = .cut t) :
      InTime cutoff now t := by
    rw [Timer.wait, ht] at h
    exact .of_cut h
  fun_induction askProvider p r until? timer throttled backoff now left with
  | case1 => exact .refl _
  | case2 _ _ _ _ _ _ h => exact cut h
  | case3 => exact .refl _
  | case4 _ _ _ _ _ _ h => exact ready h
  | case5 _ _ _ _ _ _ h => exact ready h
  | case6 _ _ _ _ _ _ h => exact ready h
  | case7 _ _ _ _ _ _ h _ _ _ _ _ _ _ _ hs ih => exact (ready h).trans ((ready hs).trans ih)
  | case8 _ _ _ _ _ _ h _ _ _ _ _ _ _ _ hs => exact (ready h).trans (cut hs)
  | case9 _ _ _ _ _ _ h => exact ready h

theorem inTime_acquire (p : AcquirePolicy) (r : TokenRequest) (until? : Option Moment) (timer : Timer)
    {cutoff patience : Option Moment} (ht : timer.limit = earlier cutoff patience) (now : Moment)
    (provider : Provider) : InTime cutoff now (provider.acquire p r until? timer now).1.now := by
  cases provider with
  | fixed token => exact .refl _
  | answers left =>
    show InTime cutoff now (acquireToken p r until? timer now left).now
    unfold acquireToken
    split
    · exact .refl _
    · exact inTime_askProvider p r until? timer ht ..

/-! ## Events -/

namespace Event

/-- The event of a sleep. -/
def isSleep : Event → Prop
  | .slept _ => True
  | _ => False

/-- The event of asking a provider for a token. -/
def ofAcquisition : Event → Prop
  | .asked _ | .slept _ => True
  | _ => False

/-- The event of a call over connection `n`, or of asking a provider for a token. -/
def ofCall (n : Nat) : Event → Prop
  | .asked _ | .slept _ => True
  | .handshake k .. | .acknowledged k _ | .login k .. | .token k .. | .disconnected k _ => k = n
  | _ => False

/-- The event of an attempt over connection `n` that has connected, other than getting a token. -/
def ofAttempt (n : Nat) : Event → Prop
  | .received k _ | .answered k => k = n
  | e => e.ofCall n

theorem ofAcquisition.ofCall {n : Nat} {e : Event} (h : e.ofAcquisition) : e.ofCall n := by
  cases e <;> first | exact h | exact h.elim

theorem ofCall.ofAttempt {n : Nat} {e : Event} (h : e.ofCall n) : e.ofAttempt n := by
  cases e <;> first | exact h | exact h.elim

end Event

/-! ## The world -/

/-- One step in the world before `deadline`: an event that `P` allows is noted, or time goes by. -/
inductive WorldStep (P : Event → Prop) (deadline : Option Moment) : World σ → World σ → Prop
  | noted (w : World σ) (e : Event) (he : P e) : WorldStep P deadline w (w.record e)
  | waited (w : World σ) (t : Moment) (ht : InTime deadline w.now t) :
      WorldStep P deadline w { w with now := t }

namespace WorldM

variable {σ α : Type} {P : Event → Prop} {deadline : Option Moment}

theorem note_keeps {e : Event} (he : P e) :
    Keeps (ReflTransGen (WorldStep P deadline)) (note e : WorldM σ Unit) :=
  fun w => .single (.noted w e he)

theorem ofExcept_keeps (r : Except Error α) :
    Keeps (ReflTransGen (WorldStep P deadline)) (ofExcept r : WorldM σ α) := by
  cases r with
  | ok a => exact Keeps.pure a
  | error e => exact Keeps.throw _

theorem wait_keeps (delay : Option Span) :
    Keeps (ReflTransGen (WorldStep P deadline)) (wait delay deadline : WorldM σ Unit) := by
  intro w
  unfold wait
  rw [Op.bind_of_ok (Op.get_apply w)]
  rcases h : waitFrom w.now delay (earlier deadline w.patience) with t | t | _
  · exact .single (.waited w t (.of_ready h))
  · exact .single (.waited w t (.of_cut h))
  · exact .refl

theorem call_keeps {t : Transport} {answer : Call α} {event : Bool → Event} (he : ∀ d, P (event d)) :
    Keeps (ReflTransGen (WorldStep P deadline)) (call t answer event deadline : WorldM σ α) :=
  (note_keeps (he _)).bind fun _ => (wait_keeps _).bind fun _ => ofExcept_keeps _

theorem handshake_keeps (t : Transport) (request : HandshakeRequest) :
    Keeps (ReflTransGen (WorldStep (Event.ofCall t.number) deadline))
      (handshake t request deadline : WorldM σ HandshakeAnswer) := by
  refine Keeps.bind (call_keeps fun d => ?_) fun ack => ?_
  · exact rfl
  refine Keeps.bind (note_keeps ?_) fun _ => Keeps.pure ack
  exact rfl

theorem sendLogin_keeps (t : Transport) (request : LoginRequest) :
    Keeps (ReflTransGen (WorldStep (Event.ofCall t.number) deadline))
      (sendLogin t request deadline : WorldM σ Unit) :=
  call_keeps fun _ => rfl

theorem sendToken_keeps (t : Transport) (token : Bytes) :
    Keeps (ReflTransGen (WorldStep (Event.ofCall t.number) deadline))
      (sendToken t token deadline : WorldM σ Unit) :=
  call_keeps fun _ => rfl

theorem discard_notes {t : Transport} (ht : ∀ d, P (.disconnected t.number d)) :
    Keeps (ReflTransGen (WorldStep P deadline)) (discard t deadline : WorldM σ Unit) := by
  refine Keeps.tryCatch ?_ fun s => ?_
  · unfold disconnect
    split
    · exact call_keeps ht
    · exact Keeps.pure _
  · cases s with
    | failed e => exact Keeps.pure _
    | cut => exact Keeps.throw _
    | abandoned => exact Keeps.throw _
    | overflow => exact Keeps.throw _
    | exhausted => exact Keeps.throw _

theorem discard_keeps (t : Transport) :
    Keeps (ReflTransGen (WorldStep (Event.ofCall t.number) deadline))
      (discard t deadline : WorldM σ Unit) :=
  discard_notes fun _ => rfl

end WorldM

/-! ## Steps of an attempt -/

/-- One step of an attempt over connection `n` that is cut off at `deadline`. -/
inductive AttemptStep (P : Event → Prop) (n : Nat) (deadline : Option Moment) :
    LoginRun σ → LoginRun σ → Prop
  | inWorld (run : LoginRun σ) (w : World σ) (h : WorldStep P deadline run.world w) :
      AttemptStep P n deadline run { run with world := w }
  | entered (run : LoginRun σ) (phase : LoginPhase) : AttemptStep P n deadline run { run with phase }
  /-- A provider is asked until `t`, and the cache takes note. -/
  | asked (run : LoginRun σ) (events : List (Moment × Event)) (t : Moment) (providers : ProviderRegistry)
      (cache : TokenCache) (he : ∀ e ∈ events, P e.2) (ht : InTime deadline run.world.now t) :
      AttemptStep P n deadline run
        { run with
          world := { run.world with now := t, trace := events ++ run.world.trace, providers }
          group := { run.group with cache } }
  | lookedUp (run : LoginRun σ) (cache : TokenCache) :
      AttemptStep P n deadline run { run with group := { run.group with cache } }
  | named (run : LoginRun σ) (partner : Option String) : AttemptStep P n deadline run { run with partner }
  | gotToken (run : LoginRun σ) : AttemptStep P n deadline run (run.withToken n)

theorem AttemptStep.mono {P Q : Event → Prop} {n : Nat} {deadline : Option Moment} {run run' : LoginRun σ}
    (hPQ : ∀ e, P e → Q e) (h : AttemptStep P n deadline run run') : AttemptStep Q n deadline run run' := by
  cases h with
  | inWorld w h =>
    refine .inWorld run w ?_
    cases h with
    | noted e he => exact .noted _ e (hPQ e he)
    | waited t ht => exact .waited _ t ht
  | entered phase => exact .entered run phase
  | asked events t providers cache he ht =>
    exact .asked run events t providers cache (fun e h => hPQ e.2 (he e h)) ht
  | lookedUp cache => exact .lookedUp run cache
  | named partner => exact .named run partner
  | gotToken => exact .gotToken run

theorem AttemptStep.ofAttempt {n : Nat} {deadline : Option Moment} {run run' : LoginRun σ}
    (h : ReflTransGen (AttemptStep (Event.ofCall n) n deadline) run run') :
    ReflTransGen (AttemptStep (Event.ofAttempt n) n deadline) run run' :=
  ReflTransGen.mono (fun _ _ => .mono fun _ => Event.ofCall.ofAttempt) run run' h

namespace LoginM

variable {σ α : Type} {P : Event → Prop} {n : Nat} {deadline : Option Moment}

theorem inWorld_keeps {m : WorldM σ α} (h : Keeps (ReflTransGen (WorldStep P deadline)) m) :
    Keeps (ReflTransGen (AttemptStep P n deadline)) (inWorld m) := by
  refine Keeps.inWorld h fun run w hw => ?_
  exact hw.lift (fun w => { run with world := w }) fun w w' hstep =>
    AttemptStep.inWorld { run with world := w } w' hstep

theorem enter_keeps (phase : LoginPhase) :
    Keeps (ReflTransGen (AttemptStep P n deadline)) (enter phase : LoginM σ Unit) :=
  fun run => .single (.entered run phase)

/-- What happened while a provider was asked is asking and sleeping. -/
theorem recordAcquisition_eq (r : TokenRequest) (w : World σ) (course : Acquisition) :
    ∃ events, recordAcquisition r w course = { w with now := course.now, trace := events ++ w.trace } ∧
      (∀ e ∈ events, e.2.ofAcquisition) ∧
      ∀ t span, (t, .slept span) ∈ events → .slept t span ∈ course.events := by
  refine ⟨_, rfl, fun e he => ?_, fun t span hs => ?_⟩
  · obtain ⟨a, -, ha⟩ := List.mem_filterMap.mp (List.mem_reverse.mp he)
    cases a <;> cases ha <;> trivial
  · obtain ⟨a, hmem, ha⟩ := List.mem_filterMap.mp (List.mem_reverse.mp hs)
    cases a <;> cases ha
    exact hmem

/-- A provider that is not there leaves the login as it is; one that is asked takes time and lets the client
sleep, and the cache takes note of what it says. -/
theorem acquire_snd (p : AttemptPlan) (method : AuthMethod) (r : TokenRequest) (until? : Option Moment)
    (key : CacheKey) (claim : CacheClaim) (run : LoginRun σ) :
    (acquire p method r until? key claim run).2 = run ∨
      ∃ events t providers cache, (acquire p method r until? key claim run).2 =
          { run with
            world := { run.world with now := t, trace := events ++ run.world.trace, providers }
            group := { run.group with cache } } ∧
        (∀ e ∈ events, e.2.ofAcquisition) ∧ InTime p.deadline run.world.now t ∧
        ∀ t span, (t, .slept span) ∈ events → ∃ provider : Provider,
          .slept t span ∈ (provider.acquire p.config.acquisition r until?
            { limit := earlier p.deadline run.world.patience } run.world.now).1.events := by
  unfold acquire
  rw [Op.bind_of_ok (Op.get_apply run)]
  rcases hprovider : (run.world.providers.resolve method).mapError Error.authentication with e | provider
  · exact .inl rfl
  rw [Op.bind_of_ok (LoginM.ofExcept_ok_apply provider run)]
  have ht := inTime_acquire p.config.acquisition r until?
    { limit := earlier p.deadline run.world.patience } rfl run.world.now provider
  rcases hcourse : provider.acquire p.config.acquisition r until? { limit := earlier p.deadline run.world.patience }
    run.world.now with ⟨course, provider'⟩
  rw [hcourse] at ht
  obtain ⟨events, hw, he, hslept⟩ := recordAcquisition_eq r
    { run.world with providers := Table.set run.world.providers method provider' } course
  have hs (t : Moment) (span : Span) (h : (t, .slept span) ∈ events) : ∃ provider : Provider,
      .slept t span ∈ (provider.acquire p.config.acquisition r until?
        { limit := earlier p.deadline run.world.patience } run.world.now).1.events :=
    ⟨provider, by rw [hcourse]; exact hslept t span h⟩
  simp only [hw]
  rcases hended : course.ended with outcome | _ | _ | _
  · simp only []
    rw [Op.bind_of_ok (Op.set_apply ..), LoginM.ofExcept_snd]
    exact .inr ⟨events, _, _, _, rfl, he, ht, hs⟩
  · exact .inr ⟨events, _, _, _, rfl, he, ht, hs⟩
  · exact .inr ⟨events, _, _, _, rfl, he, ht, hs⟩
  · exact .inl rfl

theorem acquire_keeps (p : AttemptPlan) (method : AuthMethod) (r : TokenRequest) (until? : Option Moment)
    (key : CacheKey) (claim : CacheClaim) :
    Keeps (ReflTransGen (AttemptStep (Event.ofCall n) n p.deadline))
      (acquire p method r until? key claim : LoginM σ BearerToken) := by
  intro run
  rcases acquire_snd p method r until? key claim run with hsame | ⟨events, t, providers, cache, hsnd, he, ht, -⟩
  · rw [hsame]
  · rw [hsnd]
    exact .single (.asked run events t providers cache (fun e h => (he e h).ofCall) ht)

theorem fetchToken_keeps (p : AttemptPlan) (method : AuthMethod) (info : FedAuthInfo) :
    Keeps (ReflTransGen (AttemptStep (Event.ofCall n) n p.deadline))
      (fetchToken p method info : LoginM σ BearerToken) := by
  refine (Keeps.askBudget _).bind fun until? => ?_
  intro run
  rw [Op.bind_of_ok (Op.get_apply run)]
  simp only []
  rw [Op.bind_of_ok (Op.set_apply ..)]
  refine ReflTransGen.head (AttemptStep.lookedUp run
    (run.group.cache.lookUp ⟨info.stsUrl, info.spn⟩ run.world.wallTime).1) ?_
  rcases (run.group.cache.lookUp ⟨info.stsUrl, info.spn⟩ run.world.wallTime).2 with token | claim
  · exact .refl
  · exact acquire_keeps p method _ until? _ _ _

theorem showToken_keeps (p : AttemptPlan) (t : Transport) (info : FedAuthInfo) :
    Keeps (ReflTransGen (AttemptStep (Event.ofCall t.number) t.number p.deadline))
      (showToken p t info : LoginM σ Unit) := by
  unfold showToken
  split
  · exact Keeps.fail _
  · refine (fetchToken_keeps p _ info).bind fun token => ?_
    refine Keeps.bind (fun run => .single (.gotToken run)) fun _ => ?_
    exact inWorld_keeps (WorldM.sendToken_keeps t _)

theorem notePartner_keeps (r : Response) :
    Keeps (ReflTransGen (AttemptStep P n deadline)) (notePartner r : LoginM σ Unit) :=
  fun run => .single (.named run _)

/-- Reading goes on record by record; nothing is received over another connection. -/
theorem readResponse_keeps (p : AttemptPlan) (t : Transport) (records : List (Delayed Record)) (r : Response) :
    Keeps (ReflTransGen (AttemptStep (Event.ofAttempt t.number) t.number p.deadline))
      (readResponse p t records r : LoginM σ (Response × List (Delayed Record))) := by
  induction records generalizing r with
  | nil =>
    refine (inWorld_keeps (WorldM.wait_keeps _)).bind fun _ => ?_
    exact (Keeps.ofExcept _).bind fun _ => Keeps.fail _
  | cons record rest ih =>
    refine (inWorld_keeps (WorldM.wait_keeps _)).bind fun _ => ?_
    refine (inWorld_keeps (WorldM.note_keeps ?_)).bind fun _ => ?_
    · exact rfl
    split
    · exact Keeps.fail _
    · exact (notePartner_keeps _).bind fun _ => ih _
    · refine (inWorld_keeps (WorldM.note_keeps ?_)).bind fun _ => Keeps.pure _
      exact rfl
    · refine Keeps.bind ?_ fun _ => ih _
      exact (showToken_keeps p t _).mono fun _ _ => AttemptStep.ofAttempt

theorem conclude_keeps (p : AttemptPlan) (t : Transport) (r : Response) :
    Keeps (ReflTransGen (AttemptStep (Event.ofCall t.number) t.number p.deadline))
      (conclude p t r : LoginM σ AttemptEnd) := by
  have discarded : Keeps (ReflTransGen (AttemptStep (Event.ofCall t.number) t.number p.deadline))
      (inWorld (WorldM.discard t p.deadline) : LoginM σ Unit) := inWorld_keeps (WorldM.discard_keeps t)
  unfold conclude
  dsimp only
  split
  · exact discarded.bind fun _ => Keeps.fail _
  split
  · exact discarded.bind fun _ => Keeps.pure _
  split
  · exact Keeps.fail _
  split
  · exact Keeps.fail _
  · exact Keeps.pure _

theorem logIn_keeps (p : AttemptPlan) (t : Transport) :
    Keeps (ReflTransGen (AttemptStep (Event.ofAttempt t.number) t.number p.deadline))
      (logIn p t : LoginM σ AttemptEnd) := by
  have ofCall {β : Type} {m : LoginM σ β}
      (h : Keeps (ReflTransGen (AttemptStep (Event.ofCall t.number) t.number p.deadline)) m) :
      Keeps (ReflTransGen (AttemptStep (Event.ofAttempt t.number) t.number p.deadline)) m :=
    h.mono fun _ _ => AttemptStep.ofAttempt
  refine (enter_keeps _).bind fun _ => ?_
  refine (ofCall (inWorld_keeps (WorldM.handshake_keeps t _))).bind fun ack => ?_
  refine Keeps.get.bind fun run => ?_
  refine (enter_keeps _).bind fun _ => ?_
  refine (ofCall (inWorld_keeps (WorldM.sendLogin_keeps t _))).bind fun _ => ?_
  refine (enter_keeps _).bind fun _ => ?_
  refine (readResponse_keeps p t _ _).bind fun read => ?_
  exact ofCall (conclude_keeps p { t with line := { t.line with records := read.2 } } read.1)

end LoginM

/-! ## The whole attempt -/

/-- The login when an attempt has just begun to connect. -/
def LoginRun.connecting (run : LoginRun σ) (server : Server σ) (p : AttemptPlan) : LoginRun σ :=
  { run with
    phase := .connecting
    world :=
      { run.world.record (.connected (run.world.connects + 1) p.target p.timeout) with
        server := (server.connect run.world.server (run.world.connects + 1) p.target p.timeout).2
        connects := run.world.connects + 1 } }

namespace LoginM

variable {σ : Type}

/-- A provider that has to be there is not there, or nothing comes of this check. -/
theorem requireProvider_cases (p : AttemptPlan) (run : LoginRun σ) :
    requireProvider p run = (.ok (), run) ∨
      ∃ m : AuthMethod, p.provided = some m ∧
        requireProvider p run = (.error (.failed (.authentication (.unsupportedMethod m.toText))), run) := by
  unfold requireProvider
  rcases p.provided with _ | m
  · exact .inl rfl
  · simp only []
    rw [Op.bind_of_ok (Op.get_apply run)]
    unfold ProviderRegistry.resolve
    rcases Table.find? run.world.providers m with _ | provider
    · exact .inr ⟨m, rfl, rfl⟩
    · exact .inl rfl

/-- What is left of connecting once the attempt has been noted. -/
def awaitLine (answer : Delayed (Except Error Line)) (n : Nat) (deadline : Option Moment) :
    WorldM σ Transport := do
  WorldM.wait answer.delay deadline
  let line ← WorldM.ofExcept answer.value
  return { number := n, line }

/-- The transport that is got is open, and has the number of its connection. -/
theorem transport_of_awaitLine {answer : Delayed (Except Error Line)} {n : Nat} {deadline : Option Moment}
    {run run' : LoginRun σ} {t : Transport} (h : inWorld (awaitLine answer n deadline) run = (.ok t, run')) :
    t.number = n ∧ t.isOpen = true := by
  rw [inWorld_apply, Prod.mk.injEq] at h
  obtain ⟨_, w₁, -, h⟩ := Op.bind_eq_ok.mp (Prod.ext h.1 rfl)
  obtain ⟨line, w₂, -, h⟩ := Op.bind_eq_ok.mp h
  cases h
  exact ⟨rfl, rfl⟩

theorem awaitLine_keeps {P : Event → Prop} (answer : Delayed (Except Error Line)) (n : Nat)
    (deadline : Option Moment) :
    Keeps (ReflTransGen (WorldStep P deadline)) (awaitLine answer n deadline : WorldM σ Transport) :=
  (WorldM.wait_keeps _).bind fun _ => (WorldM.ofExcept_keeps _).bind fun _ => Keeps.pure _

/-- An attempt ends at once if its provider is missing. Otherwise it connects, and logs in over a new
connection. -/
theorem attempt_apply (server : Server σ) (p : AttemptPlan) (run : LoginRun σ) :
    (∃ m : AuthMethod, attempt server p run =
      (.error (.failed (.authentication (.unsupportedMethod m.toText))), run)) ∨
    ∃ answer, attempt server p run =
      (inWorld (awaitLine answer (run.world.connects + 1) p.deadline) >>= logIn p)
        (run.connecting server p) := by
  unfold attempt
  rcases requireProvider_cases p run with hok | ⟨m, -, herror⟩
  · right
    refine ⟨(server.connect run.world.server (run.world.connects + 1) p.target p.timeout).1, ?_⟩
    rw [Op.bind_of_ok hok, Op.bind_of_ok (enter_apply ..)]
    rfl
  · left
    exact ⟨m, Op.bind_of_error herror _⟩

/-- An attempt goes on in steps over its connection, however it ends. -/
theorem attempt_cases (server : Server σ) (p : AttemptPlan) (run : LoginRun σ) :
    (∃ m : AuthMethod, attempt server p run =
      (.error (.failed (.authentication (.unsupportedMethod m.toText))), run)) ∨
    ReflTransGen (AttemptStep (Event.ofAttempt (run.world.connects + 1)) (run.world.connects + 1) p.deadline)
      (run.connecting server p) (attempt server p run).2 := by
  rcases attempt_apply server p run with hmissing | ⟨answer, happly⟩
  · exact .inl hmissing
  right
  have hsteps : Keeps (ReflTransGen (AttemptStep (Event.ofAttempt (run.world.connects + 1))
      (run.world.connects + 1) p.deadline))
      (inWorld (awaitLine answer (run.world.connects + 1) p.deadline) : LoginM σ Transport) :=
    inWorld_keeps (awaitLine_keeps answer _ p.deadline)
  rw [happly, Op.bind_apply]
  rcases h : inWorld (awaitLine answer (run.world.connects + 1) p.deadline) (run.connecting server p) with
    ⟨e | t, mid⟩
  · exact hsteps.of_eq h
  · have hlogIn := logIn_keeps p t mid
    rw [(transport_of_awaitLine h).1] at hlogIn
    exact (hsteps.of_eq h).trans hlogIn

/-- How an attempt ends under its time limit. -/
theorem timedAttempt_apply (server : Server σ) (p : AttemptPlan) (run : LoginRun σ) :
    timedAttempt server p run = match attempt server p run with
      | (.ok ended, mid) => (.ok (.ok ended), mid)
      | (.error (.failed e), mid) => (.ok (.error e), mid)
      | (.error .cut, mid) => (.ok (.error (.connectTimeout p.target.toText)), mid)
      | (.error s, mid) => (.error s, mid) := by
  unfold timedAttempt
  rw [Op.tryCatch_apply, Op.map_apply]
  rcases attempt server p run with ⟨s | a, mid⟩
  · cases s <;> rfl
  · rfl

/-- The time limit changes how an attempt ends, and not in which state. -/
theorem timedAttempt_snd (server : Server σ) (p : AttemptPlan) (run : LoginRun σ) :
    (timedAttempt server p run).2 = (attempt server p run).2 := by
  rw [timedAttempt_apply]
  rcases attempt server p run with ⟨s | ended, mid⟩
  · cases s <;> rfl
  · rfl

end LoginM

end TdsSession
