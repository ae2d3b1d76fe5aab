import TdsSession.Proofs.Login.Alternation
import TdsSession.Proofs.Login.History
import TdsSession.Proofs.Login.Rejection

/-!
# What earlier attempts leave behind

A login may make many attempts before the one that opens its session, at servers
that are not trusted. What it asks for and what it opens in the end does not
depend on them: the requests of an attempt follow from the options, the state of
the session to carry over and the target (`LoginStart.planFor`), and its session
follows from those, the answer to the handshake and the records of the response
(`LoginStart.responseTo`). Only the aliases that have been looked up are kept
from attempt to attempt, and no record reads them (`Response.advanceAll_bare`).
-/

namespace TdsSession

variable {σ : Type}

/-! ## Responses without aliases -/

/-- The state of a session without the aliases that have been looked up. -/
def SessionState.bare (s : SessionState) : SessionState := { s with aliases := [] }

namespace SessionState

theorem bare_recordSlot (s : SessionState) (r : StateRecord) : s.bare.recordSlot r = (s.recordSlot r).bare := by
  unfold recordSlot
  rw [apply_ite bare]
  rfl

theorem bare_record (s : SessionState) (payload : Bytes) : s.bare.record payload = (s.record payload).map bare := by
  unfold record
  rcases StateRecord.readAll payload with e | records
  · rfl
  · exact congrArg Except.ok (List.foldl_hom bare bare_recordSlot)

theorem bare_applySlot (sequence : UInt32) (recoverable : Bool) (s : SessionState) (r : StateRecord) :
    applySlot sequence recoverable s.bare r = (applySlot sequence recoverable s r).bare := by
  unfold applySlot
  dsimp only
  rw [apply_ite bare]
  rfl

theorem bare_apply (s : SessionState) (t : StateToken) : s.bare.apply t = (s.apply t).bare := by
  have hpool : (if t.sequence = StateToken.untracked then { s.bare with poolable := false } else s.bare) =
      (if t.sequence = StateToken.untracked then { s with poolable := false } else s).bare := by
    rw [apply_ite bare]
    rfl
  unfold apply
  dsimp only
  rw [hpool, List.foldl_hom bare (bare_applySlot t.sequence t.recoverable)]
  rfl

theorem bare_reset (s : SessionState) : s.bare.reset = s.reset.bare := by
  unfold reset
  rw [apply_ite bare]
  rfl

end SessionState

/-- A loop commutes with a map of states that its steps commute with. -/
theorem foldlM_map {ε α β : Type} {g : β → β} {f : β → α → Except ε β} (h : ∀ b a, f (g b) a = (f b a).map g)
    (as : List α) (b : β) : as.foldlM f (g b) = (as.foldlM f b).map g := by
  induction as generalizing b with
  | nil => rfl
  | cons a as ih =>
    rw [List.foldlM_cons, List.foldlM_cons, h]
    rcases f b a with e | b'
    · rfl
    · exact ih b'

/-- The response without the aliases that have been looked up. -/
def Response.bare (r : Response) : Response := { r with session := r.session.bare }

/-- The step without the aliases that have been looked up. -/
def ResponseStep.bare : ResponseStep → ResponseStep
  | .more r => .more r.bare
  | .complete r => .complete r.bare
  | .wantsToken info => .wantsToken info

namespace Response

theorem bare_takeLoginAck (r : Response) (ack : LoginAck) :
    r.bare.takeLoginAck ack = (r.takeLoginAck ack).map bare := by
  unfold takeLoginAck
  show (r.capabilities.acceptLogin ack >>= _) = _
  rcases r.capabilities.acceptLogin ack with e | ⟨capabilities, _⟩ <;> rfl

theorem bare_takeFeature (r : Response) (ack : FeatureAck) :
    r.bare.takeFeature ack = (r.takeFeature ack).map bare := by
  unfold takeFeature
  show (r.capabilities.acceptFeature ack >>= _) = _
  rcases r.capabilities.acceptFeature ack with e | capabilities
  · rfl
  by_cases hid : ack.id = Feature.sessionRecovery.id
  · simp only [hid, if_true]
    show (r.session.bare.record ack.payload >>= _) = _
    rw [SessionState.bare_record]
    rcases r.session.record ack.payload with e | session <;> rfl
  · simp only [hid, if_false]
    rfl

theorem bare_takeChange (r : Response) (change : EnvChange) :
    r.bare.takeChange change = (r.takeChange change).map bare := by
  cases hkind : change.kind with
  | packetSize =>
    simp only [takeChange, hkind]
    rcases parsePacketSize (change.new.text?.getD "") with e | size <;> rfl
  | collation =>
    simp only [takeChange, hkind]
    rcases change.collation with e | _ | collation <;> rfl
  | mirroringPartner =>
    simp only [takeChange, hkind]
    refine congrArg Except.ok ?_
    rw [apply_ite bare]
    rfl
  | resetAck =>
    simp only [takeChange, hkind]
    exact congrArg (fun session => Except.ok { r with session }) r.session.bare_reset
  | routing =>
    simp only [takeChange, hkind]
    rcases change.routing? with _ | target
    · rfl
    · simp only []
      rcases target.validate with e | ⟨⟩ <;> rfl
  | _ =>
    simp only [takeChange, hkind]
    rfl

theorem bare_takeError (r : Response) (m : ServerMessage) : r.bare.takeError m = (r.takeError m).bare := by
  unfold takeError
  rw [apply_ite bare]
  rfl

theorem bare_more (taken : Except ProtocolError Response) :
    (taken.map bare >>= fun r => pure (ResponseStep.more r)) =
      (taken >>= fun r => pure (ResponseStep.more r)).map ResponseStep.bare := by
  rcases taken with e | r <;> rfl

/-- No record reads the aliases. -/
theorem bare_take (r : Response) (record : Record) :
    r.bare.take record = (r.take record).map ResponseStep.bare := by
  unfold take
  rcases RecordKind.ofCode? record.code with _ | kind
  · rfl
  cases kind with
  | loginAck =>
    dsimp only
    rcases LoginAck.read record.body with e | ⟨ack, _⟩
    · rfl
    · exact (congrArg (· >>= _) (r.bare_takeLoginAck ack)).trans (bare_more _)
  | featureExtAck =>
    dsimp only
    rcases FeatureAck.readList record.body with e | ⟨acks, _⟩
    · rfl
    · exact (congrArg (· >>= _) (foldlM_map bare_takeFeature acks r)).trans (bare_more _)
  | envChange =>
    dsimp only
    rcases EnvChange.read record.body with e | ⟨_ | change, _⟩
    · rfl
    · rfl
    · exact (congrArg (· >>= _) (r.bare_takeChange change)).trans (bare_more _)
  | error =>
    dsimp only
    rcases ServerMessage.read record.body with e | ⟨m, _⟩
    · rfl
    · exact congrArg (fun r => Except.ok (ResponseStep.more r)) (r.bare_takeError m)
  | info =>
    dsimp only
    rcases ServerMessage.read record.body with e | m <;> rfl
  | sessionState =>
    dsimp only
    rcases StateToken.read record.body with e | ⟨token, _⟩
    · rfl
    · exact congrArg (fun session => Except.ok (ResponseStep.more { r with session })) (r.session.bare_apply token)
  | fedAuthInfo =>
    dsimp only
    rcases FedAuthInfo.read record.body with e | ⟨info, _⟩ <;> rfl
  | done =>
    dsimp only
    rcases Done.read record.body with e | ⟨done, _⟩
    · rfl
    · refine congrArg Except.ok ?_
      rw [apply_ite ResponseStep.bare]
      rfl

theorem bare_advance (r : Response) (record : Record) : r.bare.advance record = (r.advance record).map bare := by
  unfold advance
  rw [bare_take]
  rcases r.take record with e | step
  · rfl
  · cases step <;> rfl

theorem bare_advanceAll (r : Response) (records : List Record) :
    r.bare.advanceAll records = (r.advanceAll records).map bare :=
  foldlM_map bare_advance records r

end Response

/-! ## What a login asks for, and what it opens -/

/-- The target of the connection that has been tried last. -/
def lastTarget? (events : List (Moment × Event)) : Option Target :=
  events.findSome? fun
    | (_, .connected _ target _) => some target
    | _ => none

namespace LoginStart

/-- The attempt at a target, whatever its time limit. -/
def planFor (s : LoginStart) (target : Target) : AttemptPlan where
  config := s.config
  recovery := s.recovery
  target := target
  timeout := none
  deadline := none

/-- The state of the session that every attempt starts from, but for the aliases. -/
def base (s : LoginStart) : SessionState := ((s.previous.map SessionState.carryOver).getD .new).bare

/-- What the records of a response from a target come to, after the answer to the handshake. -/
def responseTo (s : LoginStart) (target : Target) (ack : HandshakeAnswer) (records : List Record) :
    Except ProtocolError Response :=
  ((s.planFor target).firstResponse s.base ack).advanceAll records

end LoginStart

/-- The session is what a response from a target comes to, but for the aliases. -/
structure Established.ComesOf (e : Established) (c : Config) (target : Target) (r : Response) : Prop where
  target : e.target = target
  capabilities : e.capabilities = r.capabilities
  state : e.state.bare = r.session
  packetSize : e.packetSize = r.packetSize?.getD c.packetSize
  partner : e.partner = r.partner?
  userInstance : e.userInstance = r.userInstance?
  events : e.events = r.events

theorem lastTarget?_append {heard earlier : List (Moment × Event)} {n : Nat} {t : Moment} {target : Target}
    {timeout : Option Span} (h : ∀ e ∈ heard, e.2.isConnected = false) :
    lastTarget? (heard ++ (t, .connected n target timeout) :: earlier) = some target := by
  unfold lastTarget?
  rw [List.findSome?_append, List.findSome?_eq_none_iff.mpr, Option.none_or, List.findSome?_cons]
  intro e he
  have hno := h e he
  obtain ⟨t, e⟩ := e
  cases e <;> first | rfl | cases hno

namespace LoginStart

variable {s : LoginStart} {server : Server σ} {attempts : Nat} {w : World σ} {r : RoundStart σ}

/-- Whatever has happened before, a client logs in with what the options and the target make of it. -/
theorem login_of_event {t : Moment} {n : Nat} {q : LoginRequest} {delivered : Bool}
    {older : List (Moment × Event)}
    (h : (t, .login n q delivered) :: older <:+ (login server attempts s w).2.world.trace)
    (hnew : w.trace <:+ older) :
    ∃ target, lastTarget? older = some target ∧ q = (s.planFor target).login := by
  obtain ⟨r, hr, ended, mid, target, timeout, earlier, ha, hconnects, hheard, rfl⟩ :=
    attempt_of_event (by rintro ⟨⟩) (by rintro ⟨⟩) (by rintro ⟨⟩) rfl h hnew
  refine ⟨target, lastTarget?_append fun e he => ?_, ?_⟩
  · exact (hconnects.over_of_mem_sinceConnected (hheard.subset (List.mem_cons_of_mem _ he))).isConnected
  · obtain ⟨aliases, res, after, -, -, -, -, hrequests, -⟩ := LoginM.roundAttempt_exchange ha hconnects
    exact (hrequests.of_login hheard).2.1

/-- The state that attempts start from changes only in the aliases. -/
theorem base_of_mem_course (h : r ∈ s.course server attempts w) : r.run.base.bare = s.base := by
  refine course_induction (P := fun r => r.run.base.bare = s.base) (fun _ _ => rfl) (fun r r' hr hbefore => ?_) h
  obtain ⟨ended, mid, ha, hc⟩ := LoginM.before_cases hbefore
  obtain ⟨aliases, hbase⟩ := (RoundFrame.roundAttempt ha).base
  have hkept : r'.run.base = mid.base := by
    generalize r.plan = plan, r'.plan = plan', r'.run = run' at hc
    cases hc <;> rfl
  rw [hkept, hbase]
  exact hr

/-- The session that a login has opened follows from the target, the answer to the handshake and the records of
its last attempt, and so do the requests of that attempt. -/
theorem comesOf_of_login {e : Established} (h : (login server attempts s w).1 = .ok e) :
    ∃ target ack res, lastTarget? (login server attempts s w).2.world.trace = some target ∧
      shown Event.answer? (sinceConnected (login server attempts s w).2.world.trace) = [ack] ∧
      shown Event.handshake? (sinceConnected (login server attempts s w).2.world.trace) =
        [(s.planFor target).handshake] ∧
      shown Event.login? (sinceConnected (login server attempts s w).2.world.trace) = [(s.planFor target).login] ∧
      s.responseTo target ack (received (sinceConnected (login server attempts s w).2.world.trace)) = .ok res ∧
      e.ComesOf s.config target res := by
  obtain ⟨r, hr, run', hround, htrace⟩ := login_eq_ok h
  obtain ⟨e₀, onPartner, target, timeout, ha, rfl, hconnects⟩ := LoginM.round_eq_opened hround
  obtain ⟨aliases, res, after, last, hleads, hexchange⟩ := LoginM.roundAttempt_leads ha hconnects
  cases hleads
  obtain ⟨ack, response, t, hack, hhandshake, hlogin, hread, he₀⟩ := hexchange.of_opened
  -- the end of the login is noted after the attempt, and shows none of this
  have hsince : sinceConnected (login server attempts s w).2.world.trace =
      (run'.world.now, .ended (.succeeded onPartner)) :: sinceConnected run'.world.trace := by
    rw [htrace, sinceConnected, List.takeWhile_cons_of_pos rfl]
    rfl
  have hshown {β : Type} {f : Event → Option β} (hf : f (.ended (.succeeded onPartner)) = none) :
      shown f (sinceConnected (login server attempts s w).2.world.trace) =
        shown f (sinceConnected run'.world.trace) := by
    rw [hsince, shown_cons, hf]
    exact List.append_nil _
  refine ⟨target, ack, response.bare, ?_, ?_, ?_, ?_, ?_, ?_⟩
  · rw [htrace, hconnects.trace_eq, ← List.cons_append]
    refine lastTarget?_append (List.forall_mem_cons.mpr ⟨rfl, fun e he => ?_⟩)
    exact (hconnects.over_of_mem_sinceConnected he).isConnected
  · exact (hshown rfl).trans hack
  · exact (hshown rfl).trans hhandshake
  · exact (hshown rfl).trans hlogin
  · have hread := congrArg (Except.map Response.bare) hread
    rw [← Response.bare_advanceAll] at hread
    rw [show received _ = received _ from hshown rfl]
    unfold responseTo
    rw [← base_of_mem_course hr]
    exact hread
  · cases he₀
    exact ⟨rfl, rfl, rfl, rfl, rfl, rfl, rfl⟩

end LoginStart

/-- Two logins by the same options, which carry the same session over or none, and whose last attempts go to the
same target and are answered in the same way, open the same session, but for the aliases that they have looked
up, and have asked for it in the same way: whatever the servers were that they tried before, and whatever those
have sent. And any two logins that they have sent to the same target are the same. -/
theorem sessions_agree {σ₁ σ₂ : Type} {server₁ : Server σ₁} {server₂ : Server σ₂} {attempts₁ attempts₂ : Nat}
    {s₁ s₂ : LoginStart} {w₁ : World σ₁} {w₂ : World σ₂} {e₁ e₂ : Established} (hconfig : s₁.config = s₂.config)
    (hprevious : s₁.previous = s₂.previous) (h₁ : (login server₁ attempts₁ s₁ w₁).1 = .ok e₁)
    (h₂ : (login server₂ attempts₂ s₂ w₂).1 = .ok e₂)
    (htarget : lastTarget? (login server₁ attempts₁ s₁ w₁).2.world.trace =
      lastTarget? (login server₂ attempts₂ s₂ w₂).2.world.trace)
    (hanswer : shown Event.answer? (sinceConnected (login server₁ attempts₁ s₁ w₁).2.world.trace) =
      shown Event.answer? (sinceConnected (login server₂ attempts₂ s₂ w₂).2.world.trace))
    (hrecords : received (sinceConnected (login server₁ attempts₁ s₁ w₁).2.world.trace) =
      received (sinceConnected (login server₂ attempts₂ s₂ w₂).2.world.trace)) :
    e₁.target = e₂.target ∧ e₁.capabilities = e₂.capabilities ∧
    { e₁.state with aliases := [] } = { e₂.state with aliases := [] } ∧ e₁.packetSize = e₂.packetSize ∧
    e₁.partner = e₂.partner ∧ e₁.userInstance = e₂.userInstance ∧ e₁.events = e₂.events ∧
    shown Event.handshake? (sinceConnected (login server₁ attempts₁ s₁ w₁).2.world.trace) =
      shown Event.handshake? (sinceConnected (login server₂ attempts₂ s₂ w₂).2.world.trace) ∧
    shown Event.login? (sinceConnected (login server₁ attempts₁ s₁ w₁).2.world.trace) =
      shown Event.login? (sinceConnected (login server₂ attempts₂ s₂ w₂).2.world.trace) ∧
    ∀ t₁ t₂ n₁ n₂ q₁ q₂ d₁ d₂ older₁ older₂,
      (t₁, .login n₁ q₁ d₁) :: older₁ <:+ (login server₁ attempts₁ s₁ w₁).2.world.trace → w₁.trace <:+ older₁ →
      (t₂, .login n₂ q₂ d₂) :: older₂ <:+ (login server₂ attempts₂ s₂ w₂).2.world.trace → w₂.trace <:+ older₂ →
      lastTarget? older₁ = lastTarget? older₂ → q₁ = q₂ := by
  have hplan (target : Target) : s₁.planFor target = s₂.planFor target := by
    unfold LoginStart.planFor LoginStart.recovery
    rw [hconfig, hprevious]
  have hbase : s₁.base = s₂.base := by
    unfold LoginStart.base
    rw [hprevious]
  obtain ⟨target, ack, r₁, htarget₁, hack₁, hhandshake₁, hlogin₁, hread₁, hcomes₁⟩ := LoginStart.comesOf_of_login h₁
  obtain ⟨target', ack', r₂, htarget₂, hack₂, hhandshake₂, hlogin₂, hread₂, hcomes₂⟩ :=
    LoginStart.comesOf_of_login h₂
  obtain rfl : target = target' := Option.some.inj (htarget₁.symm.trans (htarget.trans htarget₂))
  obtain rfl : ack = ack' := List.singleton_inj.mp (hack₁.symm.trans (hanswer.trans hack₂))
  obtain rfl : r₁ = r₂ := by
    unfold LoginStart.responseTo at hread₁ hread₂
    rw [hrecords, hplan, hbase, hread₂] at hread₁
    exact (Except.ok.inj hread₁).symm
  refine ⟨hcomes₁.target.trans hcomes₂.target.symm, hcomes₁.capabilities.trans hcomes₂.capabilities.symm,
    hcomes₁.state.trans hcomes₂.state.symm, ?_, hcomes₁.partner.trans hcomes₂.partner.symm,
    hcomes₁.userInstance.trans hcomes₂.userInstance.symm, hcomes₁.events.trans hcomes₂.events.symm, ?_, ?_, ?_⟩
  · rw [hcomes₁.packetSize, hcomes₂.packetSize, hconfig]
  · rw [hhandshake₁, hhandshake₂, hplan]
  · rw [hlogin₁, hlogin₂, hplan]
  · intro t₁ t₂ n₁ n₂ q₁ q₂ d₁ d₂ older₁ older₂ hq₁ hnew₁ hq₂ hnew₂ hlast
    obtain ⟨target₁, ht₁, rfl⟩ := LoginStart.login_of_event hq₁ hnew₁
    obtain ⟨target₂, ht₂, rfl⟩ := LoginStart.login_of_event hq₂ hnew₂
    obtain rfl : target₁ = target₂ := Option.some.inj (ht₁.symm.trans (hlast.trans ht₂))
    rw [hplan]

/-- A server that lets everybody in. -/
def openWorld : World LoginScript where
  server := { fallback := .success [.textChange .database "sales" "", .textChange .packetSize "8192" ""] }

/-- The same server, after one that is busy but has said a lot before. -/
def talkativeWorld : World LoginScript where
  server :=
    { queue := [.respond [.textChange .database "trap" "", .textChange .packetSize "512" "",
        .textChange .userInstance "trap" "", .error 40613 14 "busy", .doneError] false]
      fallback := openWorld.server.fallback }

/-- Nothing of what the busy server has said is left in the session. -/
theorem talkativeWorld_agrees : ∃ e₁ e₂ : Established,
    (login (LineFaults.server {}) 2 plainLogin openWorld).1 = .ok e₁ ∧
      (login (LineFaults.server {}) 2 plainLogin talkativeWorld).1 = .ok e₂ ∧
      (login (LineFaults.server {}) 2 plainLogin talkativeWorld).2.world.connects = 2 ∧
      e₁.packetSize = e₂.packetSize ∧ { e₁.state with aliases := [] } = { e₂.state with aliases := [] } ∧
      e₁.userInstance = e₂.userInstance := by
  have hok₁ : (login (LineFaults.server {}) 2 plainLogin openWorld).1.isOk := by decide +kernel
  have hok₂ : (login (LineFaults.server {}) 2 plainLogin talkativeWorld).1.isOk := by decide +kernel
  rcases h₁ : (login (LineFaults.server {}) 2 plainLogin openWorld).1 with t | e₁
  · rw [h₁] at hok₁
    cases hok₁
  rcases h₂ : (login (LineFaults.server {}) 2 plainLogin talkativeWorld).1 with t | e₂
  · rw [h₂] at hok₂
    cases hok₂
  obtain ⟨-, -, hstate, hsize, -, hinstance, -⟩ :=
    sessions_agree rfl rfl h₁ h₂ (by decide +kernel) (by decide +kernel) (by decide +kernel)
  exact ⟨e₁, e₂, rfl, rfl, by decide +kernel, hsize, hstate, hinstance⟩

end TdsSession
