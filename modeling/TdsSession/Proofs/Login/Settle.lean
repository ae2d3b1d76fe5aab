import TdsSession.Proofs.Login.Round

/-!
# What follows an attempt

After an attempt, a login ends or goes on with another round. The ways in which
it goes on are listed once, in `Continues`: a redirect, the budget renewed since
a token is at hand, a sleep, the change to two hosts, or the other host of a
pair. `settle_eq_again` says that there are no others; what holds along a whole
login is proved from it.
-/

namespace TdsSession

open Op (Keeps)

variable {σ : Type}

/-! ## What follows an attempt -/

/-- The login after a sleep. -/
def LoginRun.slept (run : LoginRun σ) (span : Span) : LoginRun σ :=
  { run with world := { run.world.record (.slept span) with now := run.world.now + span } }

/-- The time budget is renewed after `e`: a token is at hand, and the attempt ran out of time. -/
def LoginRun.Renews (run : LoginRun σ) (e : Error) : Prop := run.tokenRetry = .hasToken ∧ e.isTimeout = true

instance (run : LoginRun σ) (e : Error) : Decidable (run.Renews e) :=
  inferInstanceAs (Decidable (_ ∧ _))

/-- The next attempt goes to the partner. -/
def LoginPlan.onPartner : LoginPlan → Bool
  | .single _ => false
  | .pair p => p.onPartner

/-- The ways in which an attempt that ended in state `mid` is followed by another round: the plan it was
made by, its end, and the plan and the state of the next round. -/
inductive Continues (x : LoginContext σ) (mid : LoginRun σ) :
    LoginPlan → RoundEnd → LoginPlan → LoginRun σ → Prop
  /-- A redirect is followed at once. -/
  | routed (plan : LoginPlan) (target : Target) :
      Continues x mid plan (.routed target) (plan.withRoute target) mid
  /-- The attempt is repeated with the whole budget. -/
  | renewed (plan : LoginPlan) (e : Error) (he : mid.Renews e) :
      Continues x mid plan (.failed e) plan mid.restarted
  /-- The only host is tried again after a sleep. -/
  | slept (p : SinglePlan) (e : Error) (he : ¬ mid.Renews e) (ht : e.isTransient) (hp : mid.partner = none)
      (hs : mid.budget.canSleep mid.world.now p.backoff.current = .ok true) :
      Continues x mid (.single p) (.failed e)
        (.single { p with failed := p.failed + 1, backoff := p.backoff.next }) (mid.slept p.backoff.current)
  /-- A server has named a partner: from now on there are two hosts, and it is the partner's turn. -/
  | switched (p : SinglePlan) (e : Error) (he : ¬ mid.Renews e) (ht : e.isTransient) (name : String)
      (hp : mid.partner = some name) (hm : x.config.multiSubnet = false) (partner : DataSource)
      (hs : DataSource.parse name.toList = .ok partner) (slice : Span) (hb : mid.budget.slice = .ok slice) :
      Continues x mid (.single p) (.failed e)
        (.pair { partner, slice, backoff := x.config.retry.backoff, onPartner := true }) mid
  /-- The other host of the pair is tried at once. -/
  | alternated (p : PairPlan) (e : Error) (he : ¬ mid.Renews e) (ht : e.isTransient)
      (hb : ¬ mid.budget.Spent mid.world.now) (hodd : (p.failed + 1) % 2 ≠ 0) :
      Continues x mid (.pair p) (.failed e) (.pair p.failedOnce) mid
  /-- Both hosts of the pair have failed, and the next one is tried after a sleep. -/
  | sleptAlternated (p : PairPlan) (e : Error) (he : ¬ mid.Renews e) (ht : e.isTransient)
      (hb : ¬ mid.budget.Spent mid.world.now) (heven : (p.failed + 1) % 2 = 0)
      (hs : mid.budget.canSleep mid.world.now p.backoff.current = .ok true) :
      Continues x mid (.pair p) (.failed e)
        (.pair { p.failedOnce with backoff := p.backoff.next }) (mid.slept p.backoff.current)

namespace LoginM

variable {x : LoginContext σ} {plan plan' : LoginPlan} {run mid run' : LoginRun σ}

theorem retryWithToken_apply (e : Error) :
    retryWithToken e mid = if mid.Renews e then (.ok true, mid.restarted) else (.ok false, mid) := by
  unfold retryWithToken
  rw [Op.bind_of_ok (Op.get_apply mid)]
  by_cases h : mid.tokenRetry = .hasToken ∧ e.isTimeout
  · rw [if_pos h, if_pos (show mid.Renews e from h)]
    rfl
  · rw [if_neg h, if_neg (show ¬ mid.Renews e from h)]
    rfl

/-- A sleep that is not cut off takes the time it was meant to take. -/
theorem sleep_eq_ok {span : Span} {w w' : World σ} (h : WorldM.sleep span w = (.ok (), w')) :
    w' = { w.record (.slept span) with now := w.now + span } := by
  unfold WorldM.sleep WorldM.note at h
  rw [Op.bind_of_ok (Op.modify_apply ..)] at h
  unfold WorldM.wait at h
  rw [Op.bind_of_ok (Op.get_apply _)] at h
  rcases hw : waitFrom (w.record (.slept span)).now (some span) (earlier none (w.record (.slept span)).patience)
    with t | t | _ <;> rw [hw] at h <;> cases h
  rw [eq_add_of_waitFrom_eq_ready hw]
  rfl

/-- The login sleeps if the budget allows it, and ends otherwise. -/
theorem sleepOrExpire_eq_ok {e : Error} {span : Span} (h : sleepOrExpire e span mid = (.ok (), run')) :
    mid.budget.canSleep mid.world.now span = .ok true ∧ run' = mid.slept span := by
  unfold sleepOrExpire at h
  rw [Op.bind_apply, askBudget_apply] at h
  rcases hx : mid.budget.canSleep mid.world.now span with o | fits
  · rw [hx] at h
    cases h
  cases fits with
  | false =>
    rw [hx] at h
    cases h
  | true =>
    rw [hx] at h
    have hsleep : inWorld (WorldM.sleep span) mid = (.ok (), run') := h
    rw [inWorld_apply] at hsleep
    rcases hw : WorldM.sleep span mid.world with ⟨r, w⟩
    rw [hw] at hsleep
    cases hsleep
    rw [sleep_eq_ok hw]
    exact ⟨rfl, rfl⟩

theorem afterSingleFailure_eq_again {p : SinglePlan} {e : Error} (he : ¬ mid.Renews e) (ht : e.isTransient)
    (h : afterSingleFailure x p e mid = (.ok (.again plan'), run')) :
    Continues x mid (.single p) (.failed e) plan' run' := by
  unfold afterSingleFailure at h
  rw [Op.bind_of_ok (Op.get_apply mid)] at h
  rcases hp : mid.partner with _ | name <;> simp only [hp] at h
  · obtain ⟨⟨⟩, after, hs, h⟩ := Op.bind_eq_ok.mp h
    obtain ⟨hfits, rfl⟩ := sleepOrExpire_eq_ok hs
    cases h
    exact .slept p e he ht hp hfits
  · split at h
    · cases h
    rename_i hm
    obtain ⟨partner, after, hs, h⟩ := Op.bind_eq_ok.mp h
    rcases hparse : DataSource.parse name.toList with err | source <;> rw [hparse] at hs <;> cases hs
    unfold planPair at h
    rw [Op.bind_apply, Op.bind_of_ok (Op.get_apply mid)] at h
    rcases hb : mid.budget.slice with o | slice <;> rw [Op.bind_apply, hb] at h <;> cases h
    exact .switched p e he ht name hp (Bool.eq_false_iff.mpr hm) partner hparse slice hb

theorem afterPairFailure_eq_again {p : PairPlan} {e : Error} (he : ¬ mid.Renews e) (ht : e.isTransient)
    (h : afterPairFailure p e mid = (.ok (.again plan'), run')) :
    Continues x mid (.pair p) (.failed e) plan' run' := by
  unfold afterPairFailure at h
  rw [Op.bind_apply, askBudget_apply] at h
  rcases hx : mid.budget.isExpired mid.world.now with o | expired
  · rw [hx] at h
    cases h
  have hspent := Budget.isExpired_iff hx
  rw [hx] at h
  cases expired with
  | true => cases h
  | false =>
    have hb : ¬ mid.budget.Spent mid.world.now := fun hs => nomatch hspent.mpr hs
    simp only [ofClock_ok_apply, Bool.false_eq_true, if_false] at h
    split at h
    · rename_i heven
      obtain ⟨⟨⟩, after, hs, h⟩ := Op.bind_eq_ok.mp h
      obtain ⟨hfits, rfl⟩ := sleepOrExpire_eq_ok hs
      cases h
      exact .sleptAlternated p e he ht hb heven hfits
    · rename_i hodd
      cases h
      exact .alternated p e he ht hb hodd

/-- What follows a failure: another attempt with a token at hand, another attempt if the failure may pass,
or the end of the login. -/
theorem settle_failed_apply (x : LoginContext σ) (plan : LoginPlan) (e : Error) (mid : LoginRun σ) :
    settle x plan (.failed e) mid =
      if mid.Renews e then (.ok (.again plan), mid.restarted)
      else if e.isTransient then afterFailure x e plan mid
      else (.error (.failed e), mid) := by
  simp only [settle]
  rw [Op.bind_apply, retryWithToken_apply]
  by_cases he : mid.Renews e
  · rw [if_pos he, if_pos he]
    rfl
  · rw [if_neg he, if_neg he]
    rcases ht : e.isTransient <;> rfl

/-- A failure that may pass, and does not renew the budget, is answered as the plan says. -/
theorem settle_of_transient {e : Error} (he : ¬ mid.Renews e) (ht : e.isTransient) :
    settle x plan (.failed e) mid = afterFailure x e plan mid := by
  rw [settle_failed_apply, if_neg he, if_pos ht]

/-- A round is followed by another in one of the ways listed, and in no other. -/
theorem settle_eq_again {ended : RoundEnd} (h : settle x plan ended mid = (.ok (.again plan'), run')) :
    Continues x mid plan ended plan' run' := by
  cases ended with
  | opened e =>
    cases plan with
    | single p => cases h
    | pair p =>
      simp only [settle, acceptSession] at h
      split at h <;> cases h
  | routed target =>
    cases h
    exact .routed plan target
  | failed e =>
    rw [settle_failed_apply] at h
    by_cases he : mid.Renews e
    · rw [if_pos he] at h
      cases h
      exact .renewed plan e he
    rw [if_neg he] at h
    by_cases ht : e.isTransient
    · rw [if_pos ht] at h
      cases plan with
      | single p => exact afterSingleFailure_eq_again he ht h
      | pair p => exact afterPairFailure_eq_again he ht h
    · rw [if_neg ht] at h
      cases h

/-- Once the budget is spent, a failure that may pass ends the login, unless the budget is renewed or a
server has named a partner for the only host. -/
theorem settle_of_spent {e : Error} (hs : mid.budget.Spent mid.world.now) (he : ¬ mid.Renews e)
    (ht : e.isTransient) (hp : ∀ p, plan = .single p → mid.partner = none) :
    settle x plan (.failed e) mid = (.error (.failed (.timeoutExpiredAfter e)), mid) := by
  rw [settle_of_transient he ht]
  cases plan with
  | single p =>
    show afterSingleFailure x p e mid = _
    unfold afterSingleFailure
    rw [Op.bind_of_ok (Op.get_apply mid), hp p rfl]
    simp only [sleepOrExpire]
    rw [Op.bind_apply, Op.bind_apply, askBudget_apply, Budget.canSleep_of_spent hs]
    rfl
  | pair p =>
    show afterPairFailure p e mid = _
    unfold afterPairFailure
    rw [Op.bind_apply, askBudget_apply, Budget.isExpired_of_spent hs]
    rfl

end LoginM

/-! ## The frame of what follows -/

/-- An event between two attempts. -/
def Event.between : Event → Prop
  | .slept _ | .restarted => True
  | _ => False

/-- What follows an attempt makes no connection, and adds only what `P` allows. -/
structure SettleFrame (P : Event → Prop) (mid run' : LoginRun σ) : Prop where
  connects : run'.world.connects = mid.world.connects
  trace : Grows P mid.world.trace run'.world.trace

namespace SettleFrame

variable {P Q : Event → Prop}

theorem refl (run : LoginRun σ) : SettleFrame P run run := ⟨rfl, .refl _⟩

instance : IsPreorder (LoginRun σ) (SettleFrame P) where
  refl := refl
  trans _ _ _ h₁ h₂ := ⟨h₂.connects.trans h₁.connects, h₁.trace.trans h₂.trace⟩

theorem mono {mid run' : LoginRun σ} (h : SettleFrame P mid run') (hPQ : ∀ e, P e → Q e) :
    SettleFrame Q mid run' := ⟨h.connects, h.trace.mono hPQ⟩

theorem inWorld {deadline : Option Moment} {run : LoginRun σ} {w : World σ}
    (h : Relation.ReflTransGen (WorldStep P deadline) run.world w) :
    SettleFrame P run { run with world := w } := by
  refine ⟨?_, WorldStep.grows h⟩
  induction h with
  | refl => rfl
  | tail _ hstep ih =>
    cases hstep with
    | noted e he => exact ih
    | waited t ht => exact ih

end SettleFrame

namespace LoginM

variable {x : LoginContext σ} {plan : LoginPlan} {run mid run' : LoginRun σ}

theorem sleepOrExpire_keeps (e : Error) (span : Span) :
    Keeps (SettleFrame Event.isSleep) (sleepOrExpire e span : LoginM σ Unit) := by
  refine (Keeps.askBudget _).bind fun fits => ?_
  split
  · have hsleep : Keeps (Relation.ReflTransGen (WorldStep Event.isSleep none))
        (WorldM.sleep span : WorldM σ Unit) :=
      (WorldM.note_keeps trivial).bind fun _ => WorldM.wait_keeps _
    exact Keeps.inWorld hsleep fun run w => SettleFrame.inWorld
  · exact Keeps.fail _

theorem planPair_keeps (c : Config) (partner : DataSource) (onPartner : Bool) :
    Keeps (SettleFrame Event.isSleep) (planPair c partner onPartner : LoginM σ LoginPlan) :=
  Keeps.get.bind fun _ => (Keeps.ofClock _).bind fun _ => Keeps.pure _

theorem afterSingleFailure_keeps (x : LoginContext σ) (p : SinglePlan) (e : Error) :
    Keeps (SettleFrame Event.isSleep) (afterSingleFailure x p e) := by
  refine Keeps.get.bind fun run => ?_
  split
  · dsimp only
    split
    · exact (Keeps.fail _).bind fun _ => (Keeps.ofExcept _).bind fun _ =>
        (planPair_keeps x.config _ true).bind fun _ => Keeps.pure _
    · exact (Keeps.ofExcept _).bind fun _ => (planPair_keeps x.config _ true).bind fun _ => Keeps.pure _
  · exact (sleepOrExpire_keeps e _).bind fun _ => Keeps.pure _

theorem afterPairFailure_keeps (p : PairPlan) (e : Error) :
    Keeps (SettleFrame Event.isSleep) (afterPairFailure p e : LoginM σ Round) := by
  refine (Keeps.askBudget _).bind fun expired => ?_
  dsimp only
  split
  · exact Keeps.fail _
  split
  · exact (sleepOrExpire_keeps e _).bind fun _ => Keeps.pure _
  · exact Keeps.pure _

/-- Unless the budget is renewed, a failure is followed by nothing but a sleep. -/
theorem settle_of_not_renews (x : LoginContext σ) (plan : LoginPlan) {e : Error} (he : ¬ mid.Renews e) :
    SettleFrame Event.isSleep mid (settle x plan (.failed e) mid).2 := by
  rw [settle_failed_apply, if_neg he]
  split
  · cases plan with
    | single p => exact afterSingleFailure_keeps x p e mid
    | pair p => exact afterPairFailure_keeps p e mid
  · exact .refl mid

theorem settle_of_renews {e : Error} (he : mid.Renews e) :
    settle x plan (.failed e) mid = (.ok (.again plan), mid.restarted) := by
  rw [settle_failed_apply, if_pos he]

/-- The session of a partner that names no partner is not taken, and every other one is. -/
theorem settle_opened_cases (x : LoginContext σ) (plan : LoginPlan) (e : Established) (mid : LoginRun σ) :
    (plan.onPartner && e.partner.isNone) = true ∧
      settle x plan (.opened e) mid = (.error (.failed (.invalidPartnerConfiguration partnerSilentReason)), mid) ∨
    (plan.onPartner && e.partner.isNone) = false ∧
      ∃ onPartner, settle x plan (.opened e) mid = (.ok (.opened { e with onPartner }), mid) := by
  cases plan with
  | single p => exact .inr ⟨rfl, e.onPartner, rfl⟩
  | pair p =>
    unfold settle acceptSession LoginPlan.onPartner
    dsimp only
    rcases hsilent : p.onPartner && e.partner.isNone with _ | _
    · exact .inr ⟨rfl, p.onPartner, rfl⟩
    · exact .inl ⟨rfl, rfl⟩

/-- Taking over a session, or not, changes nothing. -/
theorem settle_opened_snd (x : LoginContext σ) (plan : LoginPlan) (e : Established) (mid : LoginRun σ) :
    (settle x plan (.opened e) mid).2 = mid := by
  rcases settle_opened_cases x plan e mid with ⟨-, h⟩ | ⟨-, onPartner, h⟩ <;> rw [h]

theorem settle_keeps (x : LoginContext σ) (plan : LoginPlan) (ended : RoundEnd) :
    Keeps (SettleFrame Event.between) (settle x plan ended) := by
  cases ended with
  | opened e =>
    intro mid
    rw [settle_opened_snd]
    exact .refl mid
  | routed target => exact Keeps.pure _
  | failed e =>
    intro mid
    by_cases he : mid.Renews e
    · rw [settle_of_renews he]
      exact ⟨rfl, .cons trivial _⟩
    · refine (settle_of_not_renews x plan he).mono fun e he => ?_
      cases e <;> first | exact trivial | exact he.elim

end LoginM

end TdsSession
