import TdsSession.Proofs.Login.Course
import TdsSession.Proofs.Login.Fault

/-!
# What an attempt hears

An attempt goes on past every record with which nothing is wrong. It has heard
enough when it receives a final DONE, or a record with which something is wrong:
nothing else is received after that (`Heard`). `LoginStart.heard_of_event` says
so of whatever happens over a connection of a login.
-/

namespace TdsSession

open Op (Keeps)

variable {σ : Type}

/-! ## The end of a response -/

/-- The DONE that a record is, if it is one after which no more is announced. -/
def Record.finalDone? (record : Record) : Option Done :=
  match RecordKind.ofCode? record.code, Done.read record.body with
  | some .done, .ok (done, _) => if done.status.hasMore then none else some done
  | _, _ => none

/-- Nothing but a final DONE completes a response, and it adds nothing to it; and nothing but FEDAUTHINFO asks for a
token. -/
theorem Response.step_of_take {r : Response} {record : Record} {step : ResponseStep} : r.take record = .ok step →
    match step with
    | .more _ => True
    | .complete r' => r' = r ∧ ∃ done, record.finalDone? = some done
    | .wantsToken _ => RecordKind.ofCode? record.code = some .fedAuthInfo := by
  intro h
  unfold take at h
  unfold Record.finalDone?
  split at h <;> rename_i hkind <;> simp only [hkind]
  · cases h
    trivial
  · obtain ⟨_, -, h⟩ := Op.except_bind_eq_ok.mp h
    obtain ⟨_, -, h⟩ := Op.except_bind_eq_ok.mp h
    cases h
    trivial
  · obtain ⟨_, -, h⟩ := Op.except_bind_eq_ok.mp h
    obtain ⟨_, -, h⟩ := Op.except_bind_eq_ok.mp h
    cases h
    trivial
  · obtain ⟨⟨change, _⟩, -, h⟩ := Op.except_bind_eq_ok.mp h
    cases change with
    | none =>
      cases h
      trivial
    | some change =>
      obtain ⟨_, -, h⟩ := Op.except_bind_eq_ok.mp h
      cases h
      trivial
  · obtain ⟨_, -, h⟩ := Op.except_bind_eq_ok.mp h
    cases h
    trivial
  · obtain ⟨_, -, h⟩ := Op.except_bind_eq_ok.mp h
    cases h
    trivial
  · obtain ⟨_, -, h⟩ := Op.except_bind_eq_ok.mp h
    cases h
    trivial
  · obtain ⟨_, -, h⟩ := Op.except_bind_eq_ok.mp h
    cases h
    trivial
  · obtain ⟨⟨done, _⟩, hread, h⟩ := Op.except_bind_eq_ok.mp h
    rw [hread]
    cases h
    dsimp only
    rcases done.status.hasMore with _ | _
    · exact ⟨rfl, done, rfl⟩
    · trivial

/-- A final DONE completes every response. -/
theorem Response.take_of_finalDone? {record : Record} {done : Done} (h : record.finalDone? = some done) (r : Response) :
    r.take record = .ok (.complete r) := by
  unfold Record.finalDone? at h
  split at h
  · rename_i hkind hread
    split at h
    · cases h
    rename_i hlast
    unfold take
    simp only [hkind, hread]
    dsimp only [bind, Except.bind]
    rw [if_neg hlast]
    rfl
  · cases h

namespace AttemptPlan

variable {p : AttemptPlan} {earlier later : List (Moment × Event)}

/-- What is wrong with a record that an attempt receives. -/
def fault? (p : AttemptPlan) (record : Record) : Option ProtocolError :=
  record.fault? p.config.loginFeatures p.provided.isSome

/-- Nothing is wrong with the records among events, and no response ends there. -/
def Undisturbed (p : AttemptPlan) (events : List (Moment × Event)) : Prop :=
  ∀ e ∈ events, (∀ n, e.2 ≠ .answered n) ∧ ∀ record, e.2.record? = some record → p.fault? record = none

theorem Undisturbed.append (h : p.Undisturbed later) (h' : p.Undisturbed earlier) : p.Undisturbed (later ++ earlier) :=
  List.forall_mem_append.mpr ⟨h, h'⟩

theorem undisturbed_nil : p.Undisturbed [] := List.forall_mem_nil _

theorem undisturbed_of_readsNothing (h : ∀ e ∈ later, e.2.ReadsNothing) : p.Undisturbed later := fun e he =>
  ⟨(h e he).ends, fun record hrecord => by
    rw [(h e he).record] at hrecord
    cases hrecord⟩

/-- What is wrong with a record is what the response refuses it for, or that it asks for a token where there is none. -/
theorem fault?_eq {r : Response} (hr : r.capabilities.requested = p.config.loginFeatures) (record : Record) :
    p.fault? record = match r.take record with
      | .error e => some e
      | .ok (.wantsToken _) => if p.provided.isSome then none else some (.unrequestedFeature Feature.fedAuth.id)
      | .ok _ => none := by
  by_cases hkind : RecordKind.ofCode? record.code = some .fedAuthInfo
  · unfold fault? Record.fault? faultIn Response.take
    rw [hkind]
    dsimp only
    rcases FedAuthInfo.read record.body with e | ⟨info, rest⟩ <;> rfl
  · unfold fault?
    rw [Record.fault?_eq hkind, ← hr, ← Response.fault?_take]
    rcases htake : r.take record with e | r' | r' | info
    · rfl
    · rfl
    · rfl
    · exact absurd (Response.step_of_take htake) hkind

/-- Nothing is wrong with the DONE that ends a response. -/
theorem fault?_of_finalDone? {record : Record} {done : Done} (h : record.finalDone? = some done) :
    p.fault? record = none := by
  unfold Record.finalDone? at h
  split at h
  · rename_i hkind hread
    unfold fault? Record.fault? faultIn
    rw [hkind]
    dsimp only
    rw [hread]
  · cases h

end AttemptPlan

/-! ## The end of an attempt -/

/-- How an attempt by `p` over connection `n` ends, or a part of it that is over in state `run'`, by the events that it
adds. -/
inductive Heard (p : AttemptPlan) (n : Nat) {α : Type} :
    List (Moment × Event) → Except Stop α → LoginRun σ → Prop
  /-- Nothing is wrong with what has been received, but the response has not come to its end. -/
  | stopped {added : List (Moment × Event)} {run' : LoginRun σ} (s : Stop) (h : p.Undisturbed added) :
      Heard p n added (.error s) run'
  /-- Something is wrong with the last record, and nothing comes after it. -/
  | faulty {earlier : List (Moment × Event)} {record : Record} {e : ProtocolError} {run' : LoginRun σ}
      (h : p.Undisturbed earlier) (hfault : p.fault? record = some e) :
      Heard p n ((run'.world.now, .received n record) :: earlier) (.error (.failed (.protocol e))) run'
  /-- The response has ended with a final DONE, and nothing comes after it but that the transport is closed. -/
  | concluded {closing earlier : List (Moment × Event)} {record : Record} {done : Done} {res : Except Stop α}
      {run' : LoginRun σ} (t : Moment) (hclosing : ∀ e ∈ closing, e.2.ofClosing) (h : p.Undisturbed earlier)
      (hdone : record.finalDone? = some done) :
      Heard p n (closing ++ (t, .answered n) :: (t, .received n record) :: earlier) res run'

namespace Heard

variable {p : AttemptPlan} {n : Nat} {α β : Type} {added earlier closing : List (Moment × Event)}
  {res : Except Stop α} {run run' : LoginRun σ}

theorem after (h : Heard p n added res run') (hearlier : p.Undisturbed earlier) :
    Heard p n (added ++ earlier) res run' := by
  cases h with
  | stopped s h => exact .stopped s (h.append hearlier)
  | faulty h hfault => exact .faulty (h.append hearlier) hfault
  | concluded t hclosing h hdone =>
    rw [List.append_assoc]
    exact .concluded t hclosing (h.append hearlier) hdone

/-- What stops a part stops the whole. -/
theorem of_error {s : Stop} (h : Heard p n added (.error s : Except Stop α) run') :
    Heard p n added (.error s : Except Stop β) run' := by
  cases h with
  | stopped s h => exact .stopped s h
  | faulty h hfault => exact .faulty h hfault
  | concluded t hclosing h hdone => exact .concluded t hclosing h hdone

/-- A response that has come to its end stays the last thing heard. -/
theorem close {a : β} (h : Heard p n added (.ok a) run) (hclosing : ∀ e ∈ closing, e.2.ofClosing) :
    Heard p n (closing ++ added) res run' := by
  cases h with
  | concluded t hclosing' h hdone =>
    rw [← List.append_assoc]
    exact .concluded t (List.forall_mem_append.mpr ⟨hclosing, hclosing'⟩) h hdone

/-- A record with which something is wrong is the last thing that happens, and the attempt ends with it. -/
theorem of_fault {t : Moment} {k : Nat} {record : Record} {older : List (Moment × Event)} {e : ProtocolError}
    (h : Heard p n added res run') (he : (t, .received k record) :: older <:+ added)
    (hfault : p.fault? record = some e) :
    res = .error (.failed (.protocol e)) ∧ added = (t, .received k record) :: older ∧ run'.world.now = t := by
  have disturbed {events : List (Moment × Event)} (h : p.Undisturbed events)
      (hmem : (t, .received k record) ∈ events) : False := by
    rw [(h _ hmem).2 record rfl] at hfault
    cases hfault
  cases h with
  | stopped s h => exact (disturbed h (he.subset List.mem_cons_self)).elim
  | faulty h hfault' =>
    rcases List.suffix_cons_iff.mp he with heq | hearlier
    · cases heq
      cases hfault.symm.trans hfault'
      exact ⟨rfl, rfl, rfl⟩
    · exact (disturbed h (hearlier.subset List.mem_cons_self)).elim
  | concluded t' hclosing h hdone =>
    rcases List.mem_append.mp (he.subset List.mem_cons_self) with hmem | hmem
    · exact (hclosing _ hmem).elim
    rcases List.mem_cons.mp hmem with heq | hmem
    · cases heq
    rcases List.mem_cons.mp hmem with heq | hmem
    · cases heq
      rw [AttemptPlan.fault?_of_finalDone? hdone] at hfault
      cases hfault
    · exact (disturbed h hmem).elim

/-- A response ends as soon as a final DONE has been received. -/
theorem of_answered {t : Moment} {k : Nat} {older : List (Moment × Event)} (h : Heard p n added res run')
    (he : (t, .answered k) :: older <:+ added) :
    ∃ record done earlier, older = (t, .received k record) :: earlier ∧ record.finalDone? = some done := by
  have quiet {events : List (Moment × Event)} (h : p.Undisturbed events) (hmem : (t, .answered k) ∈ events) : False :=
    (h _ hmem).1 k rfl
  cases h with
  | stopped s h => exact (quiet h (he.subset List.mem_cons_self)).elim
  | faulty h hfault =>
    rcases List.mem_cons.mp (he.subset List.mem_cons_self) with heq | hmem
    · cases heq
    · exact (quiet h hmem).elim
  | @concluded closing earlier record done _ _ t' hclosing h hdone =>
    have hgrows : Grows Event.ofClosing ((t', .answered n) :: (t', .received n record) :: earlier) _ :=
      ⟨closing, rfl, hclosing⟩
    rcases hgrows.cons_suffix_cases he with ⟨hno, -⟩ | hlast
    · exact hno.elim
    rcases List.suffix_cons_iff.mp hlast with heq | hearlier
    · cases heq
      exact ⟨record, done, earlier, rfl, hdone⟩
    · rcases List.mem_cons.mp (hearlier.subset List.mem_cons_self) with heq | hmem
      · cases heq
      · exact (quiet h hmem).elim

end Heard

namespace LoginM

variable {p : AttemptPlan} {t : Transport} {run run' : LoginRun σ}

/-- Where no token can be got, a request for one ends the login. -/
theorem showToken_of_none (h : p.provided = none) (t : Transport) (info : FedAuthInfo) (run : LoginRun σ) :
    showToken p t info run = (.error (.failed (.protocol (.unrequestedFeature Feature.fedAuth.id))), run) := by
  unfold showToken
  rw [h]
  rfl

/-- Reading goes on past every record with which nothing is wrong, up to a final DONE, and ends with the first record
with which something is. -/
theorem readResponse_heard {records : List (Delayed Record)} {r : Response}
    {res : Except Stop (Response × List (Delayed Record))} (h : readResponse p t records r run = (res, run'))
    (hr : r.capabilities.requested = p.config.loginFeatures) :
    ∃ added, run'.world.trace = added ++ run.world.trace ∧ Heard p t.number added res run' := by
  -- the response so far is arbitrary, but for what has been requested: what is wrong with a record depends on nothing else
  induction records generalizing r run with
  | nil =>
    obtain ⟨hsame, s, rfl⟩ := readResponse_nil h
    exact ⟨[], hsame.trace_eq, .stopped s AttemptPlan.undisturbed_nil⟩
  | cons record rest ih =>
    rcases readResponse_cons h with ⟨hsame, s, rfl⟩ | ⟨noted, htrace, -, h⟩
    · exact ⟨[], hsame.trace_eq, .stopped s AttemptPlan.undisturbed_nil⟩
    let first : Moment × Event := (noted.world.now, .received t.number record.value)
    have hfault := AttemptPlan.fault?_eq hr record.value
    have undisturbed (hnone : p.fault? record.value = none) : p.Undisturbed [first] :=
      List.forall_mem_singleton.mpr ⟨nofun, fun record' hrecord => by cases hrecord; exact hnone⟩
    rcases htake : r.take record.value with e | r' | r' | info <;> rw [htake] at h hfault
    · obtain ⟨rfl, rfl⟩ := h
      exact ⟨[first], htrace, .faulty AttemptPlan.undisturbed_nil hfault⟩
    · obtain ⟨added, hadded, hheard⟩ := ih h ((Response.takes_of_take htake).requested.trans hr)
      refine ⟨added ++ [first], ?_, hheard.after (undisturbed hfault)⟩
      rw [hadded, List.append_assoc]
      exact congrArg (added ++ ·) htrace
    · obtain ⟨rfl, rfl⟩ := h
      obtain ⟨-, done, hdone⟩ := Response.step_of_take htake
      have hend : Heard p t.number ([] ++ [(noted.world.now, .answered t.number), first]) (.ok (r', rest))
          { noted with world := noted.world.record (.answered t.number) } :=
        .concluded _ (List.forall_mem_nil _) AttemptPlan.undisturbed_nil hdone
      exact ⟨[(noted.world.now, .answered t.number), first], congrArg (_ :: ·) htrace, hend⟩
    dsimp only at h
    rcases hprovided : p.provided with _ | method <;> rw [hprovided] at hfault
    · rw [showToken_of_none hprovided] at h
      rcases h with ⟨s, hs, rfl⟩ | ⟨mid, hs, -⟩ <;> cases hs
      exact ⟨[first], htrace, .faulty AttemptPlan.undisturbed_nil hfault⟩
    have shown {mid : LoginRun σ} (hmid : Notes Event.ofToken noted mid) :
        ∃ added, mid.world.trace = added ++ run.world.trace ∧ p.Undisturbed added := by
      obtain ⟨-, -, added, hadded, htoken⟩ := hmid
      refine ⟨added ++ [first], ?_, .append ?_ (undisturbed hfault)⟩
      · rw [hadded, List.append_assoc]
        exact congrArg (added ++ ·) htrace
      · exact AttemptPlan.undisturbed_of_readsNothing fun e he => (htoken e he).readsNothing
    rcases h with ⟨s, hs, rfl⟩ | ⟨mid, hs, h⟩ <;>
      obtain ⟨shows, hshows, hquiet⟩ := shown ((showToken_notes p t info).of_eq hs)
    · exact ⟨shows, hshows, .stopped s hquiet⟩
    · obtain ⟨added, hadded, hheard⟩ := ih h hr
      refine ⟨added ++ shows, ?_, hheard.after hquiet⟩
      rw [hadded, hshows, List.append_assoc]

theorem logIn_heard {res : Except Stop AttemptEnd} (h : logIn p t run = (res, run')) :
    ∃ added, run'.world.trace = added ++ run.world.trace ∧ Heard p t.number added res run' := by
  obtain ⟨opening, mid, hopening, -, -, hevents, hcases⟩ := logIn_cases h
  have hquiet : p.Undisturbed opening := AttemptPlan.undisturbed_of_readsNothing fun e he => (hevents e he).readsNothing
  rcases hcases with ⟨rfl, s, rfl⟩ | ⟨ack, -, -, -, h⟩
  · exact ⟨opening, hopening, .stopped s hquiet⟩
  rcases Op.bind_cases h with ⟨s, hs, rfl⟩ | ⟨read, after, hs, h⟩ <;>
    obtain ⟨added, hadded, hheard⟩ := readResponse_heard hs rfl
  · refine ⟨added ++ opening, ?_, hheard.of_error.after hquiet⟩
    rw [hadded, hopening, List.append_assoc]
  · obtain ⟨-, -, closing, hclosing, hclosed⟩ := (conclude_notes p _ read.1).of_eq h
    refine ⟨closing ++ added ++ opening, ?_, (hheard.close hclosed).after hquiet⟩
    rw [hclosing, hadded, hopening, List.append_assoc, List.append_assoc]

/-- An attempt that connects ends as what it hears says. -/
theorem attempt_heard {server : Server σ} {res : Except Stop AttemptEnd} (h : attempt server p run = (res, run')) :
    run' = run ∨ ∃ added, run'.world.trace = added ++ (run.connecting server p).world.trace ∧
      Heard p (run.world.connects + 1) added res run' := by
  rcases attempt_apply server p run with ⟨m, hmissing⟩ | ⟨answer, happly⟩
  · rw [hmissing] at h
    cases h
    exact .inl rfl
  right
  rw [happly] at h
  rcases Op.bind_cases h with ⟨s, hs, rfl⟩ | ⟨t, mid, ht, h⟩
  · have hsame : Notes (fun _ => False) _ _ := (Notes.inWorld (awaitLine_keeps answer _ p.deadline)).of_eq hs
    exact ⟨[], hsame.trace_eq, .stopped s AttemptPlan.undisturbed_nil⟩
  · have hsame : Notes (fun _ => False) _ _ := (Notes.inWorld (awaitLine_keeps answer _ p.deadline)).of_eq ht
    obtain ⟨added, htrace, hheard⟩ := logIn_heard h
    rw [hsame.trace_eq] at htrace
    rw [(transport_of_awaitLine ht).1] at hheard
    exact ⟨added, htrace, hheard⟩

end LoginM

/-- What happens over a connection of a login, other than that a transport is closed or a provider is asked, is among
what the attempt that has made it hears. -/
theorem LoginStart.heard_of_event {s : LoginStart} {server : Server σ} {attempts : Nat} {w : World σ}
    {e : Moment × Event} {older : List (Moment × Event)} (hb : e.2 ≠ .began) (hc : ¬ LoginM.closes e.2)
    (hbetween : ¬ e.2.between) (hconnected : e.2.isConnected = false)
    (he : e :: older <:+ (login server attempts s w).2.world.trace) (hnew : w.trace <:+ older) :
    ∃ r ∈ s.course server attempts w, ∃ target timeout res after added earlier,
      LoginM.roundAttempt (s.context server) r.plan r.run = LoginM.afterAttempt s.config target after res ∧
      after.world.trace =
        added ++ (r.run.world.now, .connected (r.run.world.connects + 1) target timeout) :: r.run.world.trace ∧
      Heard ((s.context server).attempt target timeout r.run.world.now) (r.run.world.connects + 1) added res after ∧
      e :: earlier <:+ added ∧ older =
        earlier ++ (r.run.world.now, .connected (r.run.world.connects + 1) target timeout) :: r.run.world.trace := by
  obtain ⟨r, hr, ended, mid, target, timeout, earlier, ha, hconnects, hearlier, rfl⟩ :=
    attempt_of_event hb hc hbetween hconnected he hnew
  obtain ⟨aliases, res, after, -, hattempt, htry, -⟩ := LoginM.roundAttempt_exchange ha hconnects
  have hworld := (LoginM.tryTarget_kept htry hattempt).1
  rcases LoginM.attempt_heard hattempt with rfl | ⟨added, hadded, hheard⟩
  · -- without a connection nothing has happened
    have hmade := hconnects.connects
    rw [hworld] at hmade
    exact absurd hmade (Nat.ne_of_lt (Nat.lt_succ_self _))
  refine ⟨r, hr, target, timeout, res, after, added, earlier, ?_, hadded, hheard, ?_, rfl⟩
  · rw [ha, ← htry]
    exact LoginM.tryTarget_of_attempt hattempt
  · rw [← hworld] at hadded
    rwa [(hconnects.sinceConnected_eq hadded).1] at hearlier

end TdsSession
