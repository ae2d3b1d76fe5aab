import TdsSession.Proofs.Login.Gathered
import TdsSession.Proofs.Login.Heard

/-!
# What a response decides

The records of a response decide how an attempt ends (`AttemptPlan.verdict`). The
first of them that makes the attempt fail does so; but if a final DONE comes
before it, the records up to there count: the first failure that they report,
else the last target they send the login on to, else what is missing. If neither
comes, the end of the stream is the failure. A record that every response reads
past as it is (`Record.Idle`) has no part in this: without such records the
verdict is the same (`verdict_filter`).
-/

namespace TdsSession

/-- A record that is received; if it asks for a token, with the error for which none is shown, if there is one. -/
structure Reception where
  record : Record
  tokenError? : Option Error := none

/-- How an attempt ends: it fails, is sent on, or opens a session by what a response has gathered. -/
inductive Verdict
  | failed (e : Error)
  | routed (target : Routing)
  | opened (r : Response)

/-- What a record asks a token with. -/
def Record.tokenRequest? (record : Record) : Option FedAuthInfo :=
  match RecordKind.ofCode? record.code, FedAuthInfo.read record.body with
  | some .fedAuthInfo, .ok (info, _) => some info
  | _, _ => none

/-- The response after records; one that it refuses changes nothing. -/
def Response.past (r : Response) (records : List Record) : Response :=
  records.foldl (fun r record => ((r.advance record).toOption).getD r) r

namespace AttemptPlan

/-- Why an attempt fails at a record that it receives, if it does: something is wrong with the record, or no token
can be shown after it. -/
def failure? (p : AttemptPlan) (a : Reception) : Option Error :=
  match p.fault? a.record with
  | some e => some (.protocol e)
  | none => a.record.tokenRequest?.bind fun _ => a.tokenError?

/-- The attempt receives nothing after the record: it fails there, or the record is a final DONE. -/
def decides (p : AttemptPlan) (a : Reception) : Bool := (p.failure? a).isSome || a.record.finalDone?.isSome

/-- The records that the attempt reads past. -/
def passed (p : AttemptPlan) (all : List Reception) : List Record :=
  (all.takeWhile fun a => !p.decides a).map Reception.record

/-- What the attempt receives: what it reads past, and one more, if there is one. -/
def heard (p : AttemptPlan) (all : List Reception) : List Reception := all.take ((p.passed all).length + 1)

/-- What records come to that are followed by a final DONE. -/
def conclusion (p : AttemptPlan) (first : Response) (records : List Record) : Verdict :=
  match records.findSome? Record.failure? with
  | some e => .failed e
  | none =>
    match records.reverse.findSome? Record.routing? with
    | some target => .routed target
    | none =>
      if !records.any Record.accepts then .failed (.loginIncomplete "server finished without LOGINACK")
      else if p.recovery.isSome && !records.any Record.carriesOver then
        .failed (.loginIncomplete "server did not acknowledge session recovery")
      else .opened (first.past records)

/-- Why a response is not read to its end, if it is not: the attempt fails at a record, or as the stream ends. -/
def breaksOff? (p : AttemptPlan) (ending : Error) (all : List Reception) : Option Error :=
  match all.find? p.decides with
  | none => some ending
  | some a => p.failure? a

/-- How an attempt ends that receives records, until the stream ends with an error. -/
def verdict (p : AttemptPlan) (first : Response) (ending : Error) (all : List Reception) : Verdict :=
  match p.breaksOff? ending all with
  | some e => .failed e
  | none => p.conclusion first (p.passed all)

end AttemptPlan

/-! ## Records that are read past -/

namespace Response

variable {r r' : Response} {record : Record} {records : List Record}

theorem take_eq_wantsToken_iff {info : FedAuthInfo} :
    r.take record = .ok (.wantsToken info) ↔ record.tokenRequest? = some info := by
  constructor
  · intro h
    have hkind := step_of_take h
    unfold take at h
    rw [hkind] at h
    unfold Record.tokenRequest?
    obtain ⟨⟨_, _⟩, hread, h⟩ := Op.except_bind_eq_ok.mp h
    rw [hkind, hread]
    cases h
    rfl
  · intro h
    unfold Record.tokenRequest? at h
    split at h
    · rename_i hkind hread
      cases h
      unfold take
      simp only [hkind, hread]
      rfl
    · cases h

/-- Only what completes a response is a final DONE. -/
theorem finalDone?_eq_none (h : ∀ r', r.take record ≠ .ok (.complete r')) : record.finalDone? = none := by
  rcases hdone : record.finalDone? with _ | done
  · rfl
  · exact absurd (take_of_finalDone? hdone r) (h r)

theorem past_cons (r : Response) (record : Record) (records : List Record) :
    r.past (record :: records) = (((r.advance record).toOption).getD r).past records := rfl

theorem past_of_advanceAll (h : r.advanceAll records = .ok r') : r.past records = r' := by
  induction records generalizing r with
  | nil =>
    cases h
    rfl
  | cons record records ih =>
    rw [advanceAll_cons] at h
    obtain ⟨mid, hmid, h⟩ := Op.except_bind_eq_ok.mp h
    rw [past_cons, hmid]
    exact ih h

end Response

namespace AttemptPlan

variable {p : AttemptPlan} {a : Reception} {all : List Reception} {r : Response}

theorem failure?_of_not_decides (h : p.decides a = false) : p.failure? a = none :=
  Option.isNone_iff_eq_none.mp (Option.isSome_eq_false_iff.mp (Bool.or_eq_false_iff.mp h).1)

theorem decides_of_failure? {e : Error} (h : p.failure? a = some e) : p.decides a = true := by
  unfold decides
  rw [h]
  rfl

theorem decides_eq (h : p.failure? a = none) : p.decides a = a.record.finalDone?.isSome := by
  unfold decides
  rw [h]
  rfl

theorem fault?_of_failure? (h : p.failure? a = none) : p.fault? a.record = none := by
  unfold failure? at h
  split at h
  · cases h
  · assumption

theorem passed_cons_of_decides (h : p.decides a = true) : p.passed (a :: all) = [] := by
  unfold passed
  rw [List.takeWhile_cons_of_neg (by rw [h]; exact Bool.false_ne_true)]
  rfl

theorem passed_cons_of_not_decides (h : p.decides a = false) : p.passed (a :: all) = a.record :: p.passed all := by
  unfold passed
  rw [List.takeWhile_cons_of_pos (by rw [h]; rfl)]
  rfl

theorem heard_cons_of_decides (h : p.decides a = true) : p.heard (a :: all) = [a] := by
  unfold heard
  rw [passed_cons_of_decides h]
  rfl

theorem heard_cons_of_not_decides (h : p.decides a = false) : p.heard (a :: all) = a :: p.heard all := by
  unfold heard
  rw [passed_cons_of_not_decides h]
  rfl

theorem breaksOff?_cons_of_decides (h : p.decides a = true) (ending : Error) :
    p.breaksOff? ending (a :: all) = p.failure? a := by
  unfold breaksOff?
  rw [List.find?_cons_of_pos h]

theorem breaksOff?_cons_of_not_decides (h : p.decides a = false) (ending : Error) :
    p.breaksOff? ending (a :: all) = p.breaksOff? ending all := by
  unfold breaksOff?
  rw [List.find?_cons_of_neg (by rw [h]; exact Bool.false_ne_true)]

/-- A response takes whatever is read past. -/
theorem advanceAll_passed (hr : r.capabilities.requested = p.config.loginFeatures) (all : List Reception) :
    r.advanceAll (p.passed all) = .ok (r.past (p.passed all)) := by
  induction all generalizing r with
  | nil => rfl
  | cons a all ih =>
    rcases hdecides : p.decides a with _ | _
    · have hfault := fault?_eq hr a.record
      rw [fault?_of_failure? (failure?_of_not_decides hdecides)] at hfault
      rw [passed_cons_of_not_decides hdecides, Response.advanceAll_cons, Response.past_cons]
      rcases htake : r.take a.record with e | step
      · rw [htake] at hfault
        cases hfault
      · rw [Response.advance_of_take htake]
        exact ih ((Response.takes_of_take htake).requested.trans hr)
    · rw [passed_cons_of_decides hdecides]
      rfl

end AttemptPlan

/-! ## Records that say nothing -/

/-- A record that says nothing about a login: its type is unknown, or that of the change which it reports; or it is a
message that is not meant as a failure, or not a bad one. -/
def Record.isIdle (record : Record) : Bool :=
  match RecordKind.ofCode? record.code with
  | none => true
  | some .envChange =>
    match EnvChange.read record.body with
    | .ok (change, _) => change.isNone
    | .error _ => false
  | some .info => (ServerMessage.read record.body).isOk
  | some .error =>
    match ServerMessage.read record.body with
    | .ok (m, _) => m.severity ≤ Response.maxWarning
    | .error _ => false
  | _ => false

/-- Every response reads past the record, and stays as it is. -/
def Record.Idle (record : Record) : Prop := ∀ r : Response, r.take record = .ok (.more r)

namespace Record

variable {record : Record}

theorem idle_of_isIdle (h : record.isIdle = true) : record.Idle := by
  intro r
  unfold isIdle at h
  unfold Response.take
  split at h <;> rename_i hkind <;> simp only [hkind]
  · rcases hread : EnvChange.read record.body with e | ⟨change, rest⟩ <;> rw [hread] at h
    · cases h
    · rw [Option.isNone_iff_eq_none] at h
      subst h
      rfl
  · rcases hread : ServerMessage.read record.body with e | m <;> rw [hread] at h
    · cases h
    · rfl
  · rcases hread : ServerMessage.read record.body with e | ⟨m, rest⟩ <;> rw [hread] at h
    · cases h
    · have hmild : r.takeError m = r := if_neg fun hbad => UInt8.not_lt.mpr (of_decide_eq_true h) hbad.1
      show Except.ok (ResponseStep.more (r.takeError m)) = _
      rw [hmild]
  · cases h

namespace Idle

variable (h : record.Idle)

include h

/-- What a response gathers from the record is nothing. -/
theorem says_nothing : record.failure? = none ∧ record.routing? = none ∧ record.accepts = false ∧
    record.carriesOver = false := by
  have htake := h { capabilities := .empty .all, session := .new }
  have hgathers := Response.gathers_of_take htake
  have hone {f : Record → Bool} (hf : false = ([record].any f || false)) : f record = false := by
    rw [List.any_cons, List.any_nil, Bool.or_false, Bool.or_false] at hf
    exact hf.symm
  refine ⟨(Response.error?_of_take htake).symm, ?_, hone hgathers.accepted, hone hgathers.sessionRecovery⟩
  have hnone : none = record.routing?.or none := (Response.named_of_take htake).2
  rw [Option.or_none] at hnone
  exact hnone.symm

theorem fault? (p : AttemptPlan) : p.fault? record = none := by
  have hfault := AttemptPlan.fault?_eq (p := p)
    (r := { capabilities := .empty p.config.loginFeatures, session := .new }) rfl record
  rw [h] at hfault
  exact hfault

theorem tokenRequest? : record.tokenRequest? = none := by
  rcases hasks : record.tokenRequest? with _ | info
  · rfl
  · cases (h { capabilities := .empty .all, session := .new }).symm.trans (Response.take_eq_wantsToken_iff.mpr hasks)

theorem finalDone? : record.finalDone? = none :=
  Response.finalDone?_eq_none (r := { capabilities := .empty .all, session := .new }) fun r' hcomplete => by
    cases (h _).symm.trans hcomplete

theorem decides (p : AttemptPlan) {a : Reception} (ha : a.record = record) : p.decides a = false := by
  unfold AttemptPlan.decides AttemptPlan.failure?
  rw [ha, h.fault? p, h.tokenRequest?, h.finalDone?]
  rfl

end Idle

end Record

/-- Nothing that a function finds in `as` is lost by leaving out where it finds nothing. -/
theorem findSome?_filter {α β : Type} {f : α → Option β} {keep : α → Bool} (h : ∀ a, keep a = false → f a = none)
    (as : List α) : (as.filter keep).findSome? f = as.findSome? f := by
  induction as with
  | nil => rfl
  | cons a as ih =>
    rcases hkeep : keep a with _ | _
    · rw [List.filter_cons_of_neg (by rw [hkeep]; exact Bool.false_ne_true), List.findSome?_cons, h a hkeep, ih]
    · rw [List.filter_cons_of_pos hkeep, List.findSome?_cons, List.findSome?_cons, ih]

namespace AttemptPlan

variable (p : AttemptPlan) (first : Response)

/-- What records come to is what those come to that say something. -/
theorem conclusion_filter (records : List Record) :
    p.conclusion first (records.filter (!·.isIdle)) = p.conclusion first records := by
  have idle {record : Record} (h : (!record.isIdle) = false) : record.Idle :=
    Record.idle_of_isIdle (Bool.not_eq_eq_eq_not.mp h)
  have any {f : Record → Bool} (hf : ∀ record, (!record.isIdle) = false → f record = false) :
      (records.filter (!·.isIdle)).any f = records.any f := by
    rw [List.any_filter]
    refine congrArg records.any (funext fun record => ?_)
    rcases hidle : !record.isIdle with _ | _
    · exact (hf record hidle).symm
    · rfl
  have hpast : first.past (records.filter (!·.isIdle)) = first.past records := by
    unfold Response.past
    rw [List.foldl_filter]
    refine congrArg (List.foldl · first records) (funext fun r => funext fun record => ?_)
    rcases hidle : !record.isIdle with _ | _
    · rw [Response.advance_of_take (idle hidle r)]
      rfl
    · rfl
  unfold conclusion
  rw [← List.filter_reverse, findSome?_filter (fun record hrecord => (idle hrecord).says_nothing.1),
    findSome?_filter (fun record hrecord => (idle hrecord).says_nothing.2.1),
    any fun record hrecord => (idle hrecord).says_nothing.2.2.1,
    any fun record hrecord => (idle hrecord).says_nothing.2.2.2, hpast]

/-- Records that say nothing have no part in how an attempt ends. -/
theorem verdict_filter (ending : Error) (all : List Reception) :
    p.verdict first ending (all.filter fun a => !a.record.isIdle) = p.verdict first ending all := by
  have idle {a : Reception} (h : a.record.isIdle = true) : p.decides a = false :=
    (Record.idle_of_isIdle h).decides p rfl
  have hfind : (all.filter fun a => !a.record.isIdle).find? p.decides = all.find? p.decides := by
    rw [List.find?_filter]
    refine congrArg (List.find? · all) (funext fun a => ?_)
    rcases hidle : a.record.isIdle with _ | _
    · rcases p.decides a with _ | _ <;> rfl
    · rw [idle hidle]
      rfl
  have hpassed : p.passed (all.filter fun a => !a.record.isIdle) = (p.passed all).filter (!·.isIdle) := by
    unfold passed
    rw [List.takeWhile_filter, List.filter_map]
    refine congrArg (fun f => ((all.takeWhile f).filter _).map _) (funext fun a => ?_)
    rcases hidle : a.record.isIdle with _ | _
    · rfl
    · rw [idle hidle]
      rfl
  unfold verdict breaksOff?
  rw [hfind, hpassed, conclusion_filter]

end AttemptPlan

end TdsSession
