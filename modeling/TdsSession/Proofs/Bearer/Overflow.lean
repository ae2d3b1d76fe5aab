import TdsSession.Bearer.Acquire

/-!
# When getting a token overflows the clock

Before it asks a provider again, the client looks whether the sleep until then
ends before the deadline, and for that the end of the sleep has to be a moment
that the clock can show. How long the sleep will be is decided by the failures
so far (`AcquirePolicy.considered`), so that the events of an acquisition tell
whether it overflows (`acquireToken_overflow_iff`). Within bounds on the time,
on what providers say, and on the first sleep, none does
(`Provider.acquire_ne_overflow`).
-/

namespace TdsSession

/-! ## What a failure leads to -/

namespace ProviderError

/-- The provider says to slow down. -/
def isThrottling : ProviderError → Bool
  | .rateLimited _ => true
  | _ => false

/-- The failure may pass. -/
def isTransient : ProviderError → Bool
  | .transient _ => true
  | _ => false

/-- The provider says to wait for a span. -/
def hint? : ProviderError → Option Span
  | .rateLimited retryAfter => retryAfter
  | _ => none

end ProviderError

/-- The failure that an event reports. -/
def AcquireEvent.failure? : AcquireEvent → Option ProviderError
  | .answered _ (.error cause) => some cause
  | _ => none

/-- A sleep that begins at `now` ends at a moment that the clock cannot show. -/
def Span.Overflows (now : Moment) (d : Span) : Prop := momentLimit ≤ now + d

theorem Span.after_of_overflows {now : Moment} {d : Span} (h : Overflows now d) :
    after now d = .error .overflow :=
  if_neg (Nat.not_lt.mpr h)

theorem Span.after_of_not_overflows {now : Moment} {d : Span} (h : ¬ Overflows now d) :
    after now d = .ok (now + d) :=
  if_pos (Nat.not_le.mp h)

namespace AcquirePolicy

/-- The sleep for which there has to be time before the provider is asked again after `cause`; there is none
if it is not asked again in any case. -/
def sleepAfter (p : AcquirePolicy) (throttled : Nat) (backoff : Span) : ProviderError → Option Span
  | .rateLimited retryAfter => if p.maxThrottled ≤ throttled + 1 then none else some (retryAfter.getD backoff)
  | .transient _ => some backoff
  | .fatal _ => none

/-- The sleep for which there has to be time after `cause`, if the provider has failed with `earlier` before:
what it asks for, or else a sleep that has doubled with every failure that may pass. -/
def considered (p : AcquirePolicy) (earlier : List ProviderError) : ProviderError → Option Span :=
  p.sleepAfter (earlier.countP ProviderError.isThrottling)
    (Nat.repeat Span.doubled (earlier.countP ProviderError.isTransient) p.initialBackoff)

/-- What is reported if the provider is not asked again after `cause`. -/
def reason (r : TokenRequest) (throttled : Nat) : ProviderError → AuthError
  | .rateLimited retryAfter => .throttled r.authority (throttled + 1) retryAfter
  | cause => .acquisition r.authority r.resource cause

variable {p : AcquirePolicy} {r : TokenRequest} {until? : Option Moment} {now : Moment} {throttled : Nat}
  {backoff : Span} {cause : ProviderError}

/-- The provider is asked again if there is a sleep and it fits; what is counted and how the next sleep grows
depends on the failure. -/
theorem next_eq : p.next r until? now throttled backoff cause =
    match p.sleepAfter throttled backoff cause with
    | none => .ok (.giveUp (reason r throttled cause))
    | some d => (fits until? now d).map fun fit =>
      if fit then
        .again (throttled + [cause].countP ProviderError.isThrottling) d
          (Nat.repeat Span.doubled ([cause].countP ProviderError.isTransient) backoff)
      else .giveUp (reason r throttled cause) := by
  cases cause with
  | rateLimited retryAfter =>
    unfold next sleepAfter
    dsimp only
    split
    · rfl
    · dsimp only
      rcases fits until? now (retryAfter.getD backoff) with o | _ | _ <;> rfl
  | transient reason =>
    unfold next sleepAfter
    dsimp only
    rcases fits until? now backoff with o | _ | _ <;> rfl
  | fatal reason => rfl

/-- Only with a deadline the end of a sleep is asked for. -/
theorem fits_eq_error_iff {d : Span} {o : Overflow} :
    fits until? now d = .error o ↔ until? ≠ none ∧ Span.Overflows now d := by
  cases o
  cases until? with
  | none => exact ⟨fun h => (nomatch h), fun h => absurd rfl h.1⟩
  | some l =>
    unfold fits
    by_cases hd : Span.Overflows now d
    · rw [Span.after_of_overflows hd]
      exact ⟨fun _ => ⟨Option.some_ne_none l, hd⟩, fun _ => rfl⟩
    · rw [Span.after_of_not_overflows hd]
      exact ⟨fun h => (nomatch h), fun h => absurd h.2 hd⟩

theorem lt_of_fits {d : Span} {l : Moment} (h : fits (some l) now d = .ok true) : now + d < l := by
  unfold fits at h
  by_cases hd : Span.Overflows now d
  · rw [Span.after_of_overflows hd] at h
    cases h
  · rw [Span.after_of_not_overflows hd] at h
    exact of_decide_eq_true (Except.ok.inj h)

/-- What to do after a failure overflows the clock exactly if there is a deadline, and the end of the sleep
does. -/
theorem next_eq_error_iff {o : Overflow} :
    p.next r until? now throttled backoff cause = .error o ↔
      until? ≠ none ∧ ∃ d, p.sleepAfter throttled backoff cause = some d ∧ Span.Overflows now d := by
  rw [next_eq]
  rcases p.sleepAfter throttled backoff cause with _ | d
  · exact ⟨fun h => (nomatch h), fun ⟨_, d, hd, _⟩ => (nomatch hd)⟩
  · constructor
    · intro h
      rcases hf : fits until? now d with o' | fit <;> simp only [hf] at h
      · obtain ⟨hu, ho⟩ := fits_eq_error_iff.mp hf
        exact ⟨hu, d, rfl, ho⟩
      · cases h
    · rintro ⟨hu, _, ⟨⟩, ho⟩
      simp only [fits_eq_error_iff (o := o).mpr ⟨hu, ho⟩]
      rfl

/-- The provider is asked again after a sleep that fits. -/
theorem again_of_next {throttled' : Nat} {d backoff' : Span}
    (h : p.next r until? now throttled backoff cause = .ok (.again throttled' d backoff')) :
    p.sleepAfter throttled backoff cause = some d ∧ fits until? now d = .ok true ∧
      throttled' = throttled + [cause].countP ProviderError.isThrottling ∧
      backoff' = Nat.repeat Span.doubled ([cause].countP ProviderError.isTransient) backoff := by
  rw [next_eq] at h
  rcases hs : p.sleepAfter throttled backoff cause with _ | d' <;> rw [hs] at h
  · cases h
  · rcases hf : fits until? now d' with o | _ | _ <;> simp only [hf] at h <;> cases h
    exact ⟨rfl, hf, rfl, rfl⟩

/-- What has been counted and how the sleep has grown is as the failures so far say. -/
structure Tracks (p : AcquirePolicy) (past : List ProviderError) (throttled : Nat) (backoff : Span) : Prop where
  throttled : throttled = past.countP ProviderError.isThrottling
  backoff : backoff = Nat.repeat Span.doubled (past.countP ProviderError.isTransient) p.initialBackoff

theorem Tracks.sleepAfter_eq {past : List ProviderError} (h : p.Tracks past throttled backoff)
    (cause : ProviderError) : p.sleepAfter throttled backoff cause = p.considered past cause := by
  rw [considered, h.throttled, h.backoff]

/-- One more failure, after which the provider is asked again. -/
theorem Tracks.next {past : List ProviderError} (h : p.Tracks past throttled backoff) :
    p.Tracks (past ++ [cause]) (throttled + [cause].countP ProviderError.isThrottling)
      (Nat.repeat Span.doubled ([cause].countP ProviderError.isTransient) backoff) where
  throttled := by rw [h.throttled, List.countP_append]
  backoff := by
    rw [h.backoff, List.countP_append, Nat.add_comm]
    cases hc : cause.isTransient <;> simp [hc, Nat.add_comm 1, Nat.repeat]

end AcquirePolicy

/-! ## The whole acquisition -/

/-- The last that has happened is a failure after which a sleep is considered that ends too late for the
clock, where the provider has failed with `past` before. -/
def Acquisition.EndsLate (p : AcquirePolicy) (past : List ProviderError) (a : Acquisition) : Prop :=
  ∃ earlier t cause d, a.events = earlier ++ [.answered t (.error cause)] ∧
    p.considered (past ++ earlier.filterMap AcquireEvent.failure?) cause = some d ∧ Span.Overflows t d

variable {p : AcquirePolicy} {r : TokenRequest} {until? : Option Moment} {timer : Timer}
  {past : List ProviderError} {a : Acquisition}

/-- It depends on the last event whether an acquisition ends late. -/
theorem Acquisition.endsLate_iff (earlier : List AcquireEvent) {e : AcquireEvent} (h : a.events = earlier ++ [e]) :
    a.EndsLate p past ↔ ∃ t cause d, e = .answered t (.error cause) ∧
      p.considered (past ++ earlier.filterMap AcquireEvent.failure?) cause = some d ∧ Span.Overflows t d := by
  constructor
  · rintro ⟨earlier', t, cause, d, hlast, hd, ho⟩
    obtain ⟨rfl, he⟩ := List.append_inj' (h.symm.trans hlast) rfl
    exact ⟨t, cause, d, List.singleton_inj.mp he, hd, ho⟩
  · rintro ⟨t, cause, d, rfl, hd, ho⟩
    exact ⟨earlier, t, cause, d, h, hd, ho⟩

/-- An acquisition whose last event is no failure does not end late. -/
theorem Acquisition.not_endsLate (earlier : List AcquireEvent) {e : AcquireEvent} (h : a.events = earlier ++ [e])
    (he : e.failure? = none) : ¬ a.EndsLate p past := by
  rw [endsLate_iff earlier h]
  rintro ⟨t, cause, d, rfl, -⟩
  cases he

/-- What happened up to a sleep adds to the failures before, and to nothing else. -/
theorem Acquisition.endsLate_prepend (events : List AcquireEvent) (t : Moment) (d : Span) :
    (a.prepend (events ++ [.slept t d])).EndsLate p past ↔
      a.EndsLate p (past ++ events.filterMap AcquireEvent.failure?) := by
  rcases List.eq_nil_or_concat a.events with hnil | ⟨rest, last, hlast⟩
  · have hprepended : (a.prepend (events ++ [.slept t d])).events = events ++ [.slept t d] := by
      rw [prepend, hnil, List.append_nil]
    rw [endsLate_iff events hprepended]
    constructor
    · rintro ⟨_, _, _, he, -⟩
      cases he
    · rintro ⟨earlier, t, cause, d, he, -⟩
      rw [hnil] at he
      exact absurd he.symm (List.append_ne_nil_of_right_ne_nil _ (List.cons_ne_nil _ _))
  · rw [List.concat_eq_append] at hlast
    have hprepended : (a.prepend (events ++ [.slept t d])).events = (events ++ [.slept t d] ++ rest) ++ [last] := by
      simp only [prepend, hlast, List.append_assoc]
    have hslept : [AcquireEvent.slept t d].filterMap AcquireEvent.failure? = [] := rfl
    rw [endsLate_iff _ hprepended, endsLate_iff rest hlast, List.filterMap_append, List.filterMap_append, hslept,
      List.append_nil, List.append_assoc]

/-- After a failure it depends on the sleep that is considered. -/
theorem AcquirePolicy.Tracks.endsLate_iff {throttled : Nat} {backoff : Span} (h : p.Tracks past throttled backoff)
    {now t : Moment} {cause : ProviderError} (hevents : a.events = [.called now, .answered t (.error cause)]) :
    a.EndsLate p past ↔ ∃ d, p.sleepAfter throttled backoff cause = some d ∧ Span.Overflows t d := by
  have hearlier : [AcquireEvent.called now].filterMap AcquireEvent.failure? = [] := rfl
  rw [Acquisition.endsLate_iff [.called now] hevents, hearlier, List.append_nil]
  constructor
  · rintro ⟨_, _, d, ⟨⟩, hd, ho⟩
    exact ⟨d, (h.sleepAfter_eq cause).trans hd, ho⟩
  · rintro ⟨d, hd, ho⟩
    exact ⟨t, cause, d, rfl, (h.sleepAfter_eq cause).symm.trans hd, ho⟩

/-- The events of an acquisition that goes on from `past` tell whether it overflows. -/
theorem askProvider_overflow_iff {throttled : Nat} {backoff : Span} (h : p.Tracks past throttled backoff)
    (now : Moment) (left : List ProviderAnswer) :
    (askProvider p r until? timer throttled backoff now left).ended = .overflow ↔
      until? ≠ none ∧ (askProvider p r until? timer throttled backoff now left).EndsLate p past := by
  have apart {past : List ProviderError} {a : Acquisition} (hended : a.ended ≠ .overflow)
      (hlate : ¬ a.EndsLate p past) : a.ended = .overflow ↔ until? ≠ none ∧ a.EndsLate p past :=
    ⟨fun h => absurd h hended, fun h => absurd h.2 hlate⟩
  fun_induction askProvider p r until? timer throttled backoff now left generalizing past
  case case1 =>
    refine apart nofun ?_
    rw [h.endsLate_iff rfl]
    rintro ⟨d, hd, -⟩
    cases hd
  case case2 => exact apart nofun (Acquisition.not_endsLate [] rfl rfl)
  case case3 => exact apart nofun (Acquisition.not_endsLate [] rfl rfl)
  case case4 now answer _ t _ events token hanswer =>
    refine apart nofun (Acquisition.not_endsLate [.called now] rfl ?_)
    rw [hanswer]
    rfl
  case case5 now answer _ t _ events cause hanswer o hnext =>
    have hevents : events = [.called now, .answered t (.error cause)] := by rw [← hanswer]
    obtain ⟨hu, hlate⟩ := AcquirePolicy.next_eq_error_iff.mp hnext
    exact ⟨fun _ => ⟨hu, (h.endsLate_iff hevents).mpr hlate⟩, fun _ => rfl⟩
  case case6 now answer _ t _ events cause hanswer e hnext =>
    have hevents : events = [.called now, .answered t (.error cause)] := by rw [← hanswer]
    refine ⟨fun h => (nomatch h), fun ⟨hu, hlate⟩ => ?_⟩
    have herror : p.next r until? t _ _ cause = .error .overflow :=
      AcquirePolicy.next_eq_error_iff.mpr ⟨hu, (h.endsLate_iff hevents).mp hlate⟩
    rw [hnext] at herror
    cases herror
  case case7 now answer _ t _ events cause hanswer throttled' sleep backoff' hnext t' _ ih =>
    obtain ⟨-, -, rfl, rfl⟩ := AcquirePolicy.again_of_next hnext
    have hfailures : events.filterMap AcquireEvent.failure? = [cause] := by
      show [_, _].filterMap _ = _
      rw [hanswer]
      rfl
    rw [Acquisition.endsLate_prepend, hfailures]
    exact ih h.next
  case case8 => exact apart nofun (Acquisition.not_endsLate _ rfl rfl)
  case case9 => exact apart nofun (Acquisition.not_endsLate _ rfl rfl)

/-- Getting a token overflows the clock exactly if there is a deadline and it ends late. -/
theorem acquireToken_overflow_iff (now : Moment) (answers : List ProviderAnswer) :
    (acquireToken p r until? timer now answers).ended = .overflow ↔
      until? ≠ none ∧ (acquireToken p r until? timer now answers).EndsLate p [] := by
  unfold acquireToken
  split
  · refine ⟨fun h => (nomatch h), fun ⟨_, hlate⟩ => ?_⟩
    obtain ⟨earlier, t, cause, d, hevents, -⟩ := hlate
    exact absurd hevents.symm (List.append_ne_nil_of_right_ne_nil _ (List.cons_ne_nil _ _))
  · have hstart : p.Tracks [] 0 p.initialBackoff := ⟨rfl, rfl⟩
    exact askProvider_overflow_iff hstart now answers

/-- Without a deadline no acquisition overflows. -/
theorem Provider.acquire_ne_overflow_of_none (provider : Provider) (now : Moment) :
    (provider.acquire p r none timer now).1.ended ≠ .overflow := by
  cases provider with
  | fixed token => exact nofun
  | answers left => exact fun h => absurd rfl ((acquireToken_overflow_iff now left).mp h).1

/-! ## Within bounds -/

/-- The answer asks for no wait longer than `b`. -/
def ProviderAnswer.AsksWithin (b : Span) (answer : ProviderAnswer) : Prop :=
  ∀ cause, answer.value = .error cause → ∀ d ∈ cause.hint?, d ≤ b

/-- The provider never asks for a wait longer than `b`. -/
def Provider.AsksWithin (b : Span) : Provider → Prop
  | .answers left => ∀ answer ∈ left, answer.AsksWithin b
  | .fixed _ => True

/-- The answers that are left are some of those there were. -/
theorem askProvider_left_subset (throttled : Nat) (backoff : Span) (now : Moment) (left : List ProviderAnswer) :
    (askProvider p r until? timer throttled backoff now left).left ⊆ left := by
  fun_induction askProvider p r until? timer throttled backoff now left
  case case1 => exact fun _ h => h
  case case7 ih => exact fun _ h => List.mem_cons_of_mem _ (ih h)
  all_goals exact List.subset_cons_self _ _

theorem Provider.AsksWithin.acquire {b : Span} {provider : Provider} (h : provider.AsksWithin b) (p : AcquirePolicy)
    (r : TokenRequest) (until? : Option Moment) (timer : Timer) (now : Moment) :
    (provider.acquire p r until? timer now).2.AsksWithin b := by
  cases provider with
  | fixed token => trivial
  | answers left =>
    show ∀ answer ∈ (acquireToken p r until? timer now left).left, _
    unfold acquireToken
    split
    · exact h
    · exact fun answer hanswer => h answer (askProvider_left_subset _ _ _ _ hanswer)

/-- No provider of the client ever asks for a wait longer than `b`. -/
def ProviderRegistry.AsksWithin (b : Span) (providers : ProviderRegistry) : Prop :=
  ∀ method provider, Table.find? providers method = some provider → provider.AsksWithin b

theorem ProviderRegistry.AsksWithin.set {b : Span} {providers : ProviderRegistry} (h : providers.AsksWithin b)
    (method : AuthMethod) {provider : Provider} (hprovider : provider.AsksWithin b) :
    ProviderRegistry.AsksWithin b (Table.set providers method provider) := by
  intro other found hfound
  rw [Table.find?_set] at hfound
  split at hfound
  · cases hfound
    exact hprovider
  · exact h other found hfound

section

variable {e b : Moment} {l : Moment}
  (hready : ∀ {now delay t}, now ≤ e → timer.wait now delay = .ready t → t ≤ e)
  (hdouble : 2 * e ≤ b) (hlimit : e + b < Span.momentLimit)

include hlimit in
/-- What to do after a failure does not overflow the clock where that shows no time beyond `e` and no sleep is
longer than `b`. -/
theorem AcquirePolicy.next_ne_error {t : Moment} (ht : t ≤ e) {throttled : Nat} {backoff : Span}
    (hbackoff : backoff ≤ b) {cause : ProviderError} (hcause : ∀ d ∈ cause.hint?, d ≤ b) (o : Overflow) :
    p.next r until? t throttled backoff cause ≠ .error o := by
  intro h
  obtain ⟨-, d, hd, ho⟩ := next_eq_error_iff.mp h
  have hsleep : d ≤ b := by
    cases cause with
    | rateLimited retryAfter =>
      simp only [sleepAfter] at hd
      split at hd <;> cases hd
      cases retryAfter with
      | none => exact hbackoff
      | some d => exact hcause d rfl
    | transient reason =>
      cases hd
      exact hbackoff
    | fatal reason => cases hd
  unfold Span.Overflows at ho
  simp only [Moment, Span] at *
  omega

include hdouble in
/-- A sleep that is borne ends before the deadline, so that the next one is no longer than twice that. -/
theorem AcquirePolicy.backoff_le_of_next (hl : l ≤ e) {t : Moment} {throttled throttled' : Nat}
    {backoff d backoff' : Span} (hbackoff : backoff ≤ b) {cause : ProviderError}
    (h : p.next r (some l) t throttled backoff cause = .ok (.again throttled' d backoff')) : backoff' ≤ b := by
  obtain ⟨hsleep, hfits, -, rfl⟩ := again_of_next h
  cases cause with
  | rateLimited retryAfter => exact hbackoff
  | transient reason =>
    cases hsleep
    have hend := lt_of_fits hfits
    have hdoubled : Span.doubled backoff ≤ 2 * backoff := Nat.min_le_left ..
    show Span.doubled backoff ≤ b
    simp only [Moment, Span] at *
    omega
  | fatal reason => exact hbackoff

include hready hdouble hlimit in
/-- A provider that is asked until a moment near enough, and that asks for no long waits, does not make the
clock overflow. -/
theorem askProvider_ne_overflow (hl : l ≤ e) {throttled : Nat} {backoff : Span} {now : Moment}
    {left : List ProviderAnswer} (hnow : now ≤ e) (hbackoff : backoff ≤ b)
    (hleft : ∀ answer ∈ left, answer.AsksWithin b) :
    (askProvider p r (some l) timer throttled backoff now left).ended ≠ .overflow := by
  fun_induction askProvider p r (some l) timer throttled backoff now left
  case case5 answer left t hwait events cause hanswer o hnext =>
    have hcause : ∀ d ∈ cause.hint?, d ≤ b := hleft answer List.mem_cons_self cause hanswer
    exact absurd hnext (AcquirePolicy.next_ne_error hlimit (hready hnow hwait) hbackoff hcause o)
  case case7 answer left t hwait events cause hanswer throttled' sleep backoff' hnext t' hsleep ih =>
    exact ih (hready (hready hnow hwait) hsleep) (AcquirePolicy.backoff_le_of_next hdouble hl hbackoff hnext)
      fun answer h => hleft answer (List.mem_cons_of_mem _ h)
  all_goals exact nofun

include hready hdouble hlimit in
/-- So no acquisition overflows that starts by `e` and whose deadline is not after `e`. -/
theorem Provider.acquire_ne_overflow (hl : l ≤ e) (hinitial : p.initialBackoff ≤ b) {provider : Provider}
    (hprovider : provider.AsksWithin b) {now : Moment} (hnow : now ≤ e) :
    (provider.acquire p r (some l) timer now).1.ended ≠ .overflow := by
  cases provider with
  | fixed token => exact nofun
  | answers left =>
    show (acquireToken p r (some l) timer now left).ended ≠ .overflow
    unfold acquireToken
    split
    · exact nofun
    · exact askProvider_ne_overflow hready hdouble hlimit hl hnow hinitial hprovider

end

end TdsSession
