import Mathlib.Data.Set.Card
import Mathlib.Order.Interval.Finset.Nat
import TdsSession.Proofs.Bearer.Overflow
import TdsSession.Proofs.Time.Wait

/-!
# How often a provider is called

A provider is called again only after a failure and a sleep that ends before
the deadline (`Acquisition.Course`). It is told to be too fast a limited
number of times, and the sleeps after the other failures double, so that
their sum, and with it their number, is limited by the time there is. What
the client gets is decided by the last answer.
-/

namespace TdsSession

/-- The moment of a call. -/
def AcquireEvent.call? : AcquireEvent → Option Moment
  | .called t => some t
  | _ => none

/-- What the provider has answered. -/
def AcquireEvent.answer? : AcquireEvent → Option (Except ProviderError BearerToken)
  | .answered _ answer => some answer
  | _ => none

/-- How many of the answers tell the client to slow down. -/
def throttlings (heard : List (Except ProviderError BearerToken)) : Nat :=
  heard.countP fun
    | .error cause => cause.isThrottling
    | .ok _ => false

/-- The sleeps after failures that may pass. -/
def backoffs : List AcquireEvent → List Span
  | .answered _ (.error (.transient _)) :: .slept _ d :: rest => d :: backoffs rest
  | _ :: rest => backoffs rest
  | [] => []

/-- What comes of an acquisition that has heard `heard` and no more. -/
def verdict (r : TokenRequest) (heard : List (Except ProviderError BearerToken)) : Except AuthError BearerToken :=
  match heard.getLast? with
  | none => .error (.acquisitionTimeout r.authority)
  | some (.ok token) => .ok token
  | some (.error (.rateLimited retryAfter)) => .error (.throttled r.authority (throttlings heard) retryAfter)
  | some (.error cause) => .error (.acquisition r.authority r.resource cause)

theorem verdict_concat_ok (r : TokenRequest) (heard : List (Except ProviderError BearerToken)) (token : BearerToken) :
    verdict r (heard ++ [.ok token]) = .ok token := by
  unfold verdict
  rw [List.getLast?_concat]

theorem verdict_concat_error (r : TokenRequest) (heard : List (Except ProviderError BearerToken))
    (cause : ProviderError) :
    verdict r (heard ++ [.error cause]) = .error (AcquirePolicy.reason r (throttlings heard) cause) := by
  unfold verdict throttlings
  rw [List.getLast?_concat, List.countP_append]
  cases cause <;> rfl

theorem AcquirePolicy.giveUp_of_next {p : AcquirePolicy} {r : TokenRequest} {until? : Option Moment} {now : Moment}
    {throttled : Nat} {backoff : Span} {cause : ProviderError} {e : AuthError}
    (h : p.next r until? now throttled backoff cause = .ok (.giveUp e)) : e = reason r throttled cause := by
  rw [next_eq] at h
  rcases hs : p.sleepAfter throttled backoff cause with _ | d <;> rw [hs] at h
  · cases h
    rfl
  · rcases hf : fits until? now d with o | _ | _ <;> simp only [hf] at h <;> cases h
    rfl

namespace Acquisition

/-- The moments of the calls. -/
def calls (a : Acquisition) : List Moment := a.events.filterMap AcquireEvent.call?

/-- What the provider has answered. -/
def heard (a : Acquisition) : List (Except ProviderError BearerToken) := a.events.filterMap AcquireEvent.answer?

/-- How an acquisition can go from `now` on, when the provider has said `throttled` times to slow down and `backoff` is
the next sleep. -/
inductive Course (p : AcquirePolicy) (r : TokenRequest) (until? : Option Moment) :
    Nat → Span → Moment → Acquisition → Prop
  /-- There is no answer. -/
  | unanswered {throttled : Nat} {backoff : Span} {now : Moment} {a : Acquisition}
      (hevents : a.events = [.called now]) (hended : ∀ result, a.ended ≠ .finished result) :
      Course p r until? throttled backoff now a
  /-- The answer is the last. -/
  | answered {throttled : Nat} {backoff : Span} {now t : Moment} {a : Acquisition}
      (answer : Except ProviderError BearerToken) (hevents : a.events = [.called now, .answered t answer])
      (hended : ∀ result, a.ended = .finished result →
        result = answer.mapError (AcquirePolicy.reason r throttled)) :
      Course p r until? throttled backoff now a
  /-- The sleep does not end. -/
  | asleep {throttled : Nat} {backoff d : Span} {now t : Moment} {a : Acquisition} (cause : ProviderError)
      (hle : now ≤ t) (hsleep : p.sleepAfter throttled backoff cause = some d)
      (hfits : AcquirePolicy.fits until? t d = .ok true)
      (hevents : a.events = [.called now, .answered t (.error cause), .slept t d])
      (hended : ∀ result, a.ended ≠ .finished result) :
      Course p r until? throttled backoff now a
  /-- The provider is called again. -/
  | again {throttled : Nat} {backoff d : Span} {now t : Moment} {a : Acquisition} (cause : ProviderError)
      (hle : now ≤ t) (hsleep : p.sleepAfter throttled backoff cause = some d)
      (hfits : AcquirePolicy.fits until? t d = .ok true)
      (hrest : Course p r until? (throttled + [cause].countP ProviderError.isThrottling)
        (Nat.repeat Span.doubled ([cause].countP ProviderError.isTransient) backoff) (t + d) a) :
      Course p r until? throttled backoff now (a.prepend [.called now, .answered t (.error cause), .slept t d])

end Acquisition

variable {p : AcquirePolicy} {r : TokenRequest} {until? : Option Moment}

/-- There is no other way for it to go, if sleeps end on time. -/
theorem askProvider_course (limit : Option Moment) (throttled : Nat) (backoff : Span) (now : Moment)
    (left : List ProviderAnswer) :
    Acquisition.Course p r until? throttled backoff now
      (askProvider p r until? { limit } throttled backoff now left) := by
  fun_induction askProvider p r until? { limit } throttled backoff now left
  case case1 =>
    refine .answered (.error .exhausted) rfl fun result h => ?_
    cases h
    rfl
  case case2 => exact .unanswered rfl fun _ h => by cases h
  case case3 => exact .unanswered rfl fun _ h => by cases h
  case case4 answer _ t _ events token hanswer =>
    refine .answered answer.value rfl fun result h => ?_
    cases h
    rw [hanswer]
    rfl
  case case5 answer _ t _ events cause hanswer o hnext =>
    exact .answered answer.value rfl fun _ h => by cases h
  case case6 answer _ t _ events cause hanswer e hnext =>
    refine .answered answer.value rfl fun result h => ?_
    cases h
    rw [hanswer, AcquirePolicy.giveUp_of_next hnext]
    rfl
  case case7 now answer _ t hwait events cause hanswer throttled' d backoff' hnext t' hslept ih =>
    have hevents : events = [.called now, .answered t (.error cause)] := by rw [← hanswer]
    obtain ⟨hsleep, hfits, rfl, rfl⟩ := AcquirePolicy.again_of_next hnext
    rw [Timer.wait_exact] at hwait hslept
    cases eq_add_of_waitFrom_eq_ready hslept
    rw [hevents]
    exact .again cause (le_of_waitFrom_eq_ready hwait) hsleep hfits ih
  case case8 now answer _ t hwait events cause hanswer throttled' d backoff' hnext t' _ =>
    have hevents : events = [.called now, .answered t (.error cause)] := by rw [← hanswer]
    obtain ⟨hsleep, hfits, -, -⟩ := AcquirePolicy.again_of_next hnext
    exact .asleep cause (le_of_waitFrom_eq_ready hwait) hsleep hfits (by rw [hevents]; rfl) fun _ h => by cases h
  case case9 now answer _ t hwait events cause hanswer throttled' d backoff' hnext _ =>
    have hevents : events = [.called now, .answered t (.error cause)] := by rw [← hanswer]
    obtain ⟨hsleep, hfits, -, -⟩ := AcquirePolicy.again_of_next hnext
    exact .asleep cause (le_of_waitFrom_eq_ready hwait) hsleep hfits (by rw [hevents]; rfl) fun _ h => by cases h

theorem throttlings_cons (cause : ProviderError) (heard : List (Except ProviderError BearerToken)) :
    throttlings (.error cause :: heard) = [cause].countP ProviderError.isThrottling + throttlings heard := by
  unfold throttlings
  cases cause <;> simp [ProviderError.isThrottling, Nat.add_comm]

namespace AcquirePolicy

variable {throttled : Nat} {backoff d : Span} {cause : ProviderError}

/-- A failure after which there is a sleep is of one of two kinds. -/
theorem sleepAfter_cases (h : p.sleepAfter throttled backoff cause = some d) :
    (cause.isThrottling = true ∧ cause.isTransient = false ∧ throttled + 1 < p.maxThrottled) ∨
      (cause.isThrottling = false ∧ cause.isTransient = true ∧ backoff = d) := by
  cases cause with
  | transient reason =>
    cases h
    exact .inr ⟨rfl, rfl, rfl⟩
  | fatal reason => cases h
  | rateLimited retryAfter =>
    dsimp only [sleepAfter] at h
    split at h
    · cases h
    · rename_i hmore
      exact .inl ⟨rfl, rfl, Nat.not_le.mp hmore⟩

/-- A sleep that ends before a deadline ends at a moment that the clock can show. -/
theorem not_overflows_of_fits {t l : Moment} (h : fits (some l) t d = .ok true) : ¬ Span.Overflows t d := by
  intro hover
  have herror : fits (some l) t d = .error .overflow := fits_eq_error_iff.mpr ⟨Option.some_ne_none l, hover⟩
  rw [herror] at h
  cases h

end AcquirePolicy

theorem Span.doubled_of_not_overflows {t : Moment} {d : Span} (h : ¬ Overflows t d) : doubled d = 2 * d := by
  have hlimit : 2 * momentLimit ≤ limit := by decide
  unfold Overflows at h
  unfold doubled
  simp only [Moment, Span] at *
  omega

theorem backoffs_answered (now t : Moment) (answer : Except ProviderError BearerToken) :
    backoffs [.called now, .answered t answer] = [] := by
  rcases answer with (_ | _ | _) | _ <;> rfl

/-- It depends on the failure whether the sleep after it is one of those that double. -/
theorem backoffs_slept {now t : Moment} {cause : ProviderError} {d : Span} (rest : List AcquireEvent) :
    backoffs (.called now :: .answered t (.error cause) :: .slept t d :: rest) =
      if cause.isTransient then d :: backoffs rest else backoffs rest := by
  cases cause <;> rfl

namespace Acquisition

variable (now t : Moment) (cause : ProviderError) (d : Span) (a : Acquisition)

theorem calls_again : (a.prepend [.called now, .answered t (.error cause), .slept t d]).calls = now :: a.calls := rfl

theorem heard_again :
    (a.prepend [.called now, .answered t (.error cause), .slept t d]).heard = .error cause :: a.heard := rfl

theorem backoffs_again : backoffs (a.prepend [.called now, .answered t (.error cause), .slept t d]).events =
    if cause.isTransient then d :: backoffs a.events else backoffs a.events := backoffs_slept a.events

end Acquisition

namespace Acquisition.Course

variable {throttled : Nat} {backoff : Span} {now : Moment} {a : Acquisition}

/-- There is a call at once, and any other comes before the deadline. -/
theorem calls_lt (h : Course p r until? throttled backoff now a) (hnow : ∀ l ∈ until?, now < l) :
    now ∈ a.calls ∧ ∀ t ∈ a.calls, ∀ l ∈ until?, t < l := by
  have one {a : Acquisition} {now : Moment} (hcalls : a.calls = [now]) (hnow : ∀ l ∈ until?, now < l) :
      now ∈ a.calls ∧ ∀ t ∈ a.calls, ∀ l ∈ until?, t < l := by
    rw [hcalls]
    exact ⟨List.mem_singleton_self now, List.forall_mem_singleton.mpr hnow⟩
  induction h with
  | unanswered hevents => exact one (by rw [calls, hevents]; rfl) hnow
  | answered answer hevents => exact one (by rw [calls, hevents]; rfl) hnow
  | asleep cause hle hsleep hfits hevents => exact one (by rw [calls, hevents]; rfl) hnow
  | again cause hle hsleep hfits hrest ih =>
    refine ⟨List.mem_cons_self, List.forall_mem_cons.mpr ⟨hnow, (ih fun l hl => ?_).2⟩⟩
    cases hl
    exact AcquirePolicy.lt_of_fits hfits

/-- Every sleep ends before the deadline. -/
theorem fits_of_slept (h : Course p r until? throttled backoff now a) {t : Moment} {span : Span}
    (hs : .slept t span ∈ a.events) : AcquirePolicy.fits until? t span = .ok true := by
  induction h with
  | unanswered hevents => simp [hevents] at hs
  | answered answer hevents => simp [hevents] at hs
  | asleep cause hle hsleep hfits hevents =>
    rw [hevents] at hs
    simp only [List.mem_cons, List.not_mem_nil, reduceCtorEq, false_or, or_false] at hs
    cases hs
    exact hfits
  | again cause hle hsleep hfits hrest ih =>
    rcases List.mem_append.mp hs with hs | hs
    · simp only [List.mem_cons, List.not_mem_nil, reduceCtorEq, false_or, or_false] at hs
      cases hs
      exact hfits
    · exact ih hs

/-- The last answer decides. -/
theorem verdict_of_finished (h : Course p r until? throttled backoff now a) {result : Except AuthError BearerToken}
    (hended : a.ended = .finished result) : a.heard.length = a.calls.length ∧ ∃ earlier answer,
      a.heard = earlier ++ [answer] ∧
      result = answer.mapError (AcquirePolicy.reason r (throttled + throttlings earlier)) := by
  induction h with
  | unanswered hevents hnot => exact absurd hended (hnot result)
  | asleep cause hle hsleep hfits hevents hnot => exact absurd hended (hnot result)
  | @answered _ _ now t a answer hevents hresult =>
    have hheard : a.heard = [answer] := by rw [heard, hevents]; rfl
    have hcalls : a.calls = [now] := by rw [calls, hevents]; rfl
    rw [hheard, hcalls]
    exact ⟨rfl, [], answer, rfl, hresult result hended⟩
  | again cause hle hsleep hfits hrest ih =>
    obtain ⟨hlength, earlier, answer, hheard, hresult⟩ := ih hended
    refine ⟨congrArg Nat.succ hlength, .error cause :: earlier, answer, congrArg _ hheard, ?_⟩
    rw [hresult, throttlings_cons, Nat.add_assoc]

/-- The provider is not told more often to be too fast than the policy allows. -/
theorem throttlings_le (h : Course p r until? throttled backoff now a) :
    throttled + throttlings a.heard ≤ max (throttled + 1) p.maxThrottled := by
  have last {a : Acquisition} {throttled : Nat} (hlength : a.heard.length ≤ 1) :
      throttled + throttlings a.heard ≤ max (throttled + 1) p.maxThrottled :=
    Nat.le_trans (Nat.add_le_add_left (Nat.le_trans List.countP_le_length hlength) throttled) (Nat.le_max_left ..)
  induction h with
  | unanswered hevents => exact last (by rw [heard, hevents]; exact Nat.zero_le 1)
  | answered answer hevents => exact last (by rw [heard, hevents]; exact Nat.le_refl 1)
  | asleep cause hle hsleep hfits hevents => exact last (by rw [heard, hevents]; exact Nat.le_refl 1)
  | again cause hle hsleep hfits hrest ih =>
    rw [heard_again, throttlings_cons]
    rcases AcquirePolicy.sleepAfter_cases hsleep with ⟨hkind, -, hmore⟩ | ⟨hkind, -, -⟩ <;>
      simp only [List.countP_singleton, hkind, if_true, Bool.false_eq_true, if_false] at ih ⊢ <;> omega

/-- Each sleep after a failure that may pass is twice the one before. -/
theorem backoffs_eq (h : Course p r until? throttled backoff now a)
    (hclock : ∀ t d, .slept t d ∈ a.events → ¬ Span.Overflows t d) {k : Nat} {d : Span}
    (hd : (backoffs a.events)[k]? = some d) : d = backoff * 2 ^ k := by
  induction h generalizing k with
  | unanswered hevents =>
    rw [hevents] at hd
    exact nomatch hd
  | answered answer hevents =>
    rw [hevents, backoffs_answered] at hd
    exact nomatch hd
  | asleep cause hle hsleep hfits hevents =>
    rw [hevents, backoffs_slept] at hd
    rcases AcquirePolicy.sleepAfter_cases hsleep with ⟨-, hkind, -⟩ | ⟨-, hkind, rfl⟩ <;> rw [hkind] at hd
    · exact nomatch hd
    · cases k with
      | zero =>
        cases hd
        rw [Nat.pow_zero, Nat.mul_one]
      | succ k => exact nomatch hd
  | @again _ backoff _ now t a cause hle hsleep hfits hrest ih =>
    have hlater (t d) (h : .slept t d ∈ a.events) := hclock t d (List.mem_append_right _ h)
    rw [backoffs_again] at hd
    rcases AcquirePolicy.sleepAfter_cases hsleep with ⟨-, hkind, -⟩ | ⟨-, hkind, rfl⟩ <;>
      rw [hkind] at hd <;> rw [List.countP_singleton, hkind] at ih
    · exact ih hlater hd
    · cases k with
      | zero =>
        cases hd
        rw [Nat.pow_zero, Nat.mul_one]
      | succ k =>
        have hslept : AcquireEvent.slept t backoff ∈
            (a.prepend [.called now, .answered t (.error cause), .slept t backoff]).events :=
          List.mem_append_left _ (List.mem_cons_of_mem _ (List.mem_cons_of_mem _ List.mem_cons_self))
        calc d = Span.doubled backoff * 2 ^ k := ih hlater hd
          _ = 2 * backoff * 2 ^ k := by rw [Span.doubled_of_not_overflows (hclock t backoff hslept)]
          _ = backoff * 2 ^ (k + 1) := by rw [Nat.pow_succ]; ac_rfl

/-- A sleep, and `K` more of which each is twice as long as the one before. -/
theorem sum_doubled (backoff : Span) (K : Nat) :
    backoff * (2 ^ (K + 1) - 1) = backoff + 2 * backoff * (2 ^ K - 1) := by
  have hpow : 2 ^ (K + 1) - 1 = 1 + 2 * (2 ^ K - 1) := by
    have hpos := Nat.two_pow_pos K
    omega
  rw [hpow, Nat.mul_add, Nat.mul_one, Nat.mul_comm 2 backoff, Nat.mul_assoc]

/-- All of them together end before the deadline. -/
theorem backoffs_lt {l : Moment} (h : Course p r (some l) throttled backoff now a) :
    (backoffs a.events).length = 0 ∨ now + backoff * (2 ^ (backoffs a.events).length - 1) < l := by
  induction h with
  | unanswered hevents =>
    rw [hevents]
    exact .inl rfl
  | answered answer hevents =>
    rw [hevents, backoffs_answered]
    exact .inl rfl
  | asleep cause hle hsleep hfits hevents =>
    rw [hevents, backoffs_slept]
    rcases AcquirePolicy.sleepAfter_cases hsleep with ⟨-, hkind, -⟩ | ⟨-, hkind, rfl⟩ <;> rw [hkind]
    · exact .inl rfl
    · refine .inr (Nat.lt_of_le_of_lt ?_ (AcquirePolicy.lt_of_fits hfits))
      show _ + _ * 1 ≤ _
      rw [Nat.mul_one]
      exact Nat.add_le_add_right hle _
  | @again _ backoff _ now t a cause hle hsleep hfits hrest ih =>
    rw [backoffs_again]
    rcases AcquirePolicy.sleepAfter_cases hsleep with ⟨-, hkind, -⟩ | ⟨-, hkind, rfl⟩ <;>
      rw [List.countP_singleton, hkind] at ih <;> rw [hkind]
    · refine ih.imp_right fun h => Nat.lt_of_le_of_lt (Nat.add_le_add_right ?_ _) h
      exact Nat.le_trans hle (Nat.le_add_right ..)
    · change _ ∨ t + backoff + Span.doubled backoff * _ < l at ih
      rw [Span.doubled_of_not_overflows (AcquirePolicy.not_overflows_of_fits hfits)] at ih
      have hwake := AcquirePolicy.lt_of_fits hfits
      refine .inr ?_
      rw [if_pos rfl, List.length_cons, sum_doubled, ← Nat.add_assoc]
      refine Nat.lt_of_le_of_lt (Nat.add_le_add_right (Nat.add_le_add_right hle backoff) _) ?_
      rcases ih with hnone | hlater
      · rw [hnone]
        exact hwake
      · exact hlater

/-- Between two calls there is a sleep, after a failure of the one or the other kind. -/
theorem calls_le (h : Course p r until? throttled backoff now a) :
    throttled + a.calls.length ≤ (backoffs a.events).length + max (throttled + 1) p.maxThrottled := by
  have last {a : Acquisition} {throttled : Nat} (hlength : a.calls.length ≤ 1) :
      throttled + a.calls.length ≤ (backoffs a.events).length + max (throttled + 1) p.maxThrottled := by omega
  induction h with
  | unanswered hevents => exact last (by rw [calls, hevents]; exact Nat.le_refl 1)
  | answered answer hevents => exact last (by rw [calls, hevents]; exact Nat.le_refl 1)
  | asleep cause hle hsleep hfits hevents => exact last (by rw [calls, hevents]; exact Nat.le_refl 1)
  | again cause hle hsleep hfits hrest ih =>
    rw [calls_again, backoffs_again, List.length_cons]
    rcases AcquirePolicy.sleepAfter_cases hsleep with ⟨hslow, hkind, hmore⟩ | ⟨hslow, hkind, -⟩ <;>
      simp only [List.countP_singleton, hslow, hkind, if_true, Bool.false_eq_true, if_false, List.length_cons]
        at ih ⊢ <;>
      omega

end Acquisition.Course

/-! ## The provider -/

/-- The provider is heard in the order of its answers. -/
theorem askProvider_heard (timer : Timer) (throttled : Nat) (backoff : Span) (now : Moment)
    (left : List ProviderAnswer) :
    (askProvider p r until? timer throttled backoff now left).heard <+:
      left.map Delayed.value ++ [.error .exhausted] := by
  fun_induction askProvider p r until? timer throttled backoff now left
  case case7 now answer left t _ events cause hanswer throttled' sleep backoff' _ t' _ ih =>
    exact (List.prefix_cons_inj answer.value).mpr ih
  case case1 => exact List.prefix_rfl
  case case2 => exact List.nil_prefix
  case case3 => exact List.nil_prefix
  all_goals exact (List.prefix_cons_inj _).mpr List.nil_prefix

/-- What it would answer later makes no difference. -/
theorem askProvider_append (timer : Timer) (throttled : Nat) (backoff : Span) (now : Moment)
    (left more : List ProviderAnswer)
    (h : (askProvider p r until? timer throttled backoff now left).calls.length ≤ left.length) :
    askProvider p r until? timer throttled backoff now (left ++ more) =
      { askProvider p r until? timer throttled backoff now left with
        left := (askProvider p r until? timer throttled backoff now left).left ++ more } := by
  fun_induction askProvider p r until? timer throttled backoff now left
  case case1 => exact absurd h (Nat.not_succ_le_zero 0)
  case case2 hwait | case3 hwait =>
    rw [List.cons_append, askProvider]
    simp only [hwait]
  case case4 hwait events token hanswer =>
    rw [List.cons_append, askProvider]
    simp only [hwait, hanswer, events]
  case case5 hwait events cause hanswer o hnext | case6 hwait events cause hanswer e hnext =>
    rw [List.cons_append, askProvider]
    simp only [hwait, hanswer, hnext, events]
  case case7 hwait events cause hanswer throttled' sleep backoff' hnext t' hslept ih =>
    rw [List.cons_append, askProvider]
    simp only [hwait, hanswer, hnext, hslept, events]
    rw [ih (Nat.le_of_succ_le_succ h)]
    rfl
  case case8 hwait events cause hanswer throttled' sleep backoff' hnext _ hslept |
      case9 hwait events cause hanswer throttled' sleep backoff' hnext hslept =>
    rw [List.cons_append, askProvider]
    simp only [hwait, hanswer, hnext, hslept, events]

/-- If every call is answered and nothing cuts the wait off, getting a token comes to an end, unless the clock
overflows. -/
theorem askProvider_ends (throttled : Nat) (backoff : Span) (now : Moment) (left : List ProviderAnswer)
    (hanswers : ∀ answer ∈ left, answer.delay ≠ none) :
    (askProvider p r until? {} throttled backoff now left).ended = .overflow ∨
      ∃ result, (askProvider p r until? {} throttled backoff now left).ended = .finished result := by
  have ready (now : Moment) (d : Span) : ∃ t, ({} : Timer).wait now (some d) = .ready t := by
    rw [Timer.wait_exact]
    cases d <;> exact ⟨_, rfl⟩
  fun_induction askProvider p r until? {} throttled backoff now left
  case case1 => exact .inr ⟨_, rfl⟩
  case case2 now answer left _ hcut | case3 now answer left hcut =>
    obtain ⟨d, hd⟩ := Option.ne_none_iff_exists'.mp (hanswers answer List.mem_cons_self)
    obtain ⟨t, ht⟩ := ready now d
    rw [hd, ht] at hcut
    cases hcut
  case case4 => exact .inr ⟨_, rfl⟩
  case case5 => exact .inl rfl
  case case6 => exact .inr ⟨_, rfl⟩
  case case7 ih => exact ih fun answer h => hanswers answer (List.mem_cons_of_mem _ h)
  case case8 hcut | case9 hcut =>
    obtain ⟨t, ht⟩ := ready _ _
    rw [ht] at hcut
    cases hcut

/-! ## The whole acquisition -/

/-- As many sleeps that double as end before `D` are at most as many as there are numbers of sleeps that do. -/
theorem le_ncard_of_sum_lt {b : Span} (hb : 0 < b) {D : Span} {K : Nat} (h : K = 0 ∨ b * (2 ^ K - 1) < D) :
    K ≤ {j : Nat | 1 ≤ j ∧ b * (2 ^ j - 1) < D}.ncard := by
  have hfinite : {j : Nat | 1 ≤ j ∧ b * (2 ^ j - 1) < D}.Finite := by
    refine (Set.finite_lt_nat D).subset fun j hj => ?_
    have hpow : j ≤ 2 ^ j - 1 := Nat.le_pred_of_lt Nat.lt_two_pow_self
    exact Nat.lt_of_le_of_lt (Nat.le_trans hpow (Nat.le_mul_of_pos_left _ hb)) hj.2
  have hsubset : (Finset.Icc 1 K : Set Nat) ⊆ {j : Nat | 1 ≤ j ∧ b * (2 ^ j - 1) < D} := by
    intro j hj
    obtain ⟨hone, hle⟩ := Finset.mem_Icc.mp hj
    refine ⟨hone, Nat.lt_of_le_of_lt (Nat.mul_le_mul_left b ?_) (h.resolve_left (by omega))⟩
    exact Nat.sub_le_sub_right (Nat.pow_le_pow_right Nat.two_pos hle) 1
  calc K = (Finset.Icc 1 K : Set Nat).ncard := by rw [Set.ncard_coe_finset, Nat.card_Icc, Nat.add_sub_cancel]
    _ ≤ _ := Set.ncard_le_ncard hsubset hfinite

/-- The clock can show when the sleeps of the acquisition end, also the one that has not been begun for want of time. -/
structure Acquisition.OnClock (a : Acquisition) : Prop where
  ended : a.ended ≠ .overflow
  slept : ∀ t d, .slept t d ∈ a.events → ¬ Span.Overflows t d

/-- Whether an event is no sleep, or one whose end the clock can show. -/
def AcquireEvent.showable : AcquireEvent → Bool
  | .slept t d => t + d < Span.momentLimit
  | _ => true

theorem Acquisition.onClock_of_all {a : Acquisition} (hended : a.ended ≠ .overflow)
    (hevents : a.events.all AcquireEvent.showable = true) : a.OnClock where
  ended := hended
  slept _ _ h := Nat.not_le.mpr (of_decide_eq_true (List.all_eq_true.mp hevents _ h))

/-- A reason not to ask again is not that there was no time to ask at all. -/
theorem AcquirePolicy.reason_ne_timeout (throttled : Nat) (cause : ProviderError) (authority : String) :
    reason r throttled cause ≠ .acquisitionTimeout authority := by
  cases cause <;> exact nofun

theorem passed_iff {now : Moment} : until?.any (· ≤ now) = true ↔ ∃ l ∈ until?, l ≤ now := by
  cases until? <;> simp

/-- No provider is called once the deadline has passed, and only then there is a timeout. Otherwise one is called at
once, and never after the deadline, and its last answer decides what comes of it. It may say to slow down as often as
the policy allows, sleeps after other failures double, and with both the number of calls is limited. -/
theorem acquireToken_keeps_policy (limit : Option Moment) (now : Moment) (answers : List ProviderAnswer)
    (hclock : (acquireToken p r until? { limit } now answers).OnClock) :
    let a := acquireToken p r until? { limit } now answers
    ((∃ l ∈ until?, l ≤ now) → a.calls = [] ∧ a.ended = .finished (.error (.acquisitionTimeout r.authority))) ∧
    ((∀ l ∈ until?, now < l) → now ∈ a.calls ∧ a.ended ≠ .finished (.error (.acquisitionTimeout r.authority)) ∧
      ∀ t ∈ a.calls, ∀ l ∈ until?, t < l) ∧
    (limit = none → (∀ answer ∈ answers, answer.delay ≠ none) → ∃ result, a.ended = .finished result) ∧
    (∀ result, a.ended = .finished result → result = verdict r a.heard ∧ a.heard.length = a.calls.length) ∧
    (a.heard <+: answers.map Delayed.value ++ [.error .exhausted] ∧ ∀ more, a.calls.length ≤ answers.length →
      acquireToken p r until? { limit } now (answers ++ more) = { a with left := a.left ++ more }) ∧
    throttlings a.heard ≤ max 1 p.maxThrottled ∧
    (∀ k d, (backoffs a.events)[k]? = some d → d = p.initialBackoff * 2 ^ k) ∧
    ∀ D, until? = some (now + D) → 0 < p.initialBackoff →
      a.calls.length ≤ {j : Nat | 1 ≤ j ∧ p.initialBackoff * (2 ^ j - 1) < D}.ncard + max 1 p.maxThrottled := by
  by_cases hpassed : ∃ l ∈ until?, l ≤ now
  · have hrun (answers : List ProviderAnswer) : acquireToken p r until? { limit } now answers =
        ⟨.finished (.error (.acquisitionTimeout r.authority)), now, [], answers⟩ := if_pos (passed_iff.mpr hpassed)
    rw [hrun]
    refine ⟨fun _ => ⟨rfl, rfl⟩, fun h => ?_, fun _ _ => ⟨_, rfl⟩, fun result h => ?_,
      ⟨List.nil_prefix, fun more _ => ?_⟩, Nat.zero_le _, nofun, fun D _ _ => Nat.zero_le _⟩
    · obtain ⟨l, hl, hle⟩ := hpassed
      exact absurd (h l hl) (Nat.not_lt.mpr hle)
    · cases h
      exact ⟨rfl, rfl⟩
    · exact hrun _
  · have hnow : ∀ l ∈ until?, now < l := fun l hl => Nat.not_le.mp fun hle => hpassed ⟨l, hl, hle⟩
    have hrun (answers : List ProviderAnswer) : acquireToken p r until? { limit } now answers =
        askProvider p r until? { limit } 0 p.initialBackoff now answers :=
      if_neg (mt passed_iff.mp hpassed)
    have hcourse : Acquisition.Course p r until? 0 p.initialBackoff now _ :=
      askProvider_course limit 0 p.initialBackoff now answers
    rw [hrun] at hclock ⊢
    obtain ⟨hfirst, hbefore⟩ := hcourse.calls_lt hnow
    refine ⟨fun h => absurd h hpassed, fun _ => ⟨hfirst, fun htimeout => ?_, hbefore⟩, fun hlimit hanswers => ?_,
      fun result hended => ?_, ⟨askProvider_heard .., fun more hcalls => ?_⟩, ?_,
      fun k d => hcourse.backoffs_eq hclock.slept, fun D hD hb => ?_⟩
    · obtain ⟨-, earlier, answer, -, hresult⟩ := hcourse.verdict_of_finished htimeout
      cases answer with
      | ok token => cases hresult
      | error cause => exact AcquirePolicy.reason_ne_timeout _ cause _ (Except.error.inj hresult).symm
    · subst hlimit
      exact (askProvider_ends 0 p.initialBackoff now answers hanswers).resolve_left hclock.ended
    · obtain ⟨hlength, earlier, answer, hheard, rfl⟩ := hcourse.verdict_of_finished hended
      refine ⟨?_, hlength⟩
      rw [hheard, Nat.zero_add]
      cases answer with
      | ok token => rw [verdict_concat_ok]; rfl
      | error cause => rw [verdict_concat_error]; rfl
    · rw [hrun]
      exact askProvider_append _ _ _ _ _ more hcalls
    · have hthrottlings := hcourse.throttlings_le
      rwa [Nat.zero_add, Nat.zero_add] at hthrottlings
    · subst hD
      have hsum := hcourse.backoffs_lt.imp_right fun h => Nat.lt_of_add_lt_add_left h
      have hcalls := hcourse.calls_le
      have hcard := le_ncard_of_sum_lt hb hsum
      omega

/-- Whatever provider is asked, the client sleeps only if the sleep ends before the deadline. -/
theorem Provider.fits_of_slept (provider : Provider) {limit : Option Moment} {now t : Moment} {span : Span}
    (h : .slept t span ∈ (provider.acquire p r until? { limit } now).1.events) :
    AcquirePolicy.fits until? t span = .ok true := by
  cases provider with
  | fixed token => cases h
  | answers left =>
    have htoken : .slept t span ∈ (acquireToken p r until? { limit } now left).events := h
    unfold acquireToken at htoken
    split at htoken
    · cases htoken
    · exact (askProvider_course limit 0 p.initialBackoff now left).fits_of_slept htoken

/-- A request to a provider that says to slow down, then is not there, and then gives a token. -/
def patientRequest : TokenRequest := ⟨"authority", "resource", none, none⟩

/-- Its answers. -/
def slowThenDown : List ProviderAnswer :=
  [⟨some 0, .error (.rateLimited (some (Span.ofMillis 50)))⟩, ⟨some (Span.ofMillis 20), .error (.transient "down")⟩,
    ⟨some 0, .error (.transient "down")⟩, ⟨some 0, .ok ⟨"token", Span.ofSeconds 3600⟩⟩]

/-- Within a quarter of a second there is time for one sleep of the two that double, and for three calls. -/
theorem slowThenDown_keeps_policy :
    let a := acquireToken {} patientRequest (some (Span.ofMillis 250)) {} 0 slowThenDown
    a.OnClock ∧ a.ended = .finished (.error (.acquisition "authority" "resource" (.transient "down"))) ∧
      (∀ t ∈ a.calls, t < Span.ofMillis 250) ∧ a.calls.length = 3 := by
  have hclock : (acquireToken {} patientRequest (some (Span.ofMillis 250)) {} 0 slowThenDown).OnClock :=
    Acquisition.onClock_of_all (by intro h; cases h) rfl
  obtain ⟨-, hcalls, hends, hverdict, -⟩ := acquireToken_keeps_policy none 0 slowThenDown hclock
  obtain ⟨-, -, hbefore⟩ := hcalls (by decide)
  obtain ⟨result, hended⟩ := hends rfl (by decide)
  obtain ⟨hresult, -⟩ := hverdict result hended
  exact ⟨hclock, hended.trans (congrArg AcquireEnd.finished hresult), fun t ht => hbefore t ht _ rfl, rfl⟩

end TdsSession
