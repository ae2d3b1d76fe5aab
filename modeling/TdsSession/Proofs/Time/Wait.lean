import TdsSession.Time.Wait

/-!
# How long a wait takes

A wait that is not cut off takes its delay, and no wait goes on past its limit.
An operation with a deadline is `InTime`: it ends by the deadline, unless that
had passed before.
-/

namespace TdsSession

/-- A wait that is not cut off takes as long as it was set to. -/
theorem eq_add_of_waitFrom_eq_ready {now t : Moment} {d : Span} {limit : Option Moment}
    (h : waitFrom now (some d) limit = .ready t) : t = now + d := by
  unfold waitFrom at h
  split at h
  · rename_i hd
    cases hd
    cases h
    rfl
  · rename_i _ hd
    cases hd
    cases h
    rfl
  · rename_i _ hd
    cases hd
    split at h
    · cases h
      rfl
    · cases h
  · cases h
  · cases h

/-- A wait is over by its limit, or at once if that has passed. -/
theorem le_of_waitFrom_eq_ready_some {now t l : Moment} {delay : Option Span}
    (h : waitFrom now delay (some l) = .ready t) : t ≤ max now l := by
  unfold waitFrom at h
  split at h
  · cases h
    exact Nat.le_max_left now l
  · rename_i hl
    cases hl
  · rename_i d l' hl
    cases hl
    split at h
    · rename_i hle
      cases h
      exact Nat.le_trans hle (Nat.le_max_right now l)
    · cases h
  · cases h
  · cases h

theorem earlier_le {a b : Option Moment} {d : Moment} (h : d ∈ a) : ∃ l, earlier a b = some l ∧ l ≤ d := by
  cases h
  cases b with
  | none => exact ⟨d, rfl, Nat.le_refl d⟩
  | some b => exact ⟨min d b, rfl, Nat.min_le_left d b⟩

/-- `t` is no earlier than `now`, and no later than the deadline unless that had passed. -/
def InTime (deadline : Option Moment) (now t : Moment) : Prop :=
  now ≤ t ∧ ∀ d ∈ deadline, t ≤ max now d

namespace InTime

variable {deadline : Option Moment} {now mid t : Moment}

theorem refl (now : Moment) : InTime deadline now now := ⟨Nat.le_refl now, fun d _ => Nat.le_max_left now d⟩

theorem trans (h₁ : InTime deadline now mid) (h₂ : InTime deadline mid t) : InTime deadline now t := by
  refine ⟨Nat.le_trans h₁.1 h₂.1, fun d hd => ?_⟩
  have hmid := h₁.2 d hd
  have ht := h₂.2 d hd
  simp only [Moment] at *
  omega

theorem of_ready {delay : Option Span} {patience : Option Moment}
    (h : waitFrom now delay (earlier deadline patience) = .ready t) : InTime deadline now t := by
  refine ⟨le_of_waitFrom_eq_ready h, fun d hd => ?_⟩
  obtain ⟨l, hl, hle⟩ := earlier_le (b := patience) hd
  rw [hl] at h
  have ht := le_of_waitFrom_eq_ready_some h
  simp only [Moment] at *
  omega

theorem of_cut {delay : Option Span} {patience : Option Moment}
    (h : waitFrom now delay (earlier deadline patience) = .cut t) : InTime deadline now t := by
  obtain ⟨l, hl, rfl⟩ := eq_max_of_waitFrom_eq_cut h
  refine ⟨Nat.le_max_left now l, fun d hd => ?_⟩
  obtain ⟨l', hl', hle⟩ := earlier_le (b := patience) hd
  rw [hl] at hl'
  cases hl'
  simp only [Moment] at *
  omega

end InTime

end TdsSession
