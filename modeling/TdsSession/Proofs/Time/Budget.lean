import TdsSession.Time.Budget

/-!
# What is left of a budget

A budget is spent when nothing is left of it. The lemmas here say what each
question to a budget answers, in terms of what is left (`isExpired_iff`),
that no timeout taken from a budget outlasts it (`cut_le`), that a sleep which
the budget allows does not spend it (`not_spent_of_canSleep`), and that starting
anew gives all of it back (`not_spent_restart`). While its end and its slices
are times that the clock can show (`InClock`), every question to it is answered.
-/

namespace TdsSession.Budget

variable {b : Budget} {now : Moment} {span : Span}

/-- Nothing is left of the budget. -/
def Spent (b : Budget) (now : Moment) : Prop := b.remaining now = .ok (some 0)

/-- A budget with an end has it a span after its start, or too late for the clock. -/
theorem remaining_eq (b : Budget) (now : Moment) :
    b.remaining now = match b.total with
      | none => .ok none
      | some total => if b.start + total < Span.momentLimit then .ok (some (b.start + total - now))
          else .error .overflow := by
  unfold remaining deadline
  rcases b.total with _ | total
  · rfl
  · simp only [Span.after]
    split <;> rfl

theorem spent_iff {total : Span} (ht : b.total = some total) :
    b.Spent now ↔ b.start + total < Span.momentLimit ∧ b.start + total ≤ now := by
  rw [Spent, remaining_eq, ht]
  simp only [Moment, Span]
  split
  · rename_i h
    rw [Except.ok.injEq, Option.some.injEq, Nat.sub_eq_zero_iff_le]
    exact ⟨fun hle => ⟨h, hle⟩, fun hle => hle.2⟩
  · rename_i h
    exact ⟨fun he => (nomatch he), fun he => absurd he.1 h⟩

/-- An endless budget is never spent. -/
theorem not_spent_of_total (ht : b.total = none) : ¬ b.Spent now := by
  rw [Spent, remaining_eq, ht]
  intro h
  cases h

/-- The budget answers whether it is spent. -/
theorem isExpired_iff {x : Bool} (h : b.isExpired now = .ok x) : x = true ↔ b.Spent now := by
  unfold isExpired at h
  unfold Spent
  rcases hr : b.remaining now with o | _ | left
  · rw [hr] at h
    cases h
  · rw [hr] at h
    cases h
    exact ⟨fun h => (nomatch h), fun h => (nomatch h)⟩
  · rw [hr] at h
    cases h
    simp [Except.ok.injEq]

theorem isExpired_of_spent (h : b.Spent now) : b.isExpired now = .ok true := by
  unfold Spent at h
  unfold isExpired
  rw [h]
  rfl

/-- A spent budget allows no sleep, however short. -/
theorem canSleep_of_spent (h : b.Spent now) (span : Span) : b.canSleep now span = .ok false := by
  unfold Spent at h
  unfold canSleep
  rw [h]
  rfl

/-- A sleep that the budget allows leaves something of it. -/
theorem not_spent_of_canSleep {span : Span} (h : b.canSleep now span = .ok true) :
    ¬ b.Spent (now + span) := by
  unfold canSleep at h
  rw [remaining_eq] at h
  rcases ht : b.total with _ | total
  · exact not_spent_of_total ht
  · rw [ht] at h
    simp only at h
    rw [spent_iff ht]
    split at h
    · have hlt : span < b.start + total - now := by simpa [bind, Except.bind, pure, Except.pure] using h
      simp only [Moment, Span] at *
      omega
    · cases h

section

variable {total : Span} (ht : b.total = some total)

include ht

/-- What is left lasts until the end of the budget. -/
theorem eq_of_remaining {left : Option Span} (h : b.remaining now = .ok left) :
    left = some (b.start + total - now) := by
  rw [remaining_eq, ht] at h
  dsimp only at h
  split at h
  · exact (Except.ok.inj h).symm
  · cases h

/-- A sleep that the budget allows ends before the budget does. -/
theorem add_lt_of_canSleep {span : Span} (h : b.canSleep now span = .ok true) :
    now + span < b.start + total := by
  unfold canSleep at h
  rcases hr : b.remaining now with o | left <;> rw [hr] at h
  · cases h
  · cases eq_of_remaining ht hr
    have hlt : span < b.start + total - now := of_decide_eq_true (Except.ok.inj h)
    simp only [Moment, Span] at *
    omega

end

/-- A budget started anew with a total is not spent. -/
theorem not_spent_restart (h : b.total ≠ some 0) : ¬ (b.restart now).Spent now := by
  rcases ht : b.total with _ | total
  · exact not_spent_of_total ht
  · rw [spent_iff (b := b.restart now) ht]
    have hpos : total ≠ 0 := fun h0 => h (by rw [ht, h0])
    simp only [restart, Moment, Span] at *
    omega

/-! ## Timeouts and sleeps -/

/-- A timeout cut to what is left of the budget, if that has an end. -/
def cut (b : Budget) (now : Moment) (timeout : Span) : Span :=
  match b.total with
  | none => timeout
  | some total => min timeout (b.start + total - now)

/-- A timeout that has been cut does not outlast the budget. -/
theorem cut_le {total : Span} (ht : b.total = some total) (timeout : Span) :
    b.cut now timeout ≤ b.start + total - now := by
  unfold cut
  rw [ht]
  exact Nat.min_le_right ..

/-- No more than `span` is left. -/
def LeavesAtMost (b : Budget) (now : Moment) (span : Span) : Prop :=
  ∃ total, b.total = some total ∧ b.start + total - now ≤ span

/-- The clock can show the end of the budget. -/
def EndsInClock (b : Budget) : Prop := ∀ total, b.total = some total → b.start + total < Span.momentLimit

theorem EndsInClock.remaining_eq (h : b.EndsInClock) (now : Moment) :
    b.remaining now = .ok (b.total.map (b.start + · - now)) := by
  rw [Budget.remaining_eq]
  rcases ht : b.total with _ | total
  · rfl
  · exact if_pos (h total ht)

theorem remaining_cases (b : Budget) (now : Moment) :
    b.EndsInClock ∧ b.remaining now = .ok (b.total.map (b.start + · - now)) ∨
      ¬ b.EndsInClock ∧ b.remaining now = .error .overflow := by
  by_cases hends : b.EndsInClock
  · exact .inl ⟨hends, hends.remaining_eq now⟩
  · refine .inr ⟨hends, ?_⟩
    rw [remaining_eq]
    rcases ht : b.total with _ | total
    · exact absurd (fun _ h => (nomatch ht.symm.trans h)) hends
    · refine if_neg fun hlt => hends fun _ h => ?_
      cases ht.symm.trans h
      exact hlt

theorem clamp_eq {timeout l : Span} (h : b.clamp now timeout = .ok l) : l = b.cut now timeout ∧ b.EndsInClock := by
  unfold clamp at h
  unfold cut
  rcases remaining_cases b now with ⟨hends, hleft⟩ | ⟨-, hleft⟩ <;> rw [hleft] at h
  · refine ⟨?_, hends⟩
    rcases ht : b.total with _ | total <;> rw [ht] at h <;> exact (Except.ok.inj h).symm
  · cases h

theorem pairTimeout_eq {slice l : Span} {n : Nat} (h : b.pairTimeout now slice n = .ok l) :
    l = b.cut now (slice * ((n + 1) / 2)) ∧ b.EndsInClock := by
  unfold pairTimeout Span.times at h
  split at h
  · exact clamp_eq h
  · cases h

theorem manyAddressTimeout_eq {slice l : Span} {n : Nat} (h : b.manyAddressTimeout now slice n = .ok l) :
    l = b.cut now (slice * n) ∧ b.EndsInClock := by
  unfold manyAddressTimeout Span.times at h
  split at h
  · exact clamp_eq h
  · cases h

section

variable (hends : b.EndsInClock)

include hends

theorem spent_iff_leavesAtMost : b.Spent now ↔ b.LeavesAtMost now 0 := by
  unfold Spent LeavesAtMost
  rw [hends.remaining_eq]
  cases b.total <;> simp

theorem canSleep_eq_false_iff : b.canSleep now span = .ok false ↔ b.LeavesAtMost now span := by
  unfold canSleep LeavesAtMost
  rw [hends.remaining_eq]
  rcases b.total with _ | total
  · exact ⟨nofun, nofun⟩
  · show Except.ok (decide (span < b.start + total - now)) = .ok false ↔ _
    simp

theorem canSleep_eq_true_iff : b.canSleep now span = .ok true ↔ ¬ b.LeavesAtMost now span := by
  unfold canSleep LeavesAtMost
  rw [hends.remaining_eq]
  rcases b.total with _ | total
  · exact ⟨fun _ => nofun, fun _ => rfl⟩
  · show Except.ok (decide (span < b.start + total - now)) = .ok true ↔ _
    rw [Except.ok.injEq, decide_eq_true_iff, ← Nat.not_le]
    simp

theorem isExpired_of_not_spent (h : ¬ b.Spent now) : b.isExpired now = .ok false := by
  rcases hx : b.isExpired now with o | x
  · unfold isExpired at hx
    rw [hends.remaining_eq] at hx
    cases hx
  · rw [Bool.eq_false_iff.mpr fun hexpired => h ((isExpired_iff hx).mp hexpired)]

end

/-! ## The clock -/

/-- One slice of the budget, unless the clock cannot show the percentages it is made from. -/
theorem slice_eq (b : Budget) : b.slice =
    if b.total.getD sliceBase * slicePercent < Span.limit then .ok (b.total.getD sliceBase * slicePercent / 100)
    else .error .overflow := by
  unfold slice Span.times
  split <;> rfl

/-- The clock can show the end of the budget, and what its slices are made from. -/
structure InClock (b : Budget) : Prop where
  ends : ∀ total, b.total = some total → b.start + total < Span.momentLimit
  slices : b.total.getD sliceBase * slicePercent < Span.limit

namespace InClock

variable (h : b.InClock)

include h

theorem slice_eq : b.slice = .ok (b.total.getD sliceBase * slicePercent / 100) := by
  rw [Budget.slice_eq, if_pos h.slices]

theorem deadline_eq : b.deadline = .ok (b.total.map (b.start + ·)) := by
  unfold deadline
  rcases ht : b.total with _ | total
  · rfl
  · show (Span.after b.start total).map some = _
    rw [Span.after, if_pos (h.ends total ht)]
    rfl

theorem remaining_eq (now : Moment) : b.remaining now = .ok (b.total.map (b.start + · - now)) :=
  EndsInClock.remaining_eq h.ends now

theorem isExpired_ne_error (now : Moment) (o : Overflow) : b.isExpired now ≠ .error o := by
  unfold isExpired
  rw [h.remaining_eq]
  rintro ⟨⟩

theorem canSleep_ne_error (now : Moment) (span : Span) (o : Overflow) : b.canSleep now span ≠ .error o := by
  unfold canSleep
  rw [h.remaining_eq]
  rcases b.total with _ | total <;> rintro ⟨⟩

theorem clamp_ne_error (now : Moment) (timeout : Span) (o : Overflow) : b.clamp now timeout ≠ .error o := by
  unfold clamp
  rw [h.remaining_eq]
  rcases b.total with _ | total <;> rintro ⟨⟩

theorem manyAddressTimeout_ne_error {slice : Span} {n : Nat} (hn : slice * n < Span.limit) (now : Moment)
    (o : Overflow) : b.manyAddressTimeout now slice n ≠ .error o := by
  unfold manyAddressTimeout Span.times
  rw [if_pos hn]
  exact h.clamp_ne_error now _ o

/-- A pair of attempts gets fewer slices than there have been attempts. -/
theorem pairTimeout_ne_error {slice : Span} {n : Nat} (hn : slice * n < Span.limit) (now : Moment)
    (o : Overflow) : b.pairTimeout now slice n ≠ .error o := by
  have hpair : slice * ((n + 1) / 2) < Span.limit :=
    Nat.lt_of_le_of_lt (Nat.mul_le_mul_left slice (by omega)) hn
  unfold pairTimeout Span.times
  rw [if_pos hpair]
  exact h.clamp_ne_error now _ o

end InClock

end TdsSession.Budget
