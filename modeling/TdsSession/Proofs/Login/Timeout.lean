import TdsSession.Options.ConnectionString
import TdsSession.Proofs.Login.Clock

/-!
# Which timeouts the clock can bear

A connection string may name any timeout of whole seconds below `2 ^ 64`, and
nothing makes it smaller. From `2 ^ 61` seconds on the clock cannot show eight
times the timeout, and no login gets as far as its first attempt. Up to `2 ^ 31`
seconds, which is 68 years, the clock can show all times of every login. In
between a login is safe for as many attempts as the clock can show slices of
its budget (`login_on_clock`).
-/

namespace TdsSession

variable {σ : Type}

/-! ## What a connection string leaves alone -/

/-- What no connection string sets is as by default. -/
structure Config.Unset (c : Config) : Prop where
  redirect : c.redirect = {}
  acquisition : c.acquisition = {}
  initialBackoff : c.retry.initialBackoff = Span.ofMillis 100
  maxBackoff : c.retry.maxBackoff = Span.ofSeconds 1

theorem ConfigDraft.apply_unset {d : ConfigDraft} (h : d.config.Unset) (setting : Setting) :
    (d.apply setting).config.Unset := by
  cases setting <;> exact ⟨h.redirect, h.acquisition, h.initialBackoff, h.maxBackoff⟩

theorem ConfigDraft.foldl_unset {d : ConfigDraft} (h : d.config.Unset) (settings : List Setting) :
    (settings.foldl ConfigDraft.apply d).config.Unset := by
  induction settings generalizing d with
  | nil => exact h
  | cons setting rest ih => exact ih (apply_unset h setting)

theorem Config.unset_of_connectionString {text : List Char} {c : Config} (h : ofConnectionString text = .ok c) :
    c.Unset := by
  obtain ⟨settings, -, h⟩ := Op.except_bind_eq_ok.mp h
  obtain ⟨credentials, -, h⟩ := Op.except_bind_eq_ok.mp h
  cases h
  have hdraft := ConfigDraft.foldl_unset (d := {}) ⟨rfl, rfl, rfl, rfl⟩ (settings.filterMap id)
  exact ⟨hdraft.redirect, hdraft.acquisition, hdraft.initialBackoff, hdraft.maxBackoff⟩

theorem Config.loginBudget_getD_le {c : Config} {d : Span} (htimeout : c.timeout ≤ d) (hbase : Budget.sliceBase ≤ d) :
    c.loginBudget.getD Budget.sliceBase ≤ d := by
  unfold loginBudget
  split
  · exact hbase
  · exact htimeout

/-! ## Room on the clock -/

/-- Timeouts of at most `2 ^ 59` seconds leave room for a login that begins by `2 ^ 60` seconds, for as many
attempts as the clock can show slices. -/
theorem Config.Unset.hasRoom {c : Config} (h : c.Unset) {began : Moment} {most : Nat}
    (htimeout : c.timeout ≤ Span.ofSeconds (2 ^ 59)) (hbegan : began ≤ Span.ofSeconds (2 ^ 60))
    (hgrown : c.slice * most < Span.limit) :
    c.HasRoom began (Span.ofSeconds (2 ^ 61)) (Span.ofSeconds (2 ^ 62)) most where
  slices := by
    have hbase := c.loginBudget_getD_le htimeout (by decide)
    refine Nat.lt_of_le_of_lt (Nat.mul_le_mul_right Budget.slicePercent hbase) ?_
    decide
  grown := hgrown
  ends total ht := by
    have htotal : total = c.timeout := by
      unfold loginBudget at ht
      split at ht <;> cases ht
      rfl
    subst htotal
    unfold Span.ofSeconds at *
    simp only [Moment, Span] at *
    omega
  initial := by
    rw [h.acquisition]
    decide
  doubled := by decide
  shown := by decide

/-- A timeout of at most `2 ^ 31` seconds, but not none, allows for so few attempts that the clock can show a
slice for each. -/
theorem Config.Unset.slice_mul_lt {c : Config} (h : c.Unset) {total : Span} (ht : c.loginBudget = some total)
    (htimeout : total ≤ Span.ofSeconds (2 ^ 31)) {most : Nat}
    (hmost : most ≤ 4 * (total ⌈/⌉ min c.retry.initialBackoff c.retry.maxBackoff) + c.redirect.limit) :
    c.slice * most < Span.limit := by
  have hslice : c.slice ≤ Span.ofSeconds (2 ^ 31) * Budget.slicePercent / 100 := by
    unfold slice
    rw [ht]
    exact Nat.div_le_div_right (Nat.mul_le_mul_right _ htimeout)
  have hpause : min c.retry.initialBackoff c.retry.maxBackoff = Span.ofMillis 100 := by
    rw [h.initialBackoff, h.maxBackoff]
    rfl
  have hfew : most ≤ 4 * (10 * 2 ^ 31) + 10 := by
    rw [hpause, h.redirect, Nat.ceilDiv_eq_add_pred_div] at hmost
    have hlimit : ({} : RedirectPolicy).limit = 10 := rfl
    rw [hlimit] at hmost
    unfold Span.ofSeconds Span.ofMillis at *
    simp only [Span] at *
    omega
  refine Nat.lt_of_le_of_lt (Nat.mul_le_mul hslice hfew) ?_
  decide

namespace LoginStart

variable {s : LoginStart} {server : Server σ} {attempts : Nat} {w : World σ}

section

variable (h : s.config.Unset) (hnow : w.now ≤ Span.ofSeconds (2 ^ 60))
  (hasks : w.providers.AsksWithin (Span.ofSeconds (2 ^ 62)))

include h hnow hasks

theorem login_ne_overflow_of_slices (htimeout : s.config.timeout ≤ Span.ofSeconds (2 ^ 59))
    (hgrown : s.config.slice * attempts < Span.limit) : (login server attempts s w).1 ≠ .error .overflow :=
  login_ne_overflow (h.hasRoom htimeout hnow hgrown) (fun _ => hasks) server

/-- A login has to end, so that a short timeout bears any number of attempts. -/
theorem login_ne_overflow_of_short (hpos : 0 < s.config.timeout)
    (htimeout : s.config.timeout ≤ Span.ofSeconds (2 ^ 31)) : (login server attempts s w).1 ≠ .error .overflow := by
  have ht : s.config.loginBudget = some s.config.timeout := if_neg (Nat.pos_iff_ne_zero.mp hpos)
  have hpause : 0 < min s.config.retry.initialBackoff s.config.retry.maxBackoff := by
    rw [h.initialBackoff, h.maxBackoff]
    decide
  have hlong : s.config.timeout ≤ Span.ofSeconds (2 ^ 59) := Nat.le_trans htimeout (by decide)
  obtain ⟨most, hmost, -, hsame, -⟩ := login_terminates server s w ht hpause
  have hgrown := h.slice_mul_lt ht htimeout hmost
  rcases Nat.le_total attempts most with hle | hle
  · have hfewer : s.config.slice * attempts < Span.limit := Nat.lt_of_le_of_lt (Nat.mul_le_mul_left _ hle) hgrown
    exact login_ne_overflow_of_slices h hnow hasks hlong hfewer
  · rw [hsame attempts hle]
    exact login_ne_overflow_of_slices h hnow hasks hlong hgrown

end

end LoginStart

/-- With options from a connection string whose timeout is `2 ^ 61` seconds or more, a login overflows the clock
before its first attempt, unless the options conflict. Up to `2 ^ 59` seconds, if the login begins by `2 ^ 60`
seconds and no provider asks for a wait of more than `2 ^ 62`, it does not in as many attempts as the clock can
show slices; and up to `2 ^ 31` seconds it never does. Getting a token overflows exactly if there is a deadline
and the last failure leads to a sleep whose end the clock cannot show. -/
theorem login_on_clock {text : List Char} {s : LoginStart} (hc : Config.ofConnectionString text = .ok s.config)
    (server : Server σ) (attempts : Nat) (w : World σ) :
    (s.config.partnersConflict = true → (login server attempts s w).1 ≠ .error .overflow) ∧
    (s.config.partnersConflict = false → Span.ofSeconds (2 ^ 61) ≤ s.config.timeout →
      login server attempts s w = (.error .overflow, s.begun w)) ∧
    (s.config.timeout ≤ Span.ofSeconds (2 ^ 59) → w.now ≤ Span.ofSeconds (2 ^ 60) →
      w.providers.AsksWithin (Span.ofSeconds (2 ^ 62)) →
      s.config.slice * attempts < Span.limit ∨
        0 < s.config.timeout ∧ s.config.timeout ≤ Span.ofSeconds (2 ^ 31) →
      (login server attempts s w).1 ≠ .error .overflow) ∧
    ∀ p r until? timer now answers, (acquireToken p r until? timer now answers).ended = .overflow ↔
      until? ≠ none ∧ (acquireToken p r until? timer now answers).EndsLate p [] := by
  have h := Config.unset_of_connectionString hc
  refine ⟨fun hx => ?_, fun hx htimeout => ?_, fun htimeout hnow hasks hshort => ?_,
    fun p r until? timer now answers => acquireToken_overflow_iff now answers⟩
  · rw [LoginStart.login_of_conflict server attempts w hx]
    exact nofun
  · refine LoginStart.login_of_slice_overflow hx ?_
    have hpos : s.config.timeout ≠ 0 := by
      unfold Span.ofSeconds at htimeout
      simp only [Span] at *
      omega
    have ht : s.config.loginBudget = some s.config.timeout := if_neg hpos
    rw [ht]
    exact Nat.mul_le_mul_right Budget.slicePercent htimeout
  · rcases hshort with hgrown | ⟨hpos, hshort⟩
    · exact LoginStart.login_ne_overflow_of_slices h hnow hasks htimeout hgrown
    · exact LoginStart.login_ne_overflow_of_short h hnow hasks hpos hshort

/-- A second, and the longest timeout that a connection string can name. -/
def hastyText : List Char := "Server=primary;Connect Timeout=1".toList

def endlessText : List Char := "Server=primary;Connect Timeout=18446744073709551615".toList

/-- If all connections are refused, a login that has a second does not overflow the clock, and one that has all
the time there is does so at once. -/
theorem hastyText_on_clock :
    Config.ofConnectionString hastyText = .ok hastyLogin.config ∧
      (login (LineFaults.server {}) 50 hastyLogin refusingWorld).1 ≠ .error .overflow ∧
      Config.ofConnectionString endlessText = .ok endlessLogin.config ∧
      (login (LineFaults.server {}) 50 endlessLogin refusingWorld).1 = .error .overflow := by
  have hhasty : Config.ofConnectionString hastyText = .ok hastyLogin.config := by decide +kernel
  have hendless : Config.ofConnectionString endlessText = .ok endlessLogin.config := by decide +kernel
  obtain ⟨-, -, hbounded, -⟩ := login_on_clock hhasty (LineFaults.server {}) 50 refusingWorld
  obtain ⟨-, hover, -⟩ := login_on_clock hendless (LineFaults.server {}) 50 refusingWorld
  refine ⟨hhasty, hbounded (by decide) (by decide) nofun (.inr ⟨by decide, by decide⟩), hendless, ?_⟩
  rw [hover rfl (by decide)]

/-- The longest timeout is read without a complaint, and then the login overflows; and so does a provider that
asks for such a wait when there is a minute left. -/
theorem endlessText_overflows :
    Config.ofConnectionString endlessText = .ok endlessLogin.config ∧
      (login (LineFaults.server {}) 1 endlessLogin { server := {} }).1 = .error .overflow ∧
      (acquireToken {} { authority := "https://sts", resource := "sql" } (some (Span.ofSeconds 60)) {} 0
        [.now (.error (.rateLimited (some (Span.ofSeconds 18446744073709551615))))]).ended = .overflow := by
  refine ⟨by decide +kernel, ?_, rfl⟩
  rw [LoginStart.login_of_slice_overflow (by decide) (by decide)]

end TdsSession
