import Mathlib.Logic.Relation
import TdsSession.Bearer.CacheUse
import TdsSession.Proofs.Bearer.Cache

/-!
# The right to refresh

The users of a cache take the right to refresh an entry and give it back, while
others overtake them. A step hands the right over to one user at most, and only
if nobody has it (`CacheUse.step_hands`), so an entry is marked as being
refreshed exactly while one of them holds the right (`CacheUse.Sound`). What a
step does to entries is said by `CacheUse.step_keeps`.
-/

namespace TdsSession

open Relation (ReflTransGen)

namespace CacheUse

/-! ## Steps -/

/-- The event can come next: a look-up begins under a number of its own. -/
def Possible (u : CacheUse) : CacheEvent → Prop
  | .lookUp call _ => Table.find? u.pending call = none
  | _ => True

/-- Some event comes next, whatever the time is. -/
def Step (u u' : CacheUse) : Prop := ∃ now e, u.Possible e ∧ (u.step now e).1 = u'

/-- The entries that an event is about. -/
def concerned (u : CacheUse) : CacheEvent → List CacheKey
  | .insert key _ | .get key | .merge key _ | .beginRefresh key _ | .lookUp _ key => [key]
  | .endRefresh guard => (u.guards.filter fun g => g.1 = guard).map Prod.snd
  | .settle call _ | .cancel call => (Table.find? u.pending call).toList.map Prod.fst

/-- How many hold the right to refresh an entry, under a name or for a look-up that refreshes it. -/
def holders (u : CacheUse) (key : CacheKey) : Nat :=
  (u.guards.countP fun g => g.2 = key) + u.pending.countP fun p => p.2 = (key, .refresh)

/-- How many of them give it back with an event. -/
def released (u : CacheUse) (key : CacheKey) : CacheEvent → Nat
  | .endRefresh guard => (u.guards.filter fun g => g.1 = guard).countP fun g => g.2 = key
  | .settle call _ | .cancel call => if Table.find? u.pending call = some (key, .refresh) then 1 else 0
  | _ => 0

variable {u u' : CacheUse} {now : WallTime} {e : CacheEvent} {key : CacheKey} {call : Nat} {claim : CacheClaim}

/-- A look-up takes the right to refresh an entry that is due; otherwise it gets a token without it, or is over. -/
theorem step_lookUp_cases (u : CacheUse) (now : WallTime) (call : Nat) (key : CacheKey) :
    u.cache.Due key now ∧ u.step now (.lookUp call key) =
      ({ u with
        cache := TokenCache.setRefreshing u.cache key true
        pending := Table.set u.pending call (key, .refresh) }, .answer (.acquire .refresh)) ∨
    ¬ u.cache.Due key now ∧
      ((∃ claim, claim ≠ .refresh ∧ u.step now (.lookUp call key) =
        ({ u with pending := Table.set u.pending call (key, claim) }, .answer (.acquire claim))) ∨
      ∃ token, u.step now (.lookUp call key) = (u, .answer (.cached token))) := by
  rw [step]
  rcases TokenCache.lookUp_cases u.cache key now with ⟨hdue, h⟩ | ⟨hdue, answer, h, hanswer⟩ <;> rw [h]
  · exact .inl ⟨hdue, rfl⟩
  · cases answer with
    | cached token => exact .inr ⟨hdue, .inr ⟨token, rfl⟩⟩
    | acquire claim => exact .inr ⟨hdue, .inl ⟨claim, fun heq => hanswer (congrArg _ heq), rfl⟩⟩

/-- The ways in which an event can change a cache with its users. -/
inductive Change (u : CacheUse) : CacheEvent → CacheUse → Prop
  /-- Nothing happens, and nobody gives anything back. -/
  | kept {e : CacheEvent} (h : ∀ key, u.released key e = 0) : Change u e u
  /-- A token is offered to an entry. -/
  | offered {e : CacheEvent} (key : CacheKey) (token : BearerToken) (hkey : u.concerned e = [key])
      (h : ∀ key, u.released key e = 0) : Change u e { u with cache := (TokenCache.insert u.cache key token).1 }
  /-- The right to refresh an entry is taken under a name. -/
  | begun (key : CacheKey) (guard : String) {entry : CacheEntry} (he : Table.find? u.cache key = some entry)
      (hfree : entry.refreshing = false) : Change u (.beginRefresh key guard) { u with
        cache := TokenCache.setRefreshing u.cache key true
        guards := u.guards ++ [(guard, key)] }
  /-- What has been taken under a name is given back. -/
  | ended (guard : String) : Change u (.endRefresh guard) { u with
        cache := (u.guards.filter fun g => g.1 = guard).foldl (fun c g => TokenCache.endRefresh c g.2) u.cache
        guards := u.guards.filter fun g => !decide (g.1 = guard) }
  /-- A look-up takes the right to refresh its entry. -/
  | refreshes (call : Nat) (key : CacheKey) {entry : CacheEntry} (he : Table.find? u.cache key = some entry)
      (hfree : entry.refreshing = false) : Change u (.lookUp call key) { u with
        cache := TokenCache.setRefreshing u.cache key true
        pending := Table.set u.pending call (key, .refresh) }
  /-- A look-up gets a token without the right to. -/
  | asks (call : Nat) (key : CacheKey) {claim : CacheClaim} (h : claim ≠ .refresh) :
      Change u (.lookUp call key) { u with pending := Table.set u.pending call (key, claim) }
  | settled {call : Nat} {key : CacheKey} {claim : CacheClaim} (outcome : Except AuthError BearerToken)
      (h : Table.find? u.pending call = some (key, claim)) : Change u (.settle call outcome) { u with
        cache := (TokenCache.settle u.cache key claim outcome).1
        pending := Table.erase u.pending call }
  | cancelled {call : Nat} {key : CacheKey} {claim : CacheClaim} (h : Table.find? u.pending call = some (key, claim)) :
      Change u (.cancel call) { u with
        cache := TokenCache.abandon u.cache key claim
        pending := Table.erase u.pending call }

/-- There are no others. -/
theorem step_changes (u : CacheUse) (now : WallTime) (e : CacheEvent) : Change u e (u.step now e).1 := by
  cases e with
  | insert key token => exact .offered key token rfl fun _ => rfl
  | get key =>
    rw [step]
    rcases Table.find? u.cache key <;> exact .kept fun _ => rfl
  | merge key token =>
    rw [step, TokenCache.merge]
    rcases Table.find? u.cache key with _ | entry
    · exact .kept fun _ => rfl
    · exact .offered key token rfl fun _ => rfl
  | beginRefresh key guard =>
    rw [step]
    rcases TokenCache.beginRefresh_cases u.cache key with h | h | ⟨entry, he, hfree, h⟩ <;> rw [h]
    · exact .kept fun _ => rfl
    · exact .kept fun _ => rfl
    · exact .begun key guard he hfree
  | endRefresh guard =>
    rw [step, List.partition_eq_filter_filter]
    exact .ended guard
  | lookUp call key =>
    rcases step_lookUp_cases u now call key with ⟨⟨entry, he, hfree, -⟩, h⟩ | ⟨-, ⟨claim, hclaim, h⟩ | ⟨token, h⟩⟩ <;>
      rw [h]
    · exact .refreshes call key he hfree
    · exact .asks call key hclaim
    · exact .kept fun _ => rfl
  | settle call outcome =>
    rw [step]
    rcases h : Table.find? u.pending call with _ | ⟨key, claim⟩
    · exact .kept fun key => by rw [released, h]; rfl
    · dsimp only
      rcases hresult : (TokenCache.settle u.cache key claim outcome).2 with e | token <;> exact .settled outcome h
  | cancel call =>
    rw [step]
    rcases h : Table.find? u.pending call with _ | ⟨key, claim⟩
    · exact .kept fun key => by rw [released, h]; rfl
    · exact .cancelled h

/-! ## Entries -/

theorem foldl_endRefresh_lasts (ended : List (String × CacheKey)) (c : TokenCache) :
    c.Lasts (ended.foldl (fun c g => TokenCache.endRefresh c g.2) c) := by
  induction ended generalizing c with
  | nil => exact .refl c
  | cons g rest ih => exact (TokenCache.setRefreshing_touches c g.2 false).lasts.trans (ih _)

theorem foldl_endRefresh_others {ended : List (String × CacheKey)} (c : TokenCache) (h : key ∉ ended.map Prod.snd) :
    Table.find? (ended.foldl (fun c g => TokenCache.endRefresh c g.2) c) key = Table.find? c key := by
  induction ended generalizing c with
  | nil => rfl
  | cons g rest ih =>
    have hne : key ≠ g.2 := fun heq => h (heq ▸ List.mem_cons_self)
    exact (ih _ fun hmem => h (List.mem_cons_of_mem _ hmem)).trans
      ((TokenCache.setRefreshing_touches c g.2 false).others key hne)

theorem isRefreshing_foldl_endRefresh (ended : List (String × CacheKey)) (c : TokenCache) (key : CacheKey) :
    TokenCache.isRefreshing (ended.foldl (fun c g => TokenCache.endRefresh c g.2) c) key =
      (c.isRefreshing key && decide ((ended.countP fun g => g.2 = key) = 0)) := by
  induction ended generalizing c with
  | nil => simp
  | cons g rest ih =>
    rw [List.foldl_cons, ih, TokenCache.isRefreshing_endRefresh]
    by_cases hkey : g.2 = key
    · rw [List.countP_cons_of_pos (by simpa using hkey)]
      simp [hkey]
    · rw [List.countP_cons_of_neg (by simpa using hkey)]
      simp [hkey]

/-- With each step every entry stays, and nothing happens to those that the event is not about. -/
theorem step_keeps (u : CacheUse) (now : WallTime) (e : CacheEvent) :
    u.cache.Lasts (u.step now e).1.cache ∧
      ∀ key, key ∉ u.concerned e → Table.find? (u.step now e).1.cache key = Table.find? u.cache key := by
  have one {key : CacheKey} {c : TokenCache} (h : TokenCache.Touches key u.cache c) :
      u.cache.Lasts c ∧ ∀ other, other ∉ [key] → Table.find? c other = Table.find? u.cache other :=
    ⟨h.lasts, fun other hother => h.others other (List.ne_of_not_mem_cons hother)⟩
  have hchange := step_changes u now e
  generalize (u.step now e).1 = u' at hchange
  cases hchange with
  | kept => exact ⟨.refl _, fun _ _ => rfl⟩
  | offered key token hkey =>
    rw [hkey]
    exact one (TokenCache.insert_touches u.cache key token)
  | begun key guard => exact one (TokenCache.setRefreshing_touches u.cache key true)
  | ended guard => exact ⟨foldl_endRefresh_lasts _ _, fun key hkey => foldl_endRefresh_others _ hkey⟩
  | refreshes call key => exact one (TokenCache.setRefreshing_touches u.cache key true)
  | asks call key => exact one (.refl key _)
  | settled outcome h =>
    rw [concerned, h]
    exact one (TokenCache.settle_touches u.cache _ _ outcome)
  | cancelled h =>
    rw [concerned, h]
    exact one (TokenCache.abandon_touches u.cache _ _)

/-! ## Holders -/

/-- A name is one more holder. -/
theorem holders_guard (u : CacheUse) (c : TokenCache) (guard : String) (key other : CacheKey) :
    holders { u with cache := c, guards := u.guards ++ [(guard, key)] } other =
      u.holders other + if key = other then 1 else 0 := by
  unfold holders
  rw [List.countP_append, List.countP_singleton, Nat.add_right_comm]
  simp only [decide_eq_true_eq]

/-- A look-up is one more holder if it refreshes the entry. -/
theorem holders_set (h : Table.find? u.pending call = none) (c : TokenCache) (other : CacheKey) :
    holders { u with cache := c, pending := Table.set u.pending call (key, claim) } other =
      u.holders other + if (key, claim) = (other, CacheClaim.refresh) then 1 else 0 := by
  unfold holders
  rw [Table.set_of_find?_eq_none _ h, List.countP_append, List.countP_singleton, Nat.add_assoc]
  simp only [decide_eq_true_eq]

/-- When it is over, there is one less. -/
theorem holders_erase (hnumbers : (u.pending.map Prod.fst).Nodup) (h : Table.find? u.pending call = some (key, claim))
    (c : TokenCache) (other : CacheKey) :
    holders { u with cache := c, pending := Table.erase u.pending call } other +
        (if some (key, claim) = some (other, CacheClaim.refresh) then 1 else 0) = u.holders other := by
  unfold holders
  rw [(Table.perm_erase hnumbers h).countP_eq, List.countP_cons, Nat.add_assoc]
  simp only [Option.some_inj, decide_eq_true_eq]

/-- An entry is being refreshed exactly while somebody holds the right to, and nobody else does. -/
structure Sound (u : CacheUse) : Prop where
  numbers : (u.pending.map Prod.fst).Nodup
  held : ∀ key, u.holders key = (u.cache.isRefreshing key).toNat

/-- How the right to refresh entries changes hands from `u` to `u'`. -/
structure Hands (u u' : CacheUse) (taken : CacheKey → Bool) (released : CacheKey → Nat) : Prop where
  numbers : (u'.pending.map Prod.fst).Nodup
  holders : ∀ key, u'.holders key + released key = u.holders key + (taken key).toNat
  refreshing : ∀ key, u'.cache.isRefreshing key =
    (u.cache.isRefreshing key && decide (released key = 0) || taken key)
  free : ∀ key, taken key = true → u.cache.isRefreshing key = false ∧ released key = 0

namespace Hands

/-- Since one at most holds the right, it is free when it is given back. -/
theorem sound {taken : CacheKey → Bool} {released : CacheKey → Nat} (h : Hands u u' taken released) (hu : u.Sound) :
    u'.Sound where
  numbers := h.numbers
  held key := by
    have hheld := hu.held key
    have hholders := h.holders key
    rw [h.refreshing]
    rcases htaken : taken key with _ | _
    · rw [htaken, Bool.toNat_false] at hholders
      rw [Bool.or_false]
      by_cases hreleased : released key = 0
      · rw [decide_eq_true hreleased, Bool.and_true]
        omega
      · have hone := Bool.toNat_le (u.cache.isRefreshing key)
        rw [decide_eq_false hreleased, Bool.and_false, Bool.toNat_false]
        omega
    · obtain ⟨hnobody, hkept⟩ := h.free key htaken
      rw [hnobody, Bool.toNat_false] at hheld
      rw [htaken, Bool.toNat_true] at hholders
      rw [Bool.or_true, Bool.toNat_true]
      omega

/-- Nobody takes the right, and nobody gives it back. -/
theorem kept {c : TokenCache} (h : u.Sound) (hc : ∀ key, c.isRefreshing key = u.cache.isRefreshing key) :
    Hands u { u with cache := c } (fun _ => false) (fun _ => 0) :=
  ⟨h.numbers, fun _ => rfl, fun key => by simp [hc key], nofun⟩

/-- The right to refresh an entry is taken while nobody has it. -/
theorem take {entry : CacheEntry} (he : Table.find? u.cache key = some entry) (hfree : entry.refreshing = false)
    (hcache : u'.cache = TokenCache.setRefreshing u.cache key true) (hnumbers : (u'.pending.map Prod.fst).Nodup)
    (hholders : ∀ other, u'.holders other = u.holders other + if key = other then 1 else 0) :
    Hands u u' (fun other => decide (key = other)) (fun _ => 0) where
  numbers := hnumbers
  holders other := by
    rw [hholders]
    by_cases hkey : key = other <;> simp [hkey]
  refreshing other := by
    rw [hcache, TokenCache.isRefreshing_setRefreshing he]
    by_cases hkey : key = other <;> simp [hkey]
  free other hother := by
    obtain rfl := of_decide_eq_true hother
    refine ⟨?_, rfl⟩
    unfold TokenCache.isRefreshing
    rw [he]
    exact hfree

/-- A look-up that ends gives back the right if it has it. -/
theorem give {c : TokenCache} (h : u.Sound) (hpending : Table.find? u.pending call = some (key, claim))
    (hc : ∀ other, c.isRefreshing other =
      (u.cache.isRefreshing other && decide ((key, claim) ≠ (other, CacheClaim.refresh)))) :
    Hands u { u with cache := c, pending := Table.erase u.pending call } (fun _ => false)
      (fun other => if Table.find? u.pending call = some (other, .refresh) then 1 else 0) where
  numbers := (List.filter_sublist.map Prod.fst).nodup h.numbers
  holders other := by
    rw [hpending]
    exact holders_erase h.numbers hpending c other
  refreshing other := by
    rw [hc, hpending]
    by_cases hsame : (key, claim) = (other, CacheClaim.refresh) <;> simp [hsame]
  free := nofun

end Hands

/-- What an event releases is given back, and at most one user takes the right to refresh one entry. -/
theorem step_hands (h : u.Sound) (hpossible : u.Possible e) :
    ∃ taken, Hands u (u.step now e).1 taken fun key => u.released key e := by
  have hchange := step_changes u now e
  generalize (u.step now e).1 = u' at hchange
  cases hchange with
  | kept hreleased =>
    simp only [hreleased]
    exact ⟨_, .kept h fun _ => rfl⟩
  | offered key token hkey hreleased =>
    simp only [hreleased]
    exact ⟨_, .kept h fun other => TokenCache.isRefreshing_insert u.cache key other token⟩
  | begun key guard he hfree =>
    exact ⟨_, .take he hfree rfl h.numbers fun other => holders_guard u _ guard key other⟩
  | ended guard =>
    refine ⟨fun _ => false, h.numbers, fun key => ?_, fun key => ?_, nofun⟩
    · have hsplit := List.countP_eq_countP_filter_add u.guards (fun g => decide (g.2 = key)) fun g => decide (g.1 = guard)
      simp only [holders, released, hsplit, Bool.toNat_false]
      omega
    · rw [Bool.or_false]
      exact isRefreshing_foldl_endRefresh ..
  | refreshes call key he hfree =>
    refine ⟨_, .take he hfree rfl (Table.nodup_set _ h.numbers hpossible) fun other => ?_⟩
    rw [holders_set hpossible]
    simp only [Prod.mk.injEq, and_true]
  | @asks call key claim hclaim =>
    refine ⟨fun _ => false, Table.nodup_set _ h.numbers hpossible, fun other => ?_, fun other => ?_, nofun⟩
    · rw [holders_set hpossible, if_neg fun heq => hclaim (congrArg Prod.snd heq)]
      rfl
    · simp [released]
  | settled outcome hpending =>
    exact ⟨_, .give h hpending fun other => TokenCache.isRefreshing_settle u.cache _ other _ outcome⟩
  | cancelled hpending =>
    exact ⟨_, .give h hpending fun other => TokenCache.isRefreshing_abandon u.cache _ other _⟩

theorem Sound.step (h : u.Sound) (hstep : u.Step u') : u'.Sound := by
  obtain ⟨now, e, hpossible, rfl⟩ := hstep
  obtain ⟨taken, hands⟩ := @step_hands _ now _ h hpossible
  exact hands.sound h

theorem sound_of_steps (h : ReflTransGen Step {} u) : u.Sound := by
  induction h with
  | refl => exact ⟨.nil, fun _ => rfl⟩
  | tail _ hstep hsound => exact hsound.step hstep

theorem lasts_of_steps (h : ReflTransGen Step u u') : u.cache.Lasts u'.cache := by
  induction h with
  | refl => exact .refl _
  | tail _ hstep hlasts =>
    obtain ⟨now, e, -, rfl⟩ := hstep
    exact hlasts.trans (step_keeps _ now e).1

namespace Sound

/-- Two look-ups that refresh one entry are the same, and nobody else holds the right to. -/
theorem unique (h : u.Sound) (hcall : Table.find? u.pending call = some (key, .refresh)) :
    (∀ guard, (guard, key) ∉ u.guards) ∧
      ∀ call', Table.find? u.pending call' = some (key, .refresh) → call' = call := by
  have hheld := h.held key
  unfold holders at hheld
  rw [(Table.perm_erase h.numbers hcall).countP_eq, List.countP_cons_of_pos (by simp)] at hheld
  have hone := Bool.toNat_le (u.cache.isRefreshing key)
  refine ⟨fun guard hguard => ?_, fun call' hcall' => ?_⟩
  · have hpos : 0 < u.guards.countP fun g => g.2 = key := List.countP_pos_iff.mpr ⟨_, hguard, by simp⟩
    omega
  · refine Decidable.byContradiction fun hne => ?_
    have hrest : Table.find? (Table.erase u.pending call) call' = some (key, .refresh) := by
      rw [Table.find?_erase, if_neg (Ne.symm hne), hcall']
    have hpos : 0 < (Table.erase u.pending call).countP fun p => p.2 = (key, .refresh) :=
      List.countP_pos_iff.mpr ⟨_, Table.mem_of_find? hrest, by simp⟩
    omega

/-- An event that gives back the right to refresh an entry leaves nobody refreshing it. -/
theorem not_refreshing_of_released (h : u.Sound) (hpossible : u.Possible e) (hreleased : 0 < u.released key e) :
    (u.step now e).1.cache.isRefreshing key = false := by
  obtain ⟨taken, hands⟩ := @step_hands _ now _ h hpossible
  rw [hands.refreshing, decide_eq_false (Nat.ne_of_gt hreleased), Bool.and_false, Bool.false_or]
  exact Bool.eq_false_iff.mpr fun htaken => Nat.ne_of_gt hreleased (hands.free key htaken).2

end Sound

/-- A look-up takes the right to refresh an entry exactly if that is due. -/
theorem refreshes_iff_due (hpossible : u.Possible (.lookUp call key)) :
    Table.find? (u.step now (.lookUp call key)).1.pending call = some (key, .refresh) ↔ u.cache.Due key now := by
  rcases step_lookUp_cases u now call key with ⟨hdue, h⟩ | ⟨hdue, ⟨claim, hclaim, h⟩ | ⟨token, h⟩⟩ <;> rw [h]
  · exact iff_of_true ((Table.find?_set ..).trans (if_pos rfl)) hdue
  · refine iff_of_false (fun hfound => hclaim ?_) hdue
    rw [Table.find?_set, if_pos rfl] at hfound
    cases hfound
    rfl
  · refine iff_of_false (fun hfound => ?_) hdue
    rw [show Table.find? u.pending call = none from hpossible] at hfound
    cases hfound

/-- However a cache is shared, an entry is marked as being refreshed exactly while one user holds the right to refresh
it, so there is one look-up at most that refreshes it, and that begins only when it is due. Each way to give the right
back leaves the entry free. No event has an effect on entries that it is not about, and from any time on every entry
stays, with its token or one that expires later. -/
theorem refresh_exclusive (h : ReflTransGen Step {} u) :
    (∀ key, u.holders key = if u.cache.isRefreshing key then 1 else 0) ∧
    (∀ call key, Table.find? u.pending call = some (key, .refresh) → (∀ guard, (guard, key) ∉ u.guards) ∧
      ∀ call', Table.find? u.pending call' = some (key, .refresh) → call' = call) ∧
    (∀ now call key, u.Possible (.lookUp call key) →
      (Table.find? (u.step now (.lookUp call key)).1.pending call = some (key, .refresh) ↔ u.cache.Due key now)) ∧
    (∀ now e, u.Possible e →
      (∀ key, 0 < u.released key e → (u.step now e).1.cache.isRefreshing key = false) ∧
      ∀ key, key ∉ u.concerned e → Table.find? (u.step now e).1.cache key = Table.find? u.cache key) ∧
    ∀ u', ReflTransGen Step u u' → u.cache.Lasts u'.cache := by
  have hsound := sound_of_steps h
  refine ⟨fun key => ?_, fun call key hcall => hsound.unique hcall, fun now call key => refreshes_iff_due,
    fun now e hpossible => ⟨fun key => hsound.not_refreshing_of_released hpossible, (step_keeps u now e).2⟩,
    fun u' => lasts_of_steps⟩
  rw [hsound.held]
  cases u.cache.isRefreshing key <;> rfl

/-- The entry that is shared. -/
def sharedKey : CacheKey := ⟨"authority", "resource"⟩

/-- A look-up refreshes the entry when it has half an hour left, and 25 minutes later another one cannot wait for it. -/
def overtaken : CacheUse :=
  let seeded := (CacheUse.step {} 0 (.insert sharedKey ⟨"first", Span.ofSeconds 1800⟩)).1
  ((seeded.step 0 (.lookUp 0 sharedKey)).1.step (Span.ofSeconds 1500) (.lookUp 1 sharedKey)).1

/-- Only the first holds the right to refresh the entry, and gives it back when it is cancelled. -/
theorem overtaken_exclusive :
    ReflTransGen Step {} overtaken ∧ overtaken.pending.length = 2 ∧ overtaken.holders sharedKey = 1 ∧
      (overtaken.step (Span.ofSeconds 1500) (.cancel 0)).1.cache.isRefreshing sharedKey = false := by
  have hseeded : Step {} (CacheUse.step {} 0 (.insert sharedKey ⟨"first", Span.ofSeconds 1800⟩)).1 :=
    ⟨0, .insert sharedKey ⟨"first", Span.ofSeconds 1800⟩, trivial, rfl⟩
  have hsteps : ReflTransGen Step {} overtaken := by
    refine ((ReflTransGen.single hseeded).tail ⟨0, .lookUp 0 sharedKey, ?_, rfl⟩).tail
      ⟨Span.ofSeconds 1500, .lookUp 1 sharedKey, ?_, rfl⟩ <;> exact rfl
  obtain ⟨hholders, -, -, hevents, -⟩ := refresh_exclusive hsteps
  exact ⟨hsteps, by decide, (hholders sharedKey).trans (by decide),
    (hevents (Span.ofSeconds 1500) (.cancel 0) trivial).1 sharedKey (by decide)⟩

end CacheUse

end TdsSession
