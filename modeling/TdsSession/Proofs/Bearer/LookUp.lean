import TdsSession.Proofs.Bearer.Nesting

/-!
# What a look-up gives

A look-up, from its beginning until its user is told a token or an error,
while others use the cache for whatever they like. It gets a token if there
is none that can be used (`TokenCache.Unusable`) or if a refresh is due, once
in either case (`CacheUse.lookUpBy`), and only in the first case can it fail.
Since entries only ever give way to ones that last longer, what it gives is
no worse than what was cached or what it has got
(`CacheUse.lookUpBy_serves`).
-/

namespace TdsSession

open Relation (ReflTransGen)

namespace TokenCache

variable {c : TokenCache} {key : CacheKey} {now : WallTime} {claim : CacheClaim}

/-- There is no token, or it expires too soon to be used, whether or not someone is refreshing it. -/
def Unusable (c : TokenCache) (key : CacheKey) (now : WallTime) : Prop :=
  ∀ e, Table.find? c key = some e → e.token.validity now ≤ usableAbove

theorem lookUp_of_due (h : c.Due key now) : lookUp c key now = (setRefreshing c key true, .acquire .refresh) := by
  rcases lookUp_cases c key now with ⟨-, hlook⟩ | ⟨hdue, -⟩
  · exact hlook
  · exact absurd h hdue

theorem lookUp_of_unusable (h : c.Unusable key now) :
    ∃ claim, claim ≠ .refresh ∧ lookUp c key now = (c, .acquire claim) := by
  unfold lookUp
  rcases he : Table.find? c key with _ | e
  · exact ⟨.missing, nofun, rfl⟩
  have hsoon := h e he
  have hstale : ¬ freshAbove < e.token.validity now :=
    Nat.not_lt.mpr (Nat.le_trans hsoon (by decide : usableAbove ≤ freshAbove))
  exact ⟨.urgent, nofun, by simp only [if_neg hstale, if_neg (Nat.not_lt.mpr hsoon)]⟩

/-- A token that can be used is given as it is, unless it is this look-up that has to refresh it. -/
theorem lookUp_of_usable (husable : ¬ c.Unusable key now) (hdue : ¬ c.Due key now) :
    ∃ e, Table.find? c key = some e ∧ lookUp c key now = (c, .cached e.token) := by
  unfold lookUp
  rcases he : Table.find? c key with _ | e
  · exact absurd (fun e he' => nomatch he.symm.trans he') husable
  refine ⟨e, rfl, ?_⟩
  dsimp only
  split
  · rfl
  rename_i hstale
  split
  · rename_i hlong
    have hrefreshing : e.refreshing = true :=
      Bool.of_not_eq_false fun hfree => hdue ⟨e, he, hfree, hlong, Nat.not_lt.mp hstale⟩
    rw [if_pos hrefreshing]
  · rename_i hshort
    refine absurd (fun e' he' => ?_) husable
    rw [he] at he'
    cases he'
    exact Nat.not_lt.mp hshort

/-- What is cached later does not expire earlier. -/
theorem Lasts.le {c' : TokenCache} {e e' : CacheEntry} (h : c.Lasts c') (he : Table.find? c key = some e)
    (he' : Table.find? c' key = some e') : e.token.expiresAt ≤ e'.token.expiresAt := by
  obtain ⟨e'', he'', hlasts⟩ := h key e he
  rw [he'] at he''
  cases he''
  exact hlasts.expiresAt

/-- Whoever gives up a claim leaves the token in place. -/
theorem find?_abandon {e : CacheEntry} (h : Table.find? c key = some e) (claim : CacheClaim) :
    ∃ e', Table.find? (abandon c key claim) key = some e' ∧ e'.token = e.token := by
  cases claim with
  | missing => exact ⟨e, h, rfl⟩
  | urgent => exact ⟨e, h, rfl⟩
  | refresh =>
    refine ⟨{ e with refreshing := false }, ?_, rfl⟩
    unfold abandon endRefresh setRefreshing
    rw [h]
    exact (Table.find?_set ..).trans (if_pos rfl)

/-- The token that is cached once one has been offered is not worse than the one offered. -/
theorem find?_insert (c : TokenCache) (key : CacheKey) (token : BearerToken) :
    ∃ e, Table.find? (insert c key token).1 key = some e ∧ (insert c key token).2 = e.token ∧
      token.expiresAt ≤ e.token.expiresAt := by
  unfold insert
  refine ⟨_, (Table.find?_set ..).trans (if_pos rfl), rfl, ?_⟩
  rcases Table.find? c key with _ | e
  · exact Int.le_refl _
  · dsimp only [CacheEntry.merge]
    split
    · exact Int.le_refl _
    · rename_i hearlier
      exact Int.not_lt.mp hearlier

theorem settle_ok (c : TokenCache) (key : CacheKey) (claim : CacheClaim) (token : BearerToken) :
    ∃ e, Table.find? (settle c key claim (.ok token)).1 key = some e ∧
      (settle c key claim (.ok token)).2 = .ok e.token ∧ token.expiresAt ≤ e.token.expiresAt := by
  obtain ⟨e, he, hcached, hlater⟩ := find?_insert c key token
  obtain ⟨e', he', htoken⟩ := find?_abandon he claim
  exact ⟨e', he', by rw [htoken, ← hcached, settle], htoken ▸ hlater⟩

theorem settle_refresh_error {e : CacheEntry} (h : Table.find? c key = some e) (error : AuthError) :
    ∃ e', Table.find? (settle c key .refresh (.error error)).1 key = some e' ∧
      (settle c key .refresh (.error error)).2 = .ok e'.token := by
  obtain ⟨e', he', htoken⟩ := find?_abandon h .refresh
  refine ⟨e', he', ?_⟩
  unfold settle
  rw [h, htoken]

theorem settle_error (hclaim : claim ≠ .refresh) (c : TokenCache) (key : CacheKey) (error : AuthError) :
    settle c key claim (.error error) = (c, .error error) := by
  cases claim with
  | refresh => exact absurd rfl hclaim
  | missing => rfl
  | urgent => rfl

/-- Unless there is neither a token to fall back on nor one that has been got, a look-up gives the token that is cached
when it ends. -/
theorem settle_serves {before met : TokenCache} (outcome : Except AuthError BearerToken) (hlasts : before.Lasts met)
    (h : (claim = .refresh ∧ ∃ e, Table.find? met key = some e) ∨ ∃ token, outcome = .ok token) :
    ∃ entry, Table.find? (settle met key claim outcome).1 key = some entry ∧
      (settle met key claim outcome).2 = .ok entry.token ∧
      (∀ e, Table.find? before key = some e → e.token.expiresAt ≤ entry.token.expiresAt) ∧
      ∀ token, outcome = .ok token → token.expiresAt ≤ entry.token.expiresAt := by
  have hafter := hlasts.trans (settle_touches met key claim outcome).lasts
  cases outcome with
  | ok token =>
    obtain ⟨entry, he, hresult, hlater⟩ := settle_ok met key claim token
    refine ⟨entry, he, hresult, fun e hbefore => hafter.le hbefore he, fun token' htoken => ?_⟩
    cases htoken
    exact hlater
  | error error =>
    obtain ⟨rfl, e, hmet⟩ := h.resolve_right nofun
    obtain ⟨entry, he, hresult⟩ := settle_refresh_error hmet error
    exact ⟨entry, he, hresult, fun e hbefore => hafter.le hbefore he, nofun⟩

end TokenCache

/-- The token or the error that a look-up gives its user. -/
def CacheReply.result? : CacheReply → Option (Except AuthError BearerToken)
  | .answer (.cached t) => some (.ok t)
  | .token t => some (.ok t)
  | .failed e => some (.error e)
  | _ => none

namespace CacheUse

/-- A whole look-up, with `call` as its number. If a token has to be got, `acquire` gets it: from the cache as it is
then, and from whatever else it depends on, it says what has come of that, and what others have made of the cache
meanwhile. -/
def lookUpBy {σ : Type} (acquire : CacheUse × σ → Except AuthError BearerToken × CacheUse × σ) (now : WallTime) (call : Nat)
    (key : CacheKey) (u : CacheUse) (s : σ) : Option (Except AuthError BearerToken) × CacheUse × σ :=
  match u.step now (.lookUp call key) with
  | (begun, .answer (.acquire _)) =>
    let (outcome, met, s') := acquire (begun, s)
    let (ended, reply) := met.step now (.settle call outcome)
    (reply.result?, ended, s')
  | (begun, reply) => (reply.result?, begun, s)

/-- From `u` to `u'` anything may have happened, but the look-up with the number `call` has not been ended. -/
structure Awaits (call : Nat) (u u' : CacheUse) : Prop where
  steps : ReflTransGen Step u u'
  pending : Table.find? u'.pending call = Table.find? u.pending call

theorem Passes.awaits {u u' : CacheUse} (h : u.Passes u') (call : Nat) : Awaits call u u' := ⟨h.steps, h.pending call⟩

variable {σ : Type} {acquire : CacheUse × σ → Except AuthError BearerToken × CacheUse × σ}
  {u begun met after : CacheUse} {s s₁ s' : σ} {outcome : Except AuthError BearerToken}
  {result : Option (Except AuthError BearerToken)} {now : WallTime} {call : Nat} {key : CacheKey} {claim : CacheClaim}

/-- A look-up that has to get a token is pending from then on. -/
theorem step_lookUp_acquire {c : TokenCache} (h : TokenCache.lookUp u.cache key now = (c, .acquire claim)) :
    u.step now (.lookUp call key) =
      ({ u with cache := c, pending := Table.set u.pending call (key, claim) }, .answer (.acquire claim)) := by
  rw [step, h]

/-- What the step does that ends a look-up. -/
theorem step_settle (h : Table.find? met.pending call = some (key, claim)) (now : WallTime)
    (outcome : Except AuthError BearerToken) :
    (met.step now (.settle call outcome)).1 = { met with
      cache := (TokenCache.settle met.cache key claim outcome).1
      pending := Table.erase met.pending call } ∧
    (met.step now (.settle call outcome)).2.result? = some (TokenCache.settle met.cache key claim outcome).2 := by
  rw [step, h]
  dsimp only
  rcases (TokenCache.settle met.cache key claim outcome).2 with e | token <;> exact ⟨rfl, rfl⟩

/-- A look-up that has to get a token calls `acquire` once, after the step that begins it and before the one that ends
it. -/
theorem lookUpBy_of_acquire {c : TokenCache} (h : TokenCache.lookUp u.cache key now = (c, .acquire claim))
    (hwait : ∀ p, Awaits call p.1 (acquire p).2.1) (hbegun : (u.step now (.lookUp call key)).1 = begun)
    (hgot : acquire (begun, s) = (outcome, met, s')) :
    begun.cache = c ∧ begun.guards = u.guards ∧ c.Lasts met.cache ∧
      lookUpBy acquire now call key u s = (some (TokenCache.settle met.cache key claim outcome).2,
        { met with
          cache := (TokenCache.settle met.cache key claim outcome).1
          pending := Table.erase met.pending call }, s') := by
  have hstep : u.step now (.lookUp call key) = _ := step_lookUp_acquire h
  rw [hstep] at hbegun
  subst hbegun
  have hmet := hwait ({ u with cache := c, pending := Table.set u.pending call (key, claim) }, s)
  rw [hgot] at hmet
  have hpending : Table.find? met.pending call = some (key, claim) :=
    hmet.pending.trans ((Table.find?_set ..).trans (if_pos rfl))
  obtain ⟨hended, hresult⟩ := step_settle hpending now outcome
  refine ⟨rfl, rfl, lasts_of_steps hmet.steps, ?_⟩
  unfold lookUpBy
  rw [hstep]
  dsimp only
  rw [hgot]
  dsimp only
  rw [hresult, hended]

/-- A look-up calls `acquire` at most once, exactly if there is no token that can be used or it takes the right to
refresh the entry. It gives an error exactly if there is none and `acquire` has failed, and has changed nothing then.
Otherwise it gives the token that is cached by then, which expires no earlier than the one cached before, or than the
one that `acquire` has got. -/
theorem lookUpBy_serves (hwait : ∀ p, Awaits call p.1 (acquire p).2.1) (calls : σ → Nat)
    (hcalls : ∀ p, calls (acquire p).2.2 = calls p.2 + 1) (hbegun : (u.step now (.lookUp call key)).1 = begun)
    (hgot : acquire (begun, s) = (outcome, met, s₁))
    (hrun : lookUpBy acquire now call key u s = (result, after, s')) :
    (u.cache.Unusable key now ∨ u.cache.Due key now → calls s' = calls s + 1) ∧
    (¬ (u.cache.Unusable key now ∨ u.cache.Due key now) → s' = s ∧ after = u) ∧
    (∀ e, result = some (.error e) ↔ u.cache.Unusable key now ∧ outcome = .error e) ∧
    (∀ e, result = some (.error e) → begun.cache = u.cache ∧ begun.guards = u.guards ∧
      after.cache = met.cache ∧ after.guards = met.guards) ∧
    ((∀ e, result ≠ some (.error e)) → ∃ entry, Table.find? after.cache key = some entry ∧
      result = some (.ok entry.token) ∧
      (∀ e, Table.find? u.cache key = some e → e.token.expiresAt ≤ entry.token.expiresAt) ∧
      ∀ token, u.cache.Unusable key now ∨ u.cache.Due key now → outcome = .ok token →
        token.expiresAt ≤ entry.token.expiresAt) := by
  have hcounted := hcalls (begun, s)
  rw [hgot] at hcounted
  by_cases hunusable : u.cache.Unusable key now
  · obtain ⟨claim, hclaim, hlook⟩ := TokenCache.lookUp_of_unusable hunusable
    obtain ⟨hcache, hguards, hlasts, hasked⟩ := lookUpBy_of_acquire hlook hwait hbegun hgot
    rw [hasked] at hrun
    cases outcome with
    | error error =>
      rw [TokenCache.settle_error hclaim] at hrun
      cases hrun
      refine ⟨fun _ => hcounted, fun hno => absurd (.inl hunusable) hno,
        fun e => ⟨fun h => ⟨hunusable, ?_⟩, fun h => ?_⟩, fun _ _ => ⟨hcache, hguards, rfl, rfl⟩,
        fun hno => absurd rfl (hno error)⟩
      · cases h
        rfl
      · cases h.2
        rfl
    | ok token =>
      obtain ⟨entry, he, hresult, hbefore, hlater⟩ := TokenCache.settle_serves (.ok token) hlasts (.inr ⟨token, rfl⟩)
      rw [hresult] at hrun
      cases hrun
      exact ⟨fun _ => hcounted, fun hno => absurd (.inl hunusable) hno, fun e => ⟨nofun, nofun⟩, nofun,
        fun _ => ⟨entry, he, rfl, hbefore, fun token _ => hlater token⟩⟩
  by_cases hdue : u.cache.Due key now
  · obtain ⟨-, -, hlasts, hasked⟩ := lookUpBy_of_acquire (TokenCache.lookUp_of_due hdue) hwait hbegun hgot
    have hmet := (TokenCache.setRefreshing_touches u.cache key true).lasts.trans hlasts
    obtain ⟨e, he, -⟩ := id hdue
    obtain ⟨e', he', -⟩ := hmet key e he
    obtain ⟨entry, hentry, hresult, hbefore, hlater⟩ :=
      TokenCache.settle_serves outcome hmet (.inl ⟨rfl, e', he'⟩)
    rw [hasked, hresult] at hrun
    cases hrun
    exact ⟨fun _ => hcounted, fun hno => absurd (.inr hdue) hno, fun e => ⟨nofun, fun h => absurd h.1 hunusable⟩, nofun,
      fun _ => ⟨entry, hentry, rfl, hbefore, fun token _ => hlater token⟩⟩
  · have hnot : ¬ (u.cache.Unusable key now ∨ u.cache.Due key now) := not_or.mpr ⟨hunusable, hdue⟩
    obtain ⟨entry, he, hlook⟩ := TokenCache.lookUp_of_usable hunusable hdue
    have hcached : lookUpBy acquire now call key u s = (some (.ok entry.token), u, s) := by
      unfold lookUpBy
      rw [step, hlook]
      rfl
    rw [hcached] at hrun
    cases hrun
    refine ⟨fun h => absurd h hnot, fun _ => ⟨rfl, rfl⟩, fun e => ⟨nofun, fun h => absurd h.1 hunusable⟩, nofun,
      fun _ => ⟨entry, he, rfl, fun e hbefore => ?_, fun _ h => absurd h hnot⟩⟩
    rw [he] at hbefore
    cases hbefore
    exact Int.le_refl _

/-- A look-up that is done as a whole, with acts of others meanwhile, is such a look-up. -/
theorem act_lookUp {meanwhile : List CacheAct} {depth : Nat} (h : ∀ a ∈ meanwhile, a.Whole) (hfree : u.FreeFrom depth)
    (now : WallTime) (key : CacheKey) (outcome : Except AuthError BearerToken) :
    let done := act now depth u (.lookUp key outcome meanwhile)
    ∃ result acquired, done.2 = .lookUp result acquired done.1.cache ∧
      lookUpBy (fun p => (outcome, (actAll now (depth + 1) p.1 meanwhile).1, p.2)) now depth key u () =
        (some result, done.1, ()) := by
  dsimp only
  unfold lookUpBy
  rw [act]
  rcases hlook : TokenCache.lookUp u.cache key now with ⟨c, token | claim⟩
  · rw [step, hlook]
    exact ⟨_, _, rfl, rfl⟩
  · rw [step_lookUp_acquire hlook]
    dsimp only
    have hmet : Passes _ (actAll now (depth + 1) _ meanwhile).1 :=
      actAll_passes (fun a ha u => act_passes (h a ha) u) _ (hfree.deeper c (key, claim))
    rcases hdone : actAll now (depth + 1) _ meanwhile with ⟨met, reports⟩
    rw [hdone] at hmet
    have hpending : Table.find? met.pending depth = some (key, claim) :=
      (hmet.pending depth).trans ((Table.find?_set ..).trans (if_pos rfl))
    rw [step, hpending]
    dsimp only
    rcases (TokenCache.settle met.cache key claim outcome).2 with e | token <;> exact ⟨_, _, rfl, rfl⟩

/-- The entry has half an hour left. -/
def halfAnHour : CacheUse := (CacheUse.step {} 0 (.insert sharedKey ⟨"first", Span.ofSeconds 1800⟩)).1

/-- Others put in a token that lasts for an hour, while getting one comes to nothing. -/
def outdone (p : CacheUse × Nat) : Except AuthError BearerToken × CacheUse × Nat :=
  (.error (.acquisitionTimeout "authority"), (p.1.step (Span.ofSeconds 60) (.insert sharedKey ⟨"second", Span.ofSeconds 3660⟩)).1, p.2 + 1)

/-- The look-up that refreshes the entry is given theirs. -/
theorem outdone_served :
    (lookUpBy outdone 0 0 sharedKey halfAnHour 0).1 = some (.ok ⟨"second", Span.ofSeconds 3660⟩) ∧
      (lookUpBy outdone 0 0 sharedKey halfAnHour 0).2.2 = 1 := by
  have hwait (p : CacheUse × Nat) : Awaits 0 p.1 (outdone p).2.1 :=
    (step_passes (e := .insert sharedKey ⟨"second", Span.ofSeconds 3660⟩) p.1 (Span.ofSeconds 60) trivial).awaits 0
  have hdue : halfAnHour.cache.Due sharedKey 0 := ⟨_, rfl, rfl, by decide, by decide⟩
  have hbegun : (halfAnHour.step 0 (.lookUp 0 sharedKey)).1 = _ := rfl
  obtain ⟨hasked, -, -, -, hgiven⟩ := lookUpBy_serves (s := 0) hwait id (fun _ => rfl) hbegun rfl rfl
  obtain ⟨entry, hentry, hresult, -⟩ := hgiven fun e h => nomatch h
  cases hentry
  exact ⟨hresult, hasked (.inr hdue)⟩

end CacheUse

end TdsSession
