import TdsSession.Bearer.Cache

/-!
# One entry of the token cache

Every operation of the cache is about one entry (`TokenCache.Touches`). The
entry stays, and so does its token until one that expires later takes its
place (`CacheEntry.Lasts`). Whether an entry is being refreshed changes only
when the right to refresh it is taken or given back.
-/

namespace TdsSession

/-- From `e` to `e'` the token has stayed, or one that expires later has taken its place. -/
structure CacheEntry.Lasts (e e' : CacheEntry) : Prop where
  expiresAt : e.token.expiresAt ≤ e'.token.expiresAt
  token : e'.token.expiresAt = e.token.expiresAt → e'.token = e.token

namespace CacheEntry.Lasts

variable {e e' e'' : CacheEntry}

theorem refl (e : CacheEntry) : e.Lasts e := ⟨Int.le_refl _, fun _ => rfl⟩

theorem trans (h : e.Lasts e') (h' : e'.Lasts e'') : e.Lasts e'' where
  expiresAt := Int.le_trans h.expiresAt h'.expiresAt
  token heq := by
    have hlast : e''.token.expiresAt = e'.token.expiresAt :=
      Int.le_antisymm (heq ▸ h.expiresAt) h'.expiresAt
    rw [h'.token hlast]
    exact h.token (hlast.symm.trans heq)

theorem merge (e : CacheEntry) (offered : BearerToken) : e.Lasts (e.merge offered) := by
  unfold CacheEntry.merge
  split
  · rename_i hlater
    exact ⟨Int.le_of_lt hlater, fun heq => absurd heq.symm (Int.ne_of_lt hlater)⟩
  · exact refl e

end CacheEntry.Lasts

namespace TokenCache

/-- From `c` to `c'` every entry has stayed. -/
def Lasts (c c' : TokenCache) : Prop :=
  ∀ key e, Table.find? c key = some e → ∃ e', Table.find? c' key = some e' ∧ e.Lasts e'

theorem Lasts.refl (c : TokenCache) : c.Lasts c := fun _ e he => ⟨e, he, .refl e⟩

theorem Lasts.trans {c c' c'' : TokenCache} (h : c.Lasts c') (h' : c'.Lasts c'') : c.Lasts c'' := by
  intro key e he
  obtain ⟨e', he', hlasts⟩ := h key e he
  obtain ⟨e'', he'', hlasts'⟩ := h' key e' he'
  exact ⟨e'', he'', hlasts.trans hlasts'⟩

/-- From `c` to `c'` every entry has stayed, and nothing else has happened but to that of `key`. -/
structure Touches (key : CacheKey) (c c' : TokenCache) : Prop where
  lasts : c.Lasts c'
  others : ∀ other, other ≠ key → Table.find? c' other = Table.find? c other

variable {c c' : TokenCache} {key : CacheKey}

theorem Touches.refl (key : CacheKey) (c : TokenCache) : Touches key c c := ⟨.refl c, fun _ _ => rfl⟩

theorem Touches.trans {c'' : TokenCache} (h : Touches key c c') (h' : Touches key c' c'') : Touches key c c'' :=
  ⟨h.lasts.trans h'.lasts, fun other hne => (h'.others other hne).trans (h.others other hne)⟩

/-- An entry can be set to one that lasts from what it was. -/
theorem touches_set {entry : CacheEntry} (h : ∀ e, Table.find? c key = some e → e.Lasts entry) :
    Touches key c (Table.set c key entry) where
  lasts k e he := by
    rw [Table.find?_set]
    by_cases hkey : key = k
    · subst hkey
      exact ⟨entry, if_pos rfl, h e he⟩
    · exact ⟨e, by rw [if_neg hkey, he], .refl e⟩
  others other hne := by rw [Table.find?_set, if_neg (Ne.symm hne)]

/-- Someone is refreshing the entry. -/
def isRefreshing (c : TokenCache) (key : CacheKey) : Bool := (Table.find? c key).any CacheEntry.refreshing

theorem isRefreshing_set (c : TokenCache) (key other : CacheKey) (entry : CacheEntry) :
    isRefreshing (Table.set c key entry) other = if key = other then entry.refreshing else isRefreshing c other := by
  unfold isRefreshing
  rw [Table.find?_set]
  split <;> rfl

/-! ## Tokens -/

theorem insert_touches (c : TokenCache) (key : CacheKey) (token : BearerToken) :
    Touches key c (insert c key token).1 := by
  unfold insert
  refine touches_set fun e he => ?_
  rw [he]
  exact .merge e token

/-- A new token does not end a refresh. -/
theorem isRefreshing_insert (c : TokenCache) (key other : CacheKey) (token : BearerToken) :
    isRefreshing (insert c key token).1 other = isRefreshing c other := by
  unfold insert
  rw [isRefreshing_set]
  split
  · subst other
    unfold isRefreshing
    rcases Table.find? c key with _ | e
    · rfl
    · dsimp only [CacheEntry.merge]
      split <;> rfl
  · rfl

/-! ## The right to refresh -/

theorem setRefreshing_touches (c : TokenCache) (key : CacheKey) (refreshing : Bool) :
    Touches key c (setRefreshing c key refreshing) := by
  unfold setRefreshing
  rcases he : Table.find? c key with _ | e
  · exact .refl key c
  · refine touches_set fun e' he' => ?_
    rw [he] at he'
    cases he'
    exact ⟨Int.le_refl _, fun _ => rfl⟩

theorem isRefreshing_setRefreshing {e : CacheEntry} (h : Table.find? c key = some e) (refreshing : Bool)
    (other : CacheKey) :
    isRefreshing (setRefreshing c key refreshing) other = if key = other then refreshing else isRefreshing c other := by
  unfold setRefreshing
  rw [h]
  exact isRefreshing_set ..

theorem isRefreshing_endRefresh (c : TokenCache) (key other : CacheKey) :
    isRefreshing (endRefresh c key) other = (isRefreshing c other && decide (key ≠ other)) := by
  unfold endRefresh
  rcases he : Table.find? c key with _ | e
  · by_cases hkey : key = other
    · subst hkey
      simp [setRefreshing, isRefreshing, he]
    · simp [setRefreshing, he, hkey]
  · rw [isRefreshing_setRefreshing he]
    by_cases hkey : key = other <;> simp [hkey]

/-- The right to refresh an entry is given only while nobody has it. -/
theorem beginRefresh_cases (c : TokenCache) (key : CacheKey) :
    beginRefresh c key = none ∨ beginRefresh c key = some (c, false) ∨
      ∃ e, Table.find? c key = some e ∧ e.refreshing = false ∧
        beginRefresh c key = some (setRefreshing c key true, true) := by
  unfold beginRefresh
  rcases Table.find? c key with _ | e
  · exact .inl rfl
  · right
    rcases hfree : e.refreshing with _ | _
    · exact .inr ⟨e, rfl, hfree, by simp [hfree]⟩
    · exact .inl (by simp [hfree])

/-! ## Look-ups -/

/-- An entry that a look-up refreshes: it expires before long, but not too soon to be used meanwhile, and nobody else
refreshes it. -/
def Due (c : TokenCache) (key : CacheKey) (now : WallTime) : Prop :=
  ∃ e, Table.find? c key = some e ∧ e.refreshing = false ∧ usableAbove < e.token.validity now ∧
    e.token.validity now ≤ freshAbove

/-- A look-up changes nothing, but that it takes the right to refresh an entry that is due. -/
theorem lookUp_cases (c : TokenCache) (key : CacheKey) (now : WallTime) :
    Due c key now ∧ lookUp c key now = (setRefreshing c key true, .acquire .refresh) ∨
      ¬ Due c key now ∧ ∃ answer, lookUp c key now = (c, answer) ∧ answer ≠ .acquire .refresh := by
  unfold lookUp Due
  rcases Table.find? c key with _ | e
  · exact .inr ⟨nofun, _, rfl, nofun⟩
  dsimp only
  split
  · rename_i hfresh
    refine .inr ⟨?_, _, rfl, nofun⟩
    rintro ⟨_, ⟨⟩, -, -, hdue⟩
    exact Nat.not_lt.mpr hdue hfresh
  rename_i hfresh
  split
  · rename_i husable
    rcases hfree : e.refreshing with _ | _
    · exact .inl ⟨⟨e, rfl, hfree, husable, Nat.not_lt.mp hfresh⟩, by simp⟩
    · refine .inr ⟨?_, .cached e.token, by simp, nofun⟩
      rintro ⟨_, ⟨⟩, hno, -⟩
      rw [hfree] at hno
      cases hno
  · rename_i husable
    refine .inr ⟨?_, _, rfl, nofun⟩
    rintro ⟨_, ⟨⟩, -, hdue, -⟩
    exact husable hdue

theorem abandon_touches (c : TokenCache) (key : CacheKey) (claim : CacheClaim) : Touches key c (abandon c key claim) := by
  cases claim with
  | refresh => exact setRefreshing_touches c key false
  | missing => exact .refl key c
  | urgent => exact .refl key c

/-- However a look-up ends, it gives back the right that it has taken. -/
theorem isRefreshing_abandon (c : TokenCache) (key other : CacheKey) (claim : CacheClaim) :
    isRefreshing (abandon c key claim) other = (isRefreshing c other && decide ((key, claim) ≠ (other, .refresh))) := by
  cases claim with
  | refresh =>
    refine (isRefreshing_endRefresh c key other).trans ?_
    simp
  | missing => simp [abandon]
  | urgent => simp [abandon]

theorem settle_touches (c : TokenCache) (key : CacheKey) (claim : CacheClaim)
    (outcome : Except AuthError BearerToken) : Touches key c (settle c key claim outcome).1 := by
  cases outcome with
  | error e => exact abandon_touches c key claim
  | ok token => exact (insert_touches c key token).trans (abandon_touches _ key claim)

theorem isRefreshing_settle (c : TokenCache) (key other : CacheKey) (claim : CacheClaim)
    (outcome : Except AuthError BearerToken) :
    isRefreshing (settle c key claim outcome).1 other =
      (isRefreshing c other && decide ((key, claim) ≠ (other, .refresh))) := by
  cases outcome with
  | error e => exact isRefreshing_abandon c key other claim
  | ok token =>
    show isRefreshing (abandon (insert c key token).1 key claim) other = _
    rw [isRefreshing_abandon, isRefreshing_insert]

end TokenCache

end TdsSession
