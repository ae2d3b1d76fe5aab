import TdsSession.Proofs.Address.Alias
import TdsSession.Proofs.Operation

/-!
# Look-ups that share a cache

Looking up an alias reads the cache, then the options, and writes the cache at
the end (`Target.findAliasInPlace`): what fails has written nothing
(`Target.resolveInPlace_apply`). A cache that look-ups have made out of another
one (`AliasCache.After`) gives for every data source what that one gives, and
what is in it comes from the options (`AliasCache.Faithful`). So look-ups that
share a cache, empty at first, come to what each comes to on its own
(`Target.resolveAll_fst`).
-/

namespace TdsSession

variable {c : Config} {lookup : Bool} {source : DataSource} {cache old mid new : AliasCache}

namespace Target

/-- The data source an alias stands for; the cache is changed in place. -/
def findAliasInPlace (c : Config) (source : DataSource) : ExceptT Error (StateM AliasCache) (Option DataSource) := do
  let key := aliasKey source
  match Table.find? (← get) key with
  | some target => return some target
  | none =>
    match Table.find? c.aliases key with
    | none => return none
    | some entry =>
      match DataSource.parse entry.toList with
      | .error e => throw e
      | .ok target =>
        modify (Table.set · key target)
        return some target

/-- The target that a data source stands for, with its alias looked up if `lookup`; the cache is changed in place. -/
def resolveInPlace (c : Config) (lookup : Bool) (source : DataSource) : ExceptT Error (StateM AliasCache) Target := do
  if lookup then
    let found ← findAliasInPlace c source
    return ofTarget c source (followAlias source found)
  else return ofTarget c source source

/-- Look-ups one after the other that share a cache. Each comes to a target or fails, and the next one goes on. -/
def resolveAll (c : Config) : List (Bool × DataSource) → AliasCache → List (Except Error Target) × AliasCache
  | [], cache => ([], cache)
  | (lookup, source) :: calls, cache =>
    let (result, cache) := resolveInPlace c lookup source cache
    let (results, cache) := resolveAll c calls cache
    (result :: results, cache)

/-! ## One look-up -/

theorem findAliasInPlace_apply (c : Config) (source : DataSource) (cache : AliasCache) :
    findAliasInPlace c source cache = match findAlias c cache source with
      | .error e => (.error e, cache)
      | .ok (found, cache') => (.ok found, cache') := by
  unfold findAliasInPlace findAlias
  rw [Op.bind_of_ok (Op.get_apply cache)]
  dsimp only
  rcases Table.find? cache (aliasKey source) with _ | target
  · rcases Table.find? c.aliases (aliasKey source) with _ | entry
    · rfl
    · rcases hparse : DataSource.parse entry.toList with e | target <;> simp only [hparse] <;> rfl
  · rfl

/-- In place a data source has the same target, and what fails leaves the cache as it was. -/
theorem resolveInPlace_apply (c : Config) (lookup : Bool) (source : DataSource) (cache : AliasCache) :
    resolveInPlace c lookup source cache = match resolve c lookup cache source with
      | .error e => (.error e, cache)
      | .ok (target, cache') => (.ok target, cache') := by
  unfold resolveInPlace resolve
  cases lookup with
  | false => rfl
  | true =>
    simp only [if_true]
    rw [Op.bind_apply, findAliasInPlace_apply]
    rcases findAlias c cache source with e | ⟨found, cache'⟩ <;> rfl

theorem resolveInPlace_fst (c : Config) (lookup : Bool) (source : DataSource) (cache : AliasCache) :
    (resolveInPlace c lookup source cache).1 = (resolve c lookup cache source).map Prod.fst := by
  rw [resolveInPlace_apply]
  rcases resolve c lookup cache source with e | ⟨target, cache'⟩ <;> rfl

/-- The cache changes only where an alias is looked up that has a target. -/
theorem resolveInPlace_snd_cases (c : Config) (lookup : Bool) (source : DataSource) (cache : AliasCache) :
    (resolveInPlace c lookup source cache).2 = cache ∨
      ∃ target, resolve c true cache source = .ok (target, (resolveInPlace c lookup source cache).2) := by
  rw [resolveInPlace_apply]
  cases lookup with
  | false => exact .inl rfl
  | true =>
    rcases resolve c true cache source with e | ⟨target, cache'⟩
    · exact .inl rfl
    · exact .inr ⟨target, rfl⟩

theorem resolveInPlace_failed {e : Error} (h : (resolveInPlace c lookup source cache).1 = .error e) :
    (resolveInPlace c lookup source cache).2 = cache := by
  rw [resolveInPlace_fst] at h
  rw [resolveInPlace_apply]
  rcases hresolve : resolve c lookup cache source with e' | ⟨target, cache'⟩
  · rfl
  · rw [hresolve] at h
    cases h

end Target

/-! ## Any number of look-ups -/

namespace AliasCache

open Target

/-- `new` is what look-ups have made of `old`. -/
def After (c : Config) (old new : AliasCache) : Prop := ∃ calls, (resolveAll c calls old).2 = new

namespace After

theorem refl (cache : AliasCache) : After c cache cache := ⟨[], rfl⟩

theorem trans (h₁ : After c old mid) (h₂ : After c mid new) : After c old new := by
  obtain ⟨calls, rfl⟩ := h₁
  obtain ⟨calls', rfl⟩ := h₂
  refine ⟨calls ++ calls', ?_⟩
  induction calls generalizing old with
  | nil => rfl
  | cons call calls ih => exact ih

/-- A target that has been found has been looked up. -/
theorem of_resolve {target : Target} (h : resolve c lookup old source = .ok (target, new)) : After c old new := by
  refine ⟨[(lookup, source)], ?_⟩
  show (resolveInPlace c lookup source old).2 = new
  rw [resolveInPlace_apply, h]

/-- What holds at first, and is kept by what finds a target, holds after look-ups. -/
theorem induction {P : AliasCache → Prop} (h : After c old new) (hold : P old)
    (hfound : ∀ source cache target cache', P cache → resolve c true cache source = .ok (target, cache') → P cache') :
    P new := by
  obtain ⟨calls, rfl⟩ := h
  induction calls generalizing old with
  | nil => exact hold
  | cons call calls ih =>
    obtain ⟨lookup, source⟩ := call
    show P (resolveAll c calls (resolveInPlace c lookup source old).2).2
    refine ih ?_
    rcases resolveInPlace_snd_cases c lookup source old with hsame | ⟨target, htarget⟩
    · rw [hsame]
      exact hold
    · exact hfound source old target _ hold htarget

theorem grown (h : After c old new) : Grown c old new :=
  h.induction (P := Grown c old) (.refl old) fun _ _ _ _ hgrown hfound => hgrown.trans (.of_resolve hfound)

theorem remembers (h : After c old new) : new.Remembers old :=
  h.induction (P := fun cache => cache.Remembers old) (.refl old) fun _ _ _ _ hremembers hfound =>
    hremembers.trans (.of_resolve hfound)

/-- After look-ups, a data source has the target that it had before them. -/
theorem resolveInPlace_eq (h : After c old new) (lookup : Bool) (source : DataSource) :
    (resolveInPlace c lookup source new).1 = (resolveInPlace c lookup source old).1 := by
  rw [resolveInPlace_fst, resolveInPlace_fst]
  cases lookup with
  | false => rfl
  | true => exact h.grown.resolve_eq source

end After

/-- What is in the cache stands under a host in lower case, and is what the options say about it. -/
def Faithful (c : Config) (cache : AliasCache) : Prop :=
  ∀ entry ∈ cache, (∃ source, entry.1 = aliasKey source) ∧
    ∃ text, Table.find? c.aliases entry.1 = some text ∧ DataSource.parse text.toList = .ok entry.2

theorem Faithful.of_resolve {target : Target} (h : Faithful c old)
    (hfound : resolve c true old source = .ok (target, new)) : Faithful c new := by
  simp only [resolve, if_true] at hfound
  rcases hfind : findAlias c old source with e | ⟨found, cache⟩ <;> rw [hfind] at hfound <;> cases hfound
  rcases findAlias_cases hfind with rfl | ⟨text, target, hfresh, htext, hparse, rfl⟩
  · exact h
  · rw [Table.set_of_find?_eq_none target hfresh]
    refine List.forall_mem_append.mpr ⟨h, List.forall_mem_singleton.mpr ?_⟩
    exact ⟨⟨source, rfl⟩, text, htext, hparse⟩

theorem After.faithful (h : After c [] cache) : Faithful c cache :=
  h.induction nofun fun _ _ _ _ hfaithful hfound => hfaithful.of_resolve hfound

end AliasCache

/-- Look-ups that share a cache come to what each of them comes to with the cache that the first has. -/
theorem Target.resolveAll_fst (c : Config) (calls : List (Bool × DataSource)) (cache : AliasCache) :
    (resolveAll c calls cache).1 = calls.map fun call => (resolveInPlace c call.1 call.2 cache).1 := by
  induction calls generalizing cache with
  | nil => rfl
  | cons call calls ih =>
    obtain ⟨lookup, source⟩ := call
    have hafter : AliasCache.After c cache (resolveInPlace c lookup source cache).2 := ⟨[(lookup, source)], rfl⟩
    show (resolveInPlace c lookup source cache).1 :: (resolveAll c calls (resolveInPlace c lookup source cache).2).1 = _
    rw [ih, List.map_cons]
    refine congrArg _ (List.map_congr_left fun call _ => ?_)
    exact hafter.resolveInPlace_eq call.1 call.2

end TdsSession
