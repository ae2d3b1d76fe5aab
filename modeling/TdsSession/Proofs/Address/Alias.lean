import Mathlib.Order.Defs.Unbundled
import TdsSession.Address.Target

/-!
# Aliases that have been looked up

Looking up an alias remembers what it stands for. What has been remembered
along the way makes no difference: with a cache that has grown from another,
every data source has the same target as with that (`AliasCache.Grown`). And
what has been remembered once is not forgotten (`AliasCache.Remembers`).
-/

namespace TdsSession

/-- The cache `new` gives for every data source what the cache `old` gives. -/
def AliasCache.Grown (c : Config) (old new : AliasCache) : Prop :=
  ∀ source, (Target.findAlias c new source).map Prod.fst = (Target.findAlias c old source).map Prod.fst

/-- Looking up a data source leaves the cache as it is, or adds what the options say about it. -/
theorem Target.findAlias_cases {c : Config} {old new : AliasCache} {source : DataSource} {found : Option DataSource}
    (h : findAlias c old source = .ok (found, new)) :
    new = old ∨ ∃ entry target, Table.find? old (aliasKey source) = none ∧
      Table.find? c.aliases (aliasKey source) = some entry ∧ DataSource.parse entry.toList = .ok target ∧
      new = Table.set old (aliasKey source) target := by
  unfold findAlias at h
  rcases hfind : Table.find? old (aliasKey source) with _ | target <;> simp only [hfind] at h
  · rcases hentry : Table.find? c.aliases (aliasKey source) with _ | entry <;> simp only [hentry] at h
    · cases h
      exact .inl rfl
    · rcases hparse : DataSource.parse entry.toList with e | target <;> rw [hparse] at h <;> cases h
      exact .inr ⟨entry, target, rfl, rfl, hparse, rfl⟩
  · cases h
    exact .inl rfl

namespace AliasCache.Grown

variable {c : Config} {old mid new : AliasCache}

theorem refl (cache : AliasCache) : Grown c cache cache := fun _ => rfl

theorem trans (h₁ : Grown c old mid) (h₂ : Grown c mid new) : Grown c old new :=
  fun source => (h₂ source).trans (h₁ source)

/-- Remembering what the options say changes nothing. -/
theorem set {key entry : String} {target : DataSource} (hfresh : Table.find? old key = none)
    (hentry : Table.find? c.aliases key = some entry) (hparse : DataSource.parse entry.toList = .ok target) :
    Grown c old (Table.set old key target) := by
  intro source
  unfold Target.findAlias
  simp only [Table.find?_set]
  by_cases hkey : key = Target.aliasKey source
  · rw [if_pos hkey, ← hkey, hfresh, hentry]
    simp only [hparse]
    rfl
  · rw [if_neg hkey]
    rcases Table.find? old (Target.aliasKey source) with _ | found
    · rcases Table.find? c.aliases (Target.aliasKey source) with _ | entry'
      · rfl
      · simp only []
        rcases DataSource.parse entry'.toList with e | target' <;> rfl
    · rfl

theorem of_findAlias {source : DataSource} {found : Option DataSource}
    (h : Target.findAlias c old source = .ok (found, new)) : Grown c old new := by
  rcases Target.findAlias_cases h with rfl | ⟨entry, target, hfresh, hentry, hparse, rfl⟩
  · exact refl _
  · exact set hfresh hentry hparse

/-- Looking up one data source does not change what another one stands for. -/
theorem of_resolve {source : DataSource} {target : Target}
    (h : Target.resolve c true old source = .ok (target, new)) : Grown c old new := by
  simp only [Target.resolve, if_true] at h
  rcases hfind : Target.findAlias c old source with e | ⟨found, cache⟩ <;> rw [hfind] at h <;> cases h
  exact of_findAlias hfind

/-- A data source has the same target with a grown cache. -/
theorem resolve_eq (h : Grown c old new) (source : DataSource) :
    (Target.resolve c true new source).map Prod.fst = (Target.resolve c true old source).map Prod.fst := by
  have hs := h source
  simp only [Target.resolve, if_true]
  rcases hnew : Target.findAlias c new source with e | ⟨found, cache⟩ <;>
    rcases hold : Target.findAlias c old source with e' | ⟨found', cache'⟩ <;> rw [hnew, hold] at hs <;>
    cases hs <;> rfl

end AliasCache.Grown

/-- What the cache `old` knows, the cache `new` knows. -/
def AliasCache.Remembers (new old : AliasCache) : Prop :=
  ∀ key target, Table.find? old key = some target → Table.find? new key = some target

namespace AliasCache.Remembers

variable {c : Config} {old mid new : AliasCache}

theorem refl (cache : AliasCache) : cache.Remembers cache := fun _ _ => id

theorem trans (h₁ : mid.Remembers old) (h₂ : new.Remembers mid) : new.Remembers old :=
  fun key target h => h₂ key target (h₁ key target h)

theorem set {key : String} (hfresh : Table.find? old key = none) (target : DataSource) :
    AliasCache.Remembers (Table.set old key target) old := by
  intro key' target' h
  rw [Table.find?_set, if_neg]
  · exact h
  · rintro rfl
    rw [hfresh] at h
    cases h

theorem of_findAlias {source : DataSource} {found : Option DataSource}
    (h : Target.findAlias c old source = .ok (found, new)) : new.Remembers old := by
  rcases Target.findAlias_cases h with rfl | ⟨entry, target, hfresh, -, -, rfl⟩
  · exact refl _
  · exact set hfresh target

/-- Looking up an alias forgets none. -/
theorem of_resolve {source : DataSource} {target : Target}
    (h : Target.resolve c true old source = .ok (target, new)) : new.Remembers old := by
  simp only [Target.resolve, if_true] at h
  rcases hfind : Target.findAlias c old source with e | ⟨found, cache⟩ <;> rw [hfind] at h <;> cases h
  exact of_findAlias hfind

end AliasCache.Remembers

end TdsSession
