/-!
# Tables

A finite map as a list of pairs, in the order in which keys were first put
in. No key stands twice in a table built by `set`.
-/

namespace TdsSession

/-- A finite map, as pairs of a key and its value. -/
abbrev Table (κ α : Type) := List (κ × α)

namespace Table

variable {κ α : Type} [DecidableEq κ]

/-- The value of a key. -/
def find? (t : Table κ α) (key : κ) : Option α :=
  List.lookup key t

/-- The table with `key` set to `value`, in its old place if it had one. -/
def set (t : Table κ α) (key : κ) (value : α) : Table κ α :=
  match t with
  | [] => [(key, value)]
  | (k, v) :: rest => if k = key then (k, value) :: rest else (k, v) :: set rest key value

/-- The table without `key`. -/
def erase (t : Table κ α) (key : κ) : Table κ α :=
  t.filter fun p => p.1 ≠ key

theorem find?_cons (k key : κ) (v : α) (t : Table κ α) :
    find? ((k, v) :: t) key = if k = key then some v else find? t key := by
  by_cases h : k = key
  · subst h
    rw [find?, List.lookup_cons_self, if_pos rfl]
  · rw [find?, List.lookup_cons, beq_false_of_ne (Ne.symm h), if_neg h]
    rfl

/-- Setting a key is seen at that key and at no other. -/
theorem find?_set (t : Table κ α) (key other : κ) (value : α) :
    find? (t.set key value) other = if key = other then some value else find? t other := by
  induction t with
  | nil => simp [set, find?_cons]
  | cons p rest ih =>
    obtain ⟨k, v⟩ := p
    by_cases hk : k = key
    · subst hk
      by_cases ho : k = other <;> simp [set, find?_cons, ho]
    · by_cases ho : k = other
      · subst ho
        simp [set, find?_cons, hk, Ne.symm hk]
      · simp [set, find?_cons, hk, ho, ih]

/-- Taking a key out is seen at that key and at no other. -/
theorem find?_erase (t : Table κ α) (key other : κ) :
    find? (t.erase key) other = if key = other then none else find? t other := by
  induction t with
  | nil => simp [erase, find?]
  | cons p rest ih =>
    obtain ⟨k, v⟩ := p
    by_cases hk : k = key
    · subst hk
      have : erase ((k, v) :: rest) k = erase rest k := by simp [erase]
      rw [this, ih, find?_cons]
      split <;> rfl
    · have : erase ((k, v) :: rest) key = (k, v) :: erase rest key := by simp [erase, hk]
      rw [this, find?_cons, find?_cons, ih]
      by_cases ho : k = other
      · subst ho
        simp [Ne.symm hk]
      · simp [ho]

theorem find?_eq_none {t : Table κ α} {key : κ} : find? t key = none ↔ ∀ p ∈ t, p.1 ≠ key := by
  unfold find?
  rw [List.lookup_eq_none_iff]
  exact ⟨fun h p hp heq => by simpa [heq] using h p hp, fun h p hp => by simpa using (h p hp).symm⟩

theorem mem_of_find? {t : Table κ α} {key : κ} {value : α} (h : find? t key = some value) : (key, value) ∈ t := by
  obtain ⟨before, after, rfl, -⟩ := List.lookup_eq_some_iff.mp h
  exact List.mem_append_right _ List.mem_cons_self

/-- A new key comes last. -/
theorem set_of_find?_eq_none {t : Table κ α} {key : κ} (value : α) (h : find? t key = none) :
    t.set key value = t ++ [(key, value)] := by
  induction t with
  | nil => rfl
  | cons p rest ih =>
    obtain ⟨hp, hrest⟩ := List.forall_mem_cons.mp (find?_eq_none.mp h)
    rw [set, if_neg hp, ih (find?_eq_none.mpr hrest)]
    rfl

/-- A new key leaves no key standing twice. -/
theorem nodup_set {t : Table κ α} {key : κ} (value : α) (h : (t.map Prod.fst).Nodup) (hnew : find? t key = none) :
    ((t.set key value).map Prod.fst).Nodup := by
  rw [set_of_find?_eq_none value hnew, List.map_append, List.nodup_append]
  refine ⟨h, List.nodup_cons.mpr ⟨nofun, .nil⟩, fun k hk k' hk' => ?_⟩
  obtain ⟨p, hp, rfl⟩ := List.mem_map.mp hk
  rw [List.mem_singleton.mp hk']
  exact find?_eq_none.mp hnew p hp

/-- If no key stands twice, taking one out takes out one pair. -/
theorem perm_erase {t : Table κ α} {key : κ} {value : α} (h : (t.map Prod.fst).Nodup)
    (hvalue : find? t key = some value) : t.Perm ((key, value) :: t.erase key) := by
  induction t with
  | nil => cases hvalue
  | cons p rest ih =>
    obtain ⟨k, v⟩ := p
    obtain ⟨hk, hrest⟩ := List.nodup_cons.mp h
    rw [find?_cons] at hvalue
    by_cases hkey : k = key
    · subst hkey
      rw [if_pos rfl] at hvalue
      cases hvalue
      have hgone : erase ((k, value) :: rest) k = rest := by
        rw [erase, List.filter_cons_of_neg (by simp), List.filter_eq_self]
        exact fun p hp => decide_eq_true fun heq => hk (List.mem_map.mpr ⟨p, hp, heq⟩)
      rw [hgone]
    · rw [if_neg hkey] at hvalue
      have hkept : erase ((k, v) :: rest) key = (k, v) :: erase rest key :=
        List.filter_cons_of_pos (by simpa using hkey)
      rw [hkept]
      exact ((ih hrest hvalue).cons _).trans (.swap ..)

end Table

end TdsSession
