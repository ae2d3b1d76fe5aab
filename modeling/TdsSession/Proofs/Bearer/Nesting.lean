import TdsSession.Proofs.Bearer.Refresh

/-!
# Whole look-ups

A look-up is in two parts, and others may use the cache between them, also for
look-ups of their own. However deep look-ups are nested, what is done is a
sequence of events (`CacheUse.steps_of_acts`).
-/

namespace TdsSession

open Relation (ReflTransGen)

/-- The event is no part of a look-up. -/
def CacheEvent.Whole : CacheEvent → Prop
  | .lookUp .. | .settle .. | .cancel .. => False
  | _ => True

/-- Look-ups are done as a whole, with whatever happens meanwhile. -/
inductive CacheAct.Whole : CacheAct → Prop
  | event {e : CacheEvent} (h : e.Whole) : Whole (.event e)
  | lookUp {key : CacheKey} {outcome : Except AuthError BearerToken} {meanwhile : List CacheAct}
      (h : ∀ a ∈ meanwhile, a.Whole) : Whole (.lookUp key outcome meanwhile)

namespace CacheUse

variable {u u' : CacheUse} {now : WallTime} {e : CacheEvent} {depth : Nat}

/-- From `u` to `u'` events have happened, and no look-up has been begun or ended for good. -/
structure Passes (u u' : CacheUse) : Prop where
  steps : ReflTransGen Step u u'
  pending : ∀ call, Table.find? u'.pending call = Table.find? u.pending call

theorem Passes.refl (u : CacheUse) : u.Passes u := ⟨.refl, fun _ => rfl⟩

theorem Passes.trans {u'' : CacheUse} (h : u.Passes u') (h' : u'.Passes u'') : u.Passes u'' :=
  ⟨h.steps.trans h'.steps, fun call => (h'.pending call).trans (h.pending call)⟩

/-- Numbers from `depth` on are not in use. -/
def FreeFrom (u : CacheUse) (depth : Nat) : Prop := ∀ call, depth ≤ call → Table.find? u.pending call = none

theorem Passes.freeFrom (h : u.Passes u') (hfree : u.FreeFrom depth) : u'.FreeFrom depth :=
  fun call hcall => (h.pending call).trans (hfree call hcall)

theorem step_passes (u : CacheUse) (now : WallTime) (h : e.Whole) : u.Passes (u.step now e).1 where
  steps := .single ⟨now, e, by cases e <;> trivial, rfl⟩
  pending call := by
    have hchange := step_changes u now e
    generalize (u.step now e).1 = u' at hchange
    cases hchange with
    | kept | offered | begun | ended => rfl
    | refreshes | asks | settled | cancelled => exact h.elim

/-- A look-up that is settled is over, and no other is. -/
theorem find?_pending_settle (u : CacheUse) (now : WallTime) (call : Nat) (outcome : Except AuthError BearerToken)
    (other : Nat) : Table.find? (u.step now (.settle call outcome)).1.pending other =
      if call = other then none else Table.find? u.pending other := by
  rw [step]
  rcases h : Table.find? u.pending call with _ | ⟨key, claim⟩
  · dsimp only
    split
    · subst other
      exact h
    · rfl
  · dsimp only
    rcases (TokenCache.settle u.cache key claim outcome).2 <;> exact Table.find?_erase ..

theorem FreeFrom.deeper (h : u.FreeFrom depth) (c : TokenCache) (value : CacheKey × CacheClaim) :
    FreeFrom { u with cache := c, pending := Table.set u.pending depth value } (depth + 1) := by
  intro call hcall
  rw [Table.find?_set, if_neg (Nat.ne_of_lt hcall)]
  exact h call (Nat.le_of_succ_le hcall)

/-- A look-up that gets a token begins, whatever happens meanwhile, and is settled. -/
theorem lookUp_passes {c : TokenCache} {key : CacheKey} {claim : CacheClaim} {reply : CacheReply}
    (outcome : Except AuthError BearerToken) (hfree : u.FreeFrom depth)
    (hstep : u.step now (.lookUp depth key) =
      ({ u with cache := c, pending := Table.set u.pending depth (key, claim) }, reply))
    (h : Passes { u with cache := c, pending := Table.set u.pending depth (key, claim) } u') :
    u.Passes (u'.step now (.settle depth outcome)).1 := by
  have hbegun : Step u { u with cache := c, pending := Table.set u.pending depth (key, claim) } :=
    ⟨now, .lookUp depth key, hfree depth (Nat.le_refl _), by rw [hstep]⟩
  refine ⟨(ReflTransGen.head hbegun h.steps).tail ⟨now, .settle depth outcome, trivial, rfl⟩, fun call => ?_⟩
  rw [find?_pending_settle]
  by_cases hcall : depth = call
  · subst hcall
    rw [if_pos rfl, hfree depth (Nat.le_refl _)]
  · rw [if_neg hcall, h.pending, Table.find?_set, if_neg hcall]

/-- Acts in order are events if each of them is. -/
theorem actAll_passes {acts : List CacheAct}
    (h : ∀ a ∈ acts, ∀ u : CacheUse, u.FreeFrom depth → u.Passes (act now depth u a).1)
    (u : CacheUse) (hfree : u.FreeFrom depth) : u.Passes (actAll now depth u acts).1 := by
  induction acts generalizing u with
  | nil =>
    rw [actAll]
    exact .refl u
  | cons a rest ih =>
    obtain ⟨ha, hrest⟩ := List.forall_mem_cons.mp h
    rw [actAll]
    have hfirst := ha u hfree
    exact hfirst.trans (ih hrest _ (hfirst.freeFrom hfree))

/-- A whole look-up is the events of it, with what happens meanwhile between them. -/
theorem act_passes {a : CacheAct} (h : a.Whole) (u : CacheUse) (hfree : u.FreeFrom depth) :
    u.Passes (act now depth u a).1 := by
  -- what happens meanwhile is in the induction hypothesis, one look-up deeper
  induction h generalizing depth u with
  | event h =>
    rw [act]
    exact step_passes u now h
  | lookUp h ih =>
    rename_i key outcome meanwhile
    have hmeanwhile (c : TokenCache) (claim : CacheClaim) := actAll_passes (fun a ha u => @ih a ha (depth + 1) u) _
      (hfree.deeper c (key, claim))
    rw [act]
    rcases step_lookUp_cases u now depth key with ⟨-, hstep⟩ | ⟨-, ⟨claim, -, hstep⟩ | ⟨token, hstep⟩⟩ <;> rw [hstep]
    · exact lookUp_passes outcome hfree hstep (hmeanwhile _ .refresh)
    · exact lookUp_passes outcome hfree hstep (hmeanwhile u.cache claim)
    · exact .refl u

/-- Whatever is done with an empty cache, event by event or in whole look-ups, is a sequence of events. -/
theorem steps_of_acts (now : WallTime) {acts : List CacheAct} (h : ∀ a ∈ acts, a.Whole) :
    ReflTransGen Step {} (actAll now 0 {} acts).1 :=
  (actAll_passes (fun a ha u hfree => act_passes (h a ha) u hfree) {} fun _ _ => rfl).steps

end CacheUse

end TdsSession
