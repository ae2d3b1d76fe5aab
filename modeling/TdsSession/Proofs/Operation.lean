import Mathlib.Logic.Relation
import TdsSession.Login.Run

/-!
# Operations that stop

Every operation of a login keeps its state when it stops without a value. This
module says how such operations run, one step of the notation at a time, and
what it means that an operation `Keeps` a relation between its first and its
last state:

* `bind_eq_ok`, `bind_cases`: a sequence of two operations, taken apart;
* `Keeps.bind`, `Keeps.tryCatch`, `Keeps.inWorld`: an operation keeps what its
  parts keep, so that a frame condition is proved part by part;
* `Ends.bind`, `Ends.tryCatch`, `Ends.inWorld`: in the same way, what an
  operation gives, and for what reasons it stops.
-/

namespace TdsSession.Op

variable {ε S α β : Type}

@[simp] theorem pure_apply (a : α) (s : S) : (pure a : ExceptT ε (StateM S) α) s = (.ok a, s) := rfl

@[simp] theorem throw_apply (e : ε) (s : S) :
    (throw e : ExceptT ε (StateM S) α) s = (.error e, s) := rfl

@[simp] theorem get_apply (s : S) : (get : ExceptT ε (StateM S) S) s = (.ok s, s) := rfl

@[simp] theorem set_apply (s t : S) : (set t : ExceptT ε (StateM S) PUnit) s = (.ok ⟨⟩, t) := rfl

@[simp] theorem modify_apply (f : S → S) (s : S) :
    (modify f : ExceptT ε (StateM S) PUnit) s = (.ok ⟨⟩, f s) := rfl

/-- The second operation runs where the first has ended, unless that stopped. -/
theorem bind_apply (m : ExceptT ε (StateM S) α) (f : α → ExceptT ε (StateM S) β) (s : S) :
    (m >>= f) s = match m s with
      | (.ok a, s') => f a s'
      | (.error e, s') => (.error e, s') := by
  change (match m s with | (r, s') => ExceptT.bindCont f r s' : Except ε β × S) = _
  rcases m s with ⟨_ | a, s'⟩ <;> rfl

theorem bind_of_ok {m : ExceptT ε (StateM S) α} {s s' : S} {a : α} (h : m s = (.ok a, s'))
    (f : α → ExceptT ε (StateM S) β) : (m >>= f) s = f a s' := by
  rw [bind_apply, h]

theorem bind_of_error {m : ExceptT ε (StateM S) α} {s s' : S} {e : ε} (h : m s = (.error e, s'))
    (f : α → ExceptT ε (StateM S) β) : (m >>= f) s = (.error e, s') := by
  rw [bind_apply, h]

/-- A sequence either stops in its first part, or ends as its second part does. -/
theorem bind_cases {m : ExceptT ε (StateM S) α} {f : α → ExceptT ε (StateM S) β} {s s' : S}
    {r : Except ε β} (h : (m >>= f) s = (r, s')) :
    (∃ e, m s = (.error e, s') ∧ r = .error e) ∨ ∃ a mid, m s = (.ok a, mid) ∧ f a mid = (r, s') := by
  rcases hm : m s with ⟨e | a, mid⟩
  · rw [bind_of_error hm] at h
    cases h
    exact .inl ⟨e, rfl, rfl⟩
  · rw [bind_of_ok hm] at h
    exact .inr ⟨a, mid, rfl, h⟩

theorem bind_eq_ok {m : ExceptT ε (StateM S) α} {f : α → ExceptT ε (StateM S) β} {s s' : S} {b : β} :
    (m >>= f) s = (.ok b, s') ↔ ∃ a mid, m s = (.ok a, mid) ∧ f a mid = (.ok b, s') := by
  constructor
  · intro h
    rcases bind_cases h with ⟨e, -, he⟩ | h
    · cases he
    · exact h
  · rintro ⟨a, mid, hm, hf⟩
    rw [bind_of_ok hm, hf]

theorem except_bind_eq_ok {m : Except ε α} {f : α → Except ε β} {b : β} :
    (m >>= f) = .ok b ↔ ∃ a, m = .ok a ∧ f a = .ok b := by
  cases m with
  | error e =>
    constructor
    · intro h
      cases h
    · rintro ⟨a, ha, -⟩
      cases ha
  | ok a =>
    constructor
    · exact fun h => ⟨a, rfl, h⟩
    · rintro ⟨_, ⟨⟩, hf⟩
      exact hf

/-- What has been got from a list comes from a member each. -/
theorem exists_of_mem_mapM {f : α → Except ε β} {as : List α} {bs : List β} (h : as.mapM f = .ok bs) {b : β}
    (hb : b ∈ bs) : ∃ a ∈ as, f a = .ok b := by
  induction as generalizing bs with
  | nil =>
    cases h
    cases hb
  | cons a as ih =>
    rw [List.mapM_cons] at h
    obtain ⟨b', hb', h⟩ := except_bind_eq_ok.mp h
    obtain ⟨bs', hbs', h⟩ := except_bind_eq_ok.mp h
    cases h
    rcases List.mem_cons.mp hb with rfl | hrest
    · exact ⟨a, List.mem_cons_self, hb'⟩
    · obtain ⟨a', ha', hfa'⟩ := ih hbs' hrest
      exact ⟨a', List.mem_cons_of_mem _ ha', hfa'⟩

theorem map_apply (f : α → β) (m : ExceptT ε (StateM S) α) (s : S) :
    (f <$> m) s = ((m s).1.map f, (m s).2) := by
  rw [map_eq_pure_bind, bind_apply]
  rcases m s with ⟨_ | a, s'⟩ <;> rfl

theorem tryCatch_apply (m : ExceptT ε (StateM S) α) (g : ε → ExceptT ε (StateM S) α) (s : S) :
    (tryCatch m g) s = match m s with
      | (.ok a, s') => (.ok a, s')
      | (.error e, s') => g e s' := by
  change (match m s with
    | (r, s') => (match r with
      | .ok a => Pure.pure (Except.ok a)
      | .error e => g e : StateM S (Except ε α)) s') = _
  rcases m s with ⟨_ | a, s'⟩ <;> rfl

/-- However `m` ends, its last state stands in the relation `R` to its first. -/
def Keeps (R : S → S → Prop) (m : ExceptT ε (StateM S) α) : Prop := ∀ s, R s (m s).2

namespace Keeps

variable {R : S → S → Prop}

theorem of_eq {m : ExceptT ε (StateM S) α} (h : Keeps R m) {s s' : S} {r : Except ε α}
    (hm : m s = (r, s')) : R s s' := by
  have := h s
  rwa [hm] at this

theorem mono {Q : S → S → Prop} {m : ExceptT ε (StateM S) α} (h : Keeps Q m)
    (hQ : ∀ s s', Q s s' → R s s') : Keeps R m := fun s => hQ _ _ (h s)

section Preorder

variable [IsPreorder S R]

theorem pure (a : α) : Keeps R (pure a : ExceptT ε (StateM S) α) := fun s => refl_of R s

theorem throw (e : ε) : Keeps R (throw e : ExceptT ε (StateM S) α) := fun s => refl_of R s

theorem get : Keeps R (get : ExceptT ε (StateM S) S) := fun s => refl_of R s

theorem bind {m : ExceptT ε (StateM S) α} {f : α → ExceptT ε (StateM S) β} (hm : Keeps R m)
    (hf : ∀ a, Keeps R (f a)) : Keeps R (m >>= f) := by
  intro s
  rcases h : m s with ⟨e | a, mid⟩
  · rw [bind_of_error h]
    exact hm.of_eq h
  · rw [bind_of_ok h]
    exact trans_of R (hm.of_eq h) (hf a mid)

theorem tryCatch {m : ExceptT ε (StateM S) α} {g : ε → ExceptT ε (StateM S) α} (hm : Keeps R m)
    (hg : ∀ e, Keeps R (g e)) : Keeps R (tryCatch m g) := by
  intro s
  rw [tryCatch_apply]
  rcases h : m s with ⟨e | a, mid⟩
  · exact trans_of R (hm.of_eq h) (hg e mid)
  · exact hm.of_eq h

end Preorder

/-- Along steps that all keep a preorder, it is kept from the first state to the last. -/
theorem of_steps {Q : S → S → Prop} [IsPreorder S R] (h : ∀ s s', Q s s' → R s s') {s s' : S}
    (hs : Relation.ReflTransGen Q s s') : R s s' := by
  induction hs with
  | refl => exact refl_of R s
  | tail _ last ih => exact trans_of R ih (h _ _ last)

end Keeps

/-- Where `I` holds, it holds at the end of `m`, and `m` gives a value of which `P` holds or stops for a
reason of which `E` does. -/
def Ends (I : S → Prop) (P : α → Prop) (E : ε → Prop) (m : ExceptT ε (StateM S) α) : Prop :=
  ∀ s, I s → I (m s).2 ∧ match (m s).1 with
    | .ok a => P a
    | .error e => E e

namespace Ends

variable {I : S → Prop} {P P' : α → Prop} {Q : β → Prop} {E E' : ε → Prop}

theorem value {m : ExceptT ε (StateM S) α} (h : Ends I P E m) {s s' : S} {a : α} (hs : I s)
    (hm : m s = (.ok a, s')) : P a := by
  have := (h s hs).2
  rwa [hm] at this

theorem reason {m : ExceptT ε (StateM S) α} (h : Ends I P E m) {s s' : S} {e : ε} (hs : I s)
    (hm : m s = (.error e, s')) : E e := by
  have := (h s hs).2
  rwa [hm] at this

theorem mono {m : ExceptT ε (StateM S) α} (h : Ends I P E m) (hP : ∀ a, P a → P' a) (hE : ∀ e, E e → E' e) :
    Ends I P' E' m := by
  intro s hs
  obtain ⟨hI, hend⟩ := h s hs
  refine ⟨hI, ?_⟩
  split at hend
  · exact hP _ hend
  · exact hE _ hend

theorem pure {a : α} (h : P a) : Ends I P E (pure a : ExceptT ε (StateM S) α) := fun _ hs => ⟨hs, h⟩

theorem throw {e : ε} (h : E e) : Ends I P E (throw e : ExceptT ε (StateM S) α) := fun _ hs => ⟨hs, h⟩

theorem get : Ends I I E (get : ExceptT ε (StateM S) S) := fun _ hs => ⟨hs, hs⟩

theorem set {s : S} (h : I s) : Ends I (fun _ => True) E (set s : ExceptT ε (StateM S) PUnit) :=
  fun _ _ => ⟨h, trivial⟩

theorem modify {f : S → S} (h : ∀ s, I s → I (f s)) :
    Ends I (fun _ => True) E (modify f : ExceptT ε (StateM S) PUnit) := fun s hs => ⟨h s hs, trivial⟩

theorem bind {m : ExceptT ε (StateM S) α} {f : α → ExceptT ε (StateM S) β} (hm : Ends I P E m)
    (hf : ∀ a, P a → Ends I Q E (f a)) : Ends I Q E (m >>= f) := by
  intro s hs
  obtain ⟨hmid, hend⟩ := hm s hs
  rcases h : m s with ⟨e | a, mid⟩ <;> rw [h] at hmid hend
  · rw [bind_of_error h]
    exact ⟨hmid, hend⟩
  · rw [bind_of_ok h]
    exact hf a hend mid hmid

theorem map {m : ExceptT ε (StateM S) α} {f : α → β} (hm : Ends I P E m) (hf : ∀ a, P a → Q (f a)) :
    Ends I Q E (f <$> m) := by
  rw [map_eq_pure_bind]
  exact hm.bind fun a ha => pure (hf a ha)

theorem tryCatch {m : ExceptT ε (StateM S) α} {g : ε → ExceptT ε (StateM S) α} (hm : Ends I P E m)
    (hg : ∀ e, E e → Ends I P E' (g e)) : Ends I P E' (tryCatch m g) := by
  intro s hs
  obtain ⟨hmid, hend⟩ := hm s hs
  rw [tryCatch_apply]
  rcases h : m s with ⟨e | a, mid⟩ <;> rw [h] at hmid hend
  · exact hg e hend mid hmid
  · exact ⟨hmid, hend⟩

end Ends

section

variable {I : S → Prop} {Q : β → Prop} {E : ε → Prop} {f : PUnit → ExceptT ε (StateM S) β}

theorem ends_set_bind {s : S} (h : I s) (hf : Ends I Q E (f ⟨⟩)) : Ends I Q E (set s >>= f) :=
  (Ends.set h).bind fun _ _ => hf

theorem ends_modify_bind {g : S → S} (h : ∀ s, I s → I (g s)) (hf : Ends I Q E (f ⟨⟩)) :
    Ends I Q E (modify g >>= f) := (Ends.modify h).bind fun _ _ => hf

end

/-- Where `I` holds, it holds at the end of `m`, and `m` stops for no reason but one of which `E` holds. -/
abbrev Stops (I : S → Prop) (E : ε → Prop) (m : ExceptT ε (StateM S) α) : Prop := Ends I (fun _ => True) E m

theorem Ends.stops {I : S → Prop} {P : α → Prop} {E : ε → Prop} {m : ExceptT ε (StateM S) α}
    (h : Ends I P E m) : Stops I E m := h.mono (fun _ _ => trivial) fun _ => id

theorem Stops.mono {I : S → Prop} {E E' : ε → Prop} {m : ExceptT ε (StateM S) α} (h : Stops I E m)
    (hE : ∀ e, E e → E' e) : Stops I E' m := Ends.mono h (fun _ => id) hE

/-- Of whatever value `m` gives, `P` holds. -/
abbrev Gives (P : α → Prop) (m : ExceptT ε (StateM S) α) : Prop := Ends (fun _ => True) P (fun _ => True) m

/-- What a sequence gives depends on its second part, if that gives it whatever the first has given. -/
theorem Gives.after {P : β → Prop} {m : ExceptT ε (StateM S) α} {f : α → ExceptT ε (StateM S) β}
    (h : ∀ a, Gives P (f a)) : Gives P (m >>= f) := by
  have any : Gives (fun _ => True) m := by
    intro s _
    refine ⟨trivial, ?_⟩
    split <;> trivial
  exact any.bind fun a _ => h a

end TdsSession.Op

namespace TdsSession.LoginM

open TdsSession.Op

variable {σ α β : Type}

theorem inWorld_apply (m : WorldM σ α) (run : LoginRun σ) :
    inWorld m run = ((m run.world).1, { run with world := (m run.world).2 }) := rfl

@[simp] theorem fail_apply (e : Error) (run : LoginRun σ) :
    (fail e : LoginM σ α) run = (.error (.failed e), run) := rfl

@[simp] theorem ofExcept_ok_apply (a : α) (run : LoginRun σ) : ofExcept (.ok a) run = (.ok a, run) := rfl

@[simp] theorem ofExcept_error_apply (e : Error) (run : LoginRun σ) :
    (ofExcept (.error e) : LoginM σ α) run = (.error (.failed e), run) := rfl

@[simp] theorem ofClock_ok_apply (a : α) (run : LoginRun σ) : ofClock (.ok a) run = (.ok a, run) := rfl

@[simp] theorem ofClock_error_apply (o : Overflow) (run : LoginRun σ) :
    (ofClock (.error o) : LoginM σ α) run = (.error .overflow, run) := rfl

@[simp] theorem enter_apply (phase : LoginPhase) (run : LoginRun σ) :
    enter phase run = (.ok (), { run with phase }) := rfl

theorem askBudget_apply (question : Budget → Moment → Except Overflow α) (run : LoginRun σ) :
    askBudget question run = ofClock (question run.budget run.world.now) run := rfl

theorem ofExcept_snd (r : Except Error α) (run : LoginRun σ) : (ofExcept r run).2 = run := by
  cases r <;> rfl

theorem ofClock_snd (r : Except Overflow α) (run : LoginRun σ) : (ofClock r run).2 = run := by
  cases r <;> rfl

/-- Asking the budget changes nothing. -/
@[simp] theorem askBudget_snd (question : Budget → Moment → Except Overflow α) (run : LoginRun σ) :
    (askBudget question run).2 = run := ofClock_snd _ run

end TdsSession.LoginM

namespace TdsSession.Op.Keeps

open TdsSession

variable {σ α : Type} {R : LoginRun σ → LoginRun σ → Prop}

/-- An operation in the world keeps what a change of the world alone keeps. -/
theorem inWorld {Q : World σ → World σ → Prop} {m : WorldM σ α} (hm : Keeps Q m)
    (h : ∀ (run : LoginRun σ) w, Q run.world w → R run { run with world := w }) :
    Keeps R (LoginM.inWorld m) := fun run => h run _ (hm run.world)

variable [IsPreorder (LoginRun σ) R]

theorem ofExcept (r : Except Error α) : Keeps R (LoginM.ofExcept r) := by
  intro run
  rw [LoginM.ofExcept_snd]
  exact refl_of R run

theorem ofClock (r : Except Overflow α) : Keeps R (LoginM.ofClock r) := by
  intro run
  rw [LoginM.ofClock_snd]
  exact refl_of R run

theorem fail (e : Error) : Keeps R (LoginM.fail e : LoginM σ α) := fun run => refl_of R run

theorem askBudget (question : Budget → Moment → Except Overflow α) :
    Keeps R (LoginM.askBudget question : LoginM σ α) := by
  intro run
  rw [LoginM.askBudget_snd]
  exact refl_of R run

end TdsSession.Op.Keeps

namespace TdsSession.Op.Ends

open TdsSession

variable {σ α : Type} {P : α → Prop} {E : Stop → Prop}

/-- An operation in the world ends as it does there. -/
theorem inWorld {I : World σ → Prop} {m : WorldM σ α} (h : Ends I P E m) :
    Ends (fun run : LoginRun σ => I run.world) P E (LoginM.inWorld m) := fun run hrun => h run.world hrun

variable {I : LoginRun σ → Prop}

theorem fail {e : Error} (h : E (.failed e)) : Ends I P E (LoginM.fail e : LoginM σ α) := Ends.throw h

theorem ofExcept (r : Except Error α) (h : ∀ e, E (.failed e)) :
    Ends I (fun a => r = .ok a) E (LoginM.ofExcept r) := by
  cases r with
  | ok a => exact Ends.pure rfl
  | error e => exact Ends.throw (h e)

theorem ofClock (r : Except Overflow α) (h : E .overflow) :
    Ends I (fun a => r = .ok a) E (LoginM.ofClock r) := by
  cases r with
  | ok a => exact Ends.pure rfl
  | error o => exact Ends.throw h

theorem askBudget (question : Budget → Moment → Except Overflow α) (h : E .overflow) :
    Stops I E (LoginM.askBudget question : LoginM σ α) := Ends.get.bind fun _ _ => (Ends.ofClock _ h).stops

end TdsSession.Op.Ends
