import TdsSession.Proofs.Login.Attempt

/-!
# What an attempt leaves alone

An attempt moves the clock, adds to the trace and takes over what servers and
providers say. All that the rounds around it keep for themselves is as it was:
the time budget, the redirects followed so far, the attempts made before
(`AttemptFrame`). Whether the login has a token is read off its trace
(`TokenRetry.ofTrace`), and an attempt keeps the two in step.
-/

namespace TdsSession

open Relation (ReflTransGen)
open Op (Keeps)

/-! ## Traces -/

/-- A trace does not hold what came after it. -/
theorem not_cons_suffix {e : Moment × Event} {trace later : List (Moment × Event)} (h : trace <:+ later) :
    ¬ e :: later <:+ trace := by
  intro hs
  have hshort := hs.length_le
  have hlong := h.length_le
  rw [List.length_cons] at hshort
  omega

/-- What stands in a trace stood there before, or has come since. -/
theorem cons_suffix_or_suffix {e : Moment × Event} {older mid new : List (Moment × Event)} (h : e :: older <:+ new)
    (hmid : mid <:+ new) : e :: older <:+ mid ∨ mid <:+ older := by
  rcases List.suffix_or_suffix_of_suffix h hmid with hs | hs
  · exact .inl hs
  rcases List.suffix_cons_iff.mp hs with rfl | hs
  · exact .inl List.suffix_rfl
  · exact .inr hs

/-- What stands in a trace after others have been added is one of these, or stood there before. -/
theorem cons_suffix_append_cases {e : Moment × Event} {older later earlier : List (Moment × Event)}
    (h : e :: older <:+ later ++ earlier) :
    (∃ between, e :: between <:+ later ∧ older = between ++ earlier) ∨ e :: older <:+ earlier := by
  rcases cons_suffix_or_suffix h (List.suffix_append later earlier) with hs | ⟨between, rfl⟩
  · exact .inr hs
  · rw [← List.cons_append, List.suffix_append_self_iff] at h
    exact .inl ⟨between, h, rfl⟩

/-- A trace has grown by events that `Q` allows. -/
def Grows (Q : Event → Prop) (old new : List (Moment × Event)) : Prop :=
  ∃ added, new = added ++ old ∧ ∀ e ∈ added, Q e.2

namespace Grows

variable {Q R : Event → Prop} {old mid new : List (Moment × Event)}

theorem refl (old : List (Moment × Event)) : Grows Q old old := ⟨[], rfl, fun _ h => nomatch h⟩

theorem trans (h₁ : Grows Q old mid) (h₂ : Grows Q mid new) : Grows Q old new := by
  obtain ⟨first, rfl, hfirst⟩ := h₁
  obtain ⟨second, rfl, hsecond⟩ := h₂
  refine ⟨second ++ first, (List.append_assoc ..).symm, fun e he => ?_⟩
  rcases List.mem_append.mp he with he | he
  · exact hsecond e he
  · exact hfirst e he

theorem cons {t : Moment} {e : Event} (he : Q e) (old : List (Moment × Event)) : Grows Q old ((t, e) :: old) :=
  ⟨[(t, e)], rfl, fun _ h => by cases List.mem_singleton.mp h; exact he⟩

theorem mono (h : Grows Q old new) (hQR : ∀ e, Q e → R e) : Grows R old new := by
  obtain ⟨added, rfl, hadded⟩ := h
  exact ⟨added, rfl, fun e he => hQR e.2 (hadded e he)⟩

theorem suffix (h : Grows Q old new) : old <:+ new := by
  obtain ⟨added, rfl, -⟩ := h
  exact ⟨added, rfl⟩

/-- What stands in a trace has been added, or stood there before. -/
theorem cons_suffix_cases {e : Moment × Event} {older : List (Moment × Event)} (h : Grows Q old new)
    (hs : e :: older <:+ new) : (Q e.2 ∧ old <:+ older) ∨ e :: older <:+ old := by
  obtain ⟨added, rfl, hadded⟩ := h
  rcases cons_suffix_append_cases hs with ⟨between, hnew, rfl⟩ | hold
  · exact .inl ⟨hadded e (hnew.subset List.mem_cons_self), List.suffix_append between old⟩
  · exact .inr hold

end Grows

/-- Steps in the world add only what they are allowed to note. -/
theorem WorldStep.grows {P : Event → Prop} {deadline : Option Moment} {w w' : World σ}
    (h : ReflTransGen (WorldStep P deadline) w w') : Grows P w.trace w'.trace := by
  induction h with
  | refl => exact .refl _
  | tail _ hstep ih =>
    cases hstep with
    | noted e he => exact ih.trans (.cons he _)
    | waited t ht => exact ih

/-- The trace of a login has grown by events that `Q` allows. -/
def TraceGrows (Q : Event → Prop) (run run' : LoginRun σ) : Prop := Grows Q run.world.trace run'.world.trace

instance {Q : Event → Prop} : IsPreorder (LoginRun σ) (TraceGrows Q) where
  refl _ := .refl _
  trans _ _ _ := .trans

theorem TraceGrows.inWorld {Q : Event → Prop} {deadline : Option Moment} {α : Type} {m : WorldM σ α}
    (h : Keeps (ReflTransGen (WorldStep Q deadline)) m) : Keeps (TraceGrows Q) (LoginM.inWorld m) :=
  Keeps.inWorld h fun _ _ => WorldStep.grows

/-- An event of an attempt that has made connection `n`. -/
def Event.over (n : Nat) (e : Event) : Prop := e.ofAttempt n ∨ e = .tokenObtained n

theorem Event.over.ne_began {n : Nat} {e : Event} (h : e.over n) : e ≠ .began := by
  rintro rfl
  rcases h with h | h
  · exact h
  · cases h

/-- What a trace says about the tokens of the login that began last. -/
def TokenRetry.ofTrace : List (Moment × Event) → TokenRetry
  | [] => .notStarted
  | (_, .began) :: _ => .notStarted
  | (_, .restarted) :: _ => .retrying
  | (_, .tokenObtained _) :: older => (ofTrace older).withToken
  | _ :: older => ofTrace older

namespace TokenRetry

theorem ofTrace_cons_ofAttempt {n : Nat} {t : Moment} {e : Event} {older : List (Moment × Event)}
    (h : e.ofAttempt n) : ofTrace ((t, e) :: older) = ofTrace older := by
  cases e <;> first | rfl | exact h.elim

theorem ofTrace_append {n : Nat} {added older : List (Moment × Event)} (h : ∀ e ∈ added, e.2.ofAttempt n) :
    ofTrace (added ++ older) = ofTrace older := by
  induction added with
  | nil => rfl
  | cons e added ih =>
    rw [List.cons_append, ofTrace_cons_ofAttempt (h e List.mem_cons_self)]
    exact ih fun e' he' => h e' (List.mem_cons_of_mem e he')

end TokenRetry

/-! ## The frame of an attempt -/

/-- What an attempt over connection `n`, cut off at `deadline`, leaves alone, and how it moves on. -/
structure AttemptFrame (n : Nat) (deadline : Option Moment) (run run' : LoginRun σ) : Prop where
  budget : run'.budget = run.budget
  doomed : run'.doomed = run.doomed
  redirects : run'.redirects = run.redirects
  attempts : run'.attempts = run.attempts
  base : run'.base = run.base
  pooled : run'.group.pooled = run.group.pooled
  preferPartner : run'.group.preferPartner = run.group.preferPartner
  connects : run'.world.connects = run.world.connects
  patience : run'.world.patience = run.world.patience
  server : run'.world.server = run.world.server
  inTime : InTime deadline run.world.now run'.world.now
  trace : Grows (Event.over n) run.world.trace run'.world.trace
  token : run.tokenRetry = .ofTrace run.world.trace → run'.tokenRetry = .ofTrace run'.world.trace

namespace AttemptFrame

variable {σ : Type} {n : Nat} {deadline : Option Moment}

theorem refl (run : LoginRun σ) : AttemptFrame n deadline run run where
  budget := rfl
  doomed := rfl
  redirects := rfl
  attempts := rfl
  base := rfl
  pooled := rfl
  preferPartner := rfl
  connects := rfl
  patience := rfl
  server := rfl
  inTime := .refl _
  trace := .refl _
  token := id

theorem trans {run mid run' : LoginRun σ} (h₁ : AttemptFrame n deadline run mid)
    (h₂ : AttemptFrame n deadline mid run') : AttemptFrame n deadline run run' where
  budget := h₂.budget.trans h₁.budget
  doomed := h₂.doomed.trans h₁.doomed
  redirects := h₂.redirects.trans h₁.redirects
  attempts := h₂.attempts.trans h₁.attempts
  base := h₂.base.trans h₁.base
  pooled := h₂.pooled.trans h₁.pooled
  preferPartner := h₂.preferPartner.trans h₁.preferPartner
  connects := h₂.connects.trans h₁.connects
  patience := h₂.patience.trans h₁.patience
  server := h₂.server.trans h₁.server
  inTime := h₁.inTime.trans h₂.inTime
  trace := h₁.trace.trans h₂.trace
  token := h₂.token ∘ h₁.token

instance : IsPreorder (LoginRun σ) (AttemptFrame n deadline) where
  refl := refl
  trans _ _ _ := trans

end AttemptFrame

/-- Each step of an attempt keeps the frame. -/
theorem AttemptStep.frame {n : Nat} {deadline : Option Moment} {run run' : LoginRun σ}
    (h : AttemptStep (Event.ofAttempt n) n deadline run run') : AttemptFrame n deadline run run' := by
  have same : AttemptFrame n deadline run run := .refl run
  cases h with
  | inWorld w h =>
    cases h with
    | noted e he =>
      refine { same with trace := .cons (.inl he) _, token := fun hrun => ?_ }
      exact hrun.trans (TokenRetry.ofTrace_cons_ofAttempt he).symm
    | waited t ht => exact { same with inTime := ht }
  | entered phase => exact { same with }
  | asked events t providers cache he ht =>
    refine { same with inTime := ht, trace := ?_, token := fun hrun => ?_ }
    · exact ⟨events, rfl, fun e h => .inl (he e h)⟩
    · exact hrun.trans (TokenRetry.ofTrace_append he).symm
  | lookedUp cache => exact { same with }
  | named partner => exact { same with }
  | gotToken =>
    refine { same with trace := .cons (.inr rfl) _, token := fun hrun => ?_ }
    show run.tokenRetry.withToken = (TokenRetry.ofTrace run.world.trace).withToken
    rw [hrun]

/-- What each step of an attempt keeps, the attempt keeps. -/
theorem AttemptFrame.of_steps {n : Nat} {deadline : Option Moment} {run run' : LoginRun σ}
    (h : ReflTransGen (AttemptStep (Event.ofAttempt n) n deadline) run run') :
    AttemptFrame n deadline run run' :=
  Keeps.of_steps (R := AttemptFrame n deadline) (fun _ _ => AttemptStep.frame) h

namespace LoginM

variable {server : Server σ} {p : AttemptPlan} {run mid : LoginRun σ}

/-- An attempt fails at once because its provider is missing, or it connects and then keeps its frame. -/
theorem attempt_frame {res : Except Stop AttemptEnd} (h : attempt server p run = (res, mid)) :
    (mid = run ∧ ∃ m : AuthMethod, res = .error (.failed (.authentication (.unsupportedMethod m.toText)))) ∨
      AttemptFrame (run.world.connects + 1) p.deadline (run.connecting server p) mid := by
  rcases attempt_cases server p run with ⟨m, hm⟩ | hsteps <;> rw [h] at *
  · cases hm
    exact .inl ⟨rfl, m, rfl⟩
  · exact .inr (.of_steps hsteps)

theorem timedAttempt_cases {res : Except Stop (Except Error AttemptEnd)}
    (h : timedAttempt server p run = (res, mid)) :
    (mid = run ∧ ∃ m : AuthMethod, res = .ok (.error (.authentication (.unsupportedMethod m.toText)))) ∨
      AttemptFrame (run.world.connects + 1) p.deadline (run.connecting server p) mid := by
  rcases hattempt : attempt server p run with ⟨r, after⟩
  obtain rfl : mid = after := by
    have hmid := timedAttempt_snd server p run
    rw [h, hattempt] at hmid
    exact hmid
  refine (attempt_frame hattempt).imp_left fun ⟨hsame, m, hm⟩ => ⟨hsame, m, ?_⟩
  rw [timedAttempt_apply, hattempt, hm] at h
  cases h
  rfl

end LoginM

end TdsSession
