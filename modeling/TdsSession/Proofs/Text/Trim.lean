import TdsSession.Text.Blank
import TdsSession.Text.Numeral
import TdsSession.Text.Split

/-!
# Text that is cut and put together again

A text that has been trimmed neither begins nor ends with a blank (`Trimmed`),
and trimming it once more changes nothing (`trim_eq_self`). What trimming leaves
of the front of such a text is a front of it again (`trim_isPrefix`). A text that
is put together around a separator is cut there again, and a number that is
written in decimal digits is read back (`Numeral.parse_toDigits`).
-/

namespace TdsSession.Text

variable {text front back : List Char} {c sep : Char}

/-! ## Blanks -/

/-- The text neither begins nor ends with a blank. -/
structure Trimmed (text : List Char) : Prop where
  first : ∀ c, text.head? = some c → isBlank c = false
  last : ∀ c, text.getLast? = some c → isBlank c = false

theorem head?_of_isPrefix (h : front <+: text) (hc : front.head? = some c) : text.head? = some c := by
  obtain ⟨back, rfl⟩ := h
  rw [List.head?_append, hc, Option.some_or]

theorem trimEnd_isPrefix (text : List Char) : trimEnd text <+: text := by
  rw [trimEnd, trimStart, ← List.reverse_suffix, List.reverse_reverse]
  exact List.dropWhile_suffix isBlank

theorem isBlank_of_head?_trimStart (h : (trimStart text).head? = some c) : isBlank c = false := by
  have hhead := List.head?_dropWhile_not isBlank text
  rw [trimStart] at h
  rwa [h] at hhead

theorem trimmed_trim (text : List Char) : Trimmed (trim text) where
  first _ h := isBlank_of_head?_trimStart (head?_of_isPrefix (trimEnd_isPrefix _) h)
  last c h := by
    rw [trim, trimEnd, List.getLast?_reverse] at h
    exact isBlank_of_head?_trimStart h

theorem trimStart_eq_self (h : ∀ c, text.head? = some c → isBlank c = false) : trimStart text = text := by
  cases text with
  | nil => rfl
  | cons c text =>
    rw [trimStart, List.dropWhile_cons_of_neg]
    simp [h c rfl]

theorem trim_eq_self (h : Trimmed text) : trim text = text := by
  have hend : trimStart text.reverse = text.reverse := by
    refine trimStart_eq_self fun c hc => h.last c ?_
    rwa [List.head?_reverse] at hc
  rw [trim, trimStart_eq_self h.first, trimEnd, hend, List.reverse_reverse]

/-- The front of a trimmed text is trimmed at its end alone. -/
theorem trim_isPrefix (htext : Trimmed text) (h : front <+: text) : trim front <+: text := by
  rw [trim, trimStart_eq_self fun c hc => htext.first c (head?_of_isPrefix h hc)]
  exact (trimEnd_isPrefix front).trans h

theorem trim_subset (text : List Char) : trim text ⊆ text :=
  List.Subset.trans (trimEnd_isPrefix _).subset (List.dropWhile_subset isBlank)

/-- What is no blank is not cut off. -/
theorem mem_trim (h : c ∈ text) (hc : isBlank c = false) : c ∈ trim text := by
  obtain ⟨front, back, rfl⟩ := List.append_of_mem h
  rw [trim_append_cons hc]
  exact List.mem_append_right _ List.mem_cons_self

/-- A trimmed text does not end in blanks, so something is left of what stands behind a separator. -/
theorem trim_ne_nil (h : Trimmed (front ++ sep :: back)) (hne : back ≠ []) : trim back ≠ [] := by
  have hlast : (front ++ sep :: back).getLast? = some (back.getLast hne) := by
    rw [List.getLast?_append, List.getLast?_cons_of_ne_nil hne, List.getLast?_eq_some_getLast hne, Option.some_or]
  exact List.ne_nil_of_mem (mem_trim (List.getLast_mem hne) (h.last _ hlast))

theorem trimmed_of_forall (h : ∀ c ∈ text, isBlank c = false) : Trimmed text where
  first c hc := h c (List.mem_of_head? hc)
  last c hc := h c (List.mem_of_getLast? hc)

theorem trimmed_of_all (h : (text.all fun c => !isBlank c) = true) : Trimmed text :=
  trimmed_of_forall fun c hc => Bool.not_eq_true' _ ▸ List.all_eq_true.mp h c hc

theorem trimmed_nil : Trimmed [] := trimmed_of_forall fun _ h => nomatch h

theorem Trimmed.append (hfront : Trimmed front) (hback : Trimmed back) : Trimmed (front ++ back) where
  first c hc := by
    rw [List.head?_append, Option.or_eq_some_iff] at hc
    rcases hc with hc | ⟨-, hc⟩
    · exact hfront.first c hc
    · exact hback.first c hc
  last c hc := by
    rw [List.getLast?_append, Option.or_eq_some_iff] at hc
    rcases hc with hc | ⟨-, hc⟩
    · exact hback.last c hc
    · exact hfront.last c hc

theorem Trimmed.cons (hc : isBlank c = false) (h : Trimmed text) : Trimmed (c :: text) := by
  have hsingle : Trimmed [c] := trimmed_of_forall fun d hd => by rwa [List.mem_singleton.mp hd]
  exact hsingle.append h

/-! ## Separators -/

theorem exists_splitOnce (h : sep ∈ text) : ∃ front back, splitOnce sep text = some (front, back) := by
  rcases hcut : splitOnce sep text with _ | ⟨front, back⟩
  · exact absurd h (splitOnce_eq_none_iff.mp hcut)
  · exact ⟨front, back, rfl⟩

/-- What is added at the end of a text comes behind its first separator. -/
theorem splitOnce_append (h : splitOnce sep text = some (front, back)) (more : List Char) :
    splitOnce sep (text ++ more) = some (front, back ++ more) := by
  obtain ⟨rfl, hfirst⟩ := splitOnce_eq_some_iff.mp h
  refine splitOnce_eq_some_iff.mpr ⟨?_, hfirst⟩
  rw [List.append_assoc, List.cons_append]

/-- The first separator stands behind every front of the text that does not contain it. -/
theorem isPrefix_of_splitOnce {other : List Char} (h : splitOnce sep text = some (front, back))
    (hother : other <+: text) (hno : sep ∉ other) : other <+: front := by
  obtain ⟨rfl, -⟩ := splitOnce_eq_some_iff.mp h
  have hcut : front ++ [sep] <+: front ++ sep :: back := ⟨back, by rw [List.append_assoc, List.singleton_append]⟩
  rcases List.prefix_or_prefix_of_prefix hother hcut with hshort | hlong
  · rcases List.prefix_concat_iff.mp hshort with rfl | hfront
    · exact absurd (List.mem_append_right front List.mem_cons_self) hno
    · exact hfront
  · exact absurd (hlong.subset (List.mem_append_right front List.mem_cons_self)) hno

/-- The cut is at the last separator. -/
theorem splitLast_append_cons (front : List Char) (h : sep ∉ back) :
    splitLast sep (front ++ sep :: back) = some (front, back) := by
  induction front with
  | nil => rw [List.nil_append, splitLast, splitLast_eq_none_iff.mpr h, if_pos rfl]
  | cons c front ih => rw [List.cons_append, splitLast, ih]

theorem eq_of_splitLast (h : splitLast sep text = some (front, back)) :
    text = front ++ sep :: back ∧ sep ∉ back := by
  induction text generalizing front with
  | nil => cases h
  | cons c rest ih =>
    rw [splitLast] at h
    split at h
    · rename_i p hrest
      cases h
      obtain ⟨hcut, hlast⟩ := ih hrest
      exact ⟨congrArg (c :: ·) hcut, hlast⟩
    · rename_i hrest
      split at h
      · rename_i hsep
        cases h
        exact ⟨congrArg (· :: back) hsep, splitLast_eq_none_iff.mp hrest⟩
      · cases h

/-! ## Numbers -/

namespace Numeral

theorem digit?_digitChar {d : Nat} (h : d < 10) : digit? d.digitChar = some d := by
  revert d
  decide

theorem ofDigits_append (acc : Nat) (front back : List Char) :
    ofDigits acc (front ++ back) = (ofDigits acc front).bind fun n => ofDigits n back := by
  induction front generalizing acc with
  | nil => rfl
  | cons c front ih =>
    rw [List.cons_append, ofDigits, ofDigits, Option.bind_assoc]
    exact congrArg (Option.bind _) (funext fun d => ih _)

/-- The digits of a number spell it. -/
theorem ofDigits_toDigits (n : Nat) : ofDigits 0 (Nat.toDigits 10 n) = some n := by
  induction n using Nat.strongRecOn with
  | ind n ih =>
    rcases Nat.lt_or_ge n 10 with hlt | hle
    · rw [Nat.toDigits_of_lt_base hlt, ofDigits, digit?_digitChar hlt]
      exact congrArg some (Nat.zero_add n)
    · have hdigit : digit? (n % 10).digitChar = some (n % 10) := digit?_digitChar (Nat.mod_lt n (by decide))
      rw [Nat.toDigits_of_base_le (by decide) hle, ofDigits_append, ih (n / 10) (by omega), Option.bind_some,
        ofDigits, hdigit]
      exact congrArg some (Nat.div_add_mod n 10)

/-- What is no digit is not among the digits of a number. -/
theorem not_mem_toDigits (hc : c.isDigit = false) (n : Nat) : c ∉ Nat.toDigits 10 n := by
  intro hmem
  rw [Nat.isDigit_of_mem_toDigits (by decide) (by decide) hmem] at hc
  cases hc

theorem trimmed_toDigits (n : Nat) : Trimmed (Nat.toDigits 10 n) := by
  refine trimmed_of_forall fun c hc => ?_
  have hdigit : c.isDigit = true := Nat.isDigit_of_mem_toDigits (by decide) (by decide) hc
  simp only [Char.isDigit, Bool.and_eq_true, decide_eq_true_eq, ge_iff_le, UInt32.le_iff_toNat_le] at hdigit
  change 48 ≤ c.toNat ∧ c.toNat ≤ 57 at hdigit
  simp only [isBlank, Bool.or_eq_false_iff, Bool.and_eq_false_iff, decide_eq_false_iff_not, beq_eq_false_iff_ne]
  omega

/-- The digits of a number are read back if the number is not too large. -/
theorem parse_toDigits {limit n : Nat} (h : n ≤ limit) : parse limit (Nat.toDigits 10 n) = some n := by
  have hplus (rest : List Char) : Nat.toDigits 10 n ≠ '+' :: rest :=
    fun heq => not_mem_toDigits (by decide) n (heq ▸ List.mem_cons_self)
  have hne : (Nat.toDigits 10 n).isEmpty = false := List.isEmpty_eq_false_iff.mpr Nat.toDigits_ne_nil
  unfold parse
  split
  · exact absurd ‹_› (hplus _)
  · dsimp only
    rw [hne, ofDigits_toDigits]
    simp [Option.filter, h]

end Numeral

end TdsSession.Text
