import TdsSession.Address.DataSource
import TdsSession.Proofs.Operation
import TdsSession.Proofs.Text.Trim

/-!
# Data sources that are written and read again

The parts of a data source that has been read are trimmed, and none contains what
would end it early (`Plain`). A data source with such parts is written so that
every delimiter is found again where it has been put (`parse_of_plain`), and so
whatever has been read is read again from how it is written
(`readAgain_same`).
-/

namespace TdsSession

open Text

/-- A text names a transport if it is its spelling, in whatever case. -/
theorem TransportKind.lower_of_parse {text : List Char} {t : TransportKind} (h : parse text = some t) :
    lower text = t.toText.toList := by
  unfold parse at h
  split at h <;> cases h <;> rename_i hname
  all_goals
    rw [← String.toList_ofList (l := lower text), hname]
    rfl

namespace DataSource

variable {d : DataSource} {text rest front back : List Char}

/-- No transport is named before the first colon. -/
def Unqualified (text : List Char) : Prop :=
  ∀ front back, splitOnce ':' text = some (front, back) → TransportKind.parse (trim front) = none

/-- The parts of a data source are trimmed, and none contains what would end it early. -/
structure Plain (d : DataSource) : Prop where
  host : Trimmed d.host.toList
  /-- There is a host. -/
  named : d.host.toList ≠ []
  /-- The local machine goes by its usual name. -/
  normal : normalHost d.host.toList = d.host.toList
  /-- The host ends before the first backslash. -/
  backslash : '\\' ∉ d.host.toList
  inst : ∀ i, d.inst = some i → Trimmed i.toList ∧ i.toList ≠ []
  /-- Without a port there is no comma. -/
  comma : d.port = none → ',' ∉ d.host.toList ∧ ∀ i, d.inst = some i → ',' ∉ i.toList
  /-- Without a transport none is named in the host. -/
  colon : d.transport = none → Unqualified d.host.toList

/-! ## What is read -/

theorem cutTransport_cases {t : Option TransportKind} (htext : Trimmed text) (h : cutTransport text = (t, rest)) :
    Trimmed rest ∧ (t = none → rest = text ∧ Unqualified text) := by
  unfold cutTransport at h
  split at h
  · rename_i hcut
    cases h
    refine ⟨htext, fun _ => ⟨rfl, fun front back hsome => ?_⟩⟩
    rw [hcut] at hsome
    cases hsome
  · rename_i front back hcut
    split at h
    · cases h
      exact ⟨trimmed_trim back, fun hnone => nomatch hnone⟩
    · rename_i hparse
      cases h
      refine ⟨htext, fun _ => ⟨rfl, fun front' back' hsome => ?_⟩⟩
      rw [hcut] at hsome
      cases hsome
      exact hparse

theorem cutPort_cases {port : Option UInt16} (htext : Trimmed text) (h : cutPort text = .ok (rest, port)) :
    Trimmed rest ∧ rest <+: text ∧ (port = none → ',' ∉ rest) := by
  unfold cutPort at h
  split at h
  · rename_i hcut
    cases h
    exact ⟨htext, List.prefix_rfl, fun _ => splitLast_eq_none_iff.mp hcut⟩
  · rename_i front back hcut
    split at h
    · cases h
      obtain ⟨rfl, -⟩ := eq_of_splitLast hcut
      exact ⟨trimmed_trim front, trim_isPrefix htext (List.prefix_append front _), fun hnone => nomatch hnone⟩
    · cases h

theorem cutInstance_cases {host : List Char} {inst : Option (List Char)} (htext : Trimmed text)
    (h : cutInstance text = (host, inst)) :
    Trimmed host ∧ host <+: text ∧ '\\' ∉ host ∧ ∀ i, inst = some i → Trimmed i ∧ i ≠ [] ∧ i ⊆ text := by
  unfold cutInstance at h
  split at h
  · rename_i hcut
    cases h
    exact ⟨htext, List.prefix_rfl, splitOnce_eq_none_iff.mp hcut, fun _ hnone => nomatch hnone⟩
  · rename_i front back hcut
    cases h
    obtain ⟨rfl, hfirst⟩ := splitOnce_eq_some_iff.mp hcut
    refine ⟨trimmed_trim front, trim_isPrefix htext (List.prefix_append front _),
      fun hmem => hfirst (trim_subset front hmem), fun i hi => ?_⟩
    split at hi
    · cases hi
    · rename_i hne
      cases hi
      have hback : back ≠ [] := fun hnil => hne (List.isEmpty_iff.mpr hnil)
      exact ⟨trimmed_trim back, trim_ne_nil htext hback,
        fun c hc => List.mem_append_right _ (List.mem_cons_of_mem _ (trim_subset back hc))⟩

theorem unqualified_of_isPrefix (h : front <+: text) (htext : Unqualified text) : Unqualified front := by
  intro before behind hcut
  obtain ⟨back, rfl⟩ := h
  exact htext before (behind ++ back) (splitOnce_append hcut back)

/-- What holds of a host, and of the usual name of the local machine, holds of the host as it is normally called. -/
theorem of_normalHost (P : List Char → Prop) {host : List Char} (h : P host) (hlocal : P "localhost".toList) :
    P (normalHost host) := by
  unfold normalHost
  split
  · exact hlocal
  · exact h

theorem normalHost_normalHost (host : List Char) : normalHost (normalHost host) = normalHost host := by
  by_cases hlocal : host = ['.'] ∨ sameLetters host "(local)".toList
  · rw [normalHost, normalHost, if_pos hlocal]
    decide
  · rw [normalHost, normalHost, if_neg hlocal, if_neg hlocal]

/-- Whatever has been read has plain parts. -/
theorem plain_of_parse (h : parse text = .ok d) : d.Plain := by
  have htext := trimmed_trim text
  unfold parse at h
  dsimp only at h
  rcases hcut : cutTransport (trim text) with ⟨transport, rest⟩
  rw [hcut] at h
  obtain ⟨hrest, hcolon⟩ := cutTransport_cases htext hcut
  obtain ⟨⟨body, port⟩, hport, h⟩ := Op.except_bind_eq_ok.mp h
  obtain ⟨hbody, hbodyRest, hcomma⟩ := cutPort_cases hrest hport
  dsimp only at h
  rcases hinst : cutInstance body with ⟨host, inst⟩
  rw [hinst] at h
  obtain ⟨hhost, hhostBody, hbackslash, hinst⟩ := cutInstance_cases hbody hinst
  dsimp only at h
  split at h
  · cases h
  rename_i hempty
  cases h
  have hnamed : host ≠ [] := fun hnil => hempty (List.isEmpty_iff.mpr hnil)
  have hchars : (String.ofList (normalHost host)).toList = normalHost host := String.toList_ofList
  have hread {i : String} (hi : inst.map String.ofList = some i) : inst = some i.toList := by
    obtain ⟨chars, hsome, rfl⟩ := Option.map_eq_some_iff.mp hi
    rw [hsome, String.toList_ofList]
  refine ⟨?_, ?_, ?_, ?_, fun i hi => ?_, fun hnone => ⟨?_, fun i hi => ?_⟩, fun hnone => ?_⟩
  · rw [hchars]
    exact of_normalHost Trimmed hhost (trimmed_of_all (by decide))
  · rw [hchars]
    exact of_normalHost (· ≠ []) hnamed (by decide)
  · rw [hchars]
    exact normalHost_normalHost host
  · rw [hchars]
    exact of_normalHost ('\\' ∉ ·) hbackslash (by decide)
  · obtain ⟨htrimmed, hne, -⟩ := hinst _ (hread hi)
    exact ⟨htrimmed, hne⟩
  · rw [hchars]
    exact of_normalHost (',' ∉ ·) (fun hmem => hcomma hnone (hhostBody.subset hmem)) (by decide)
  · obtain ⟨-, -, hsubset⟩ := hinst _ (hread hi)
    exact fun hmem => hcomma hnone (hsubset hmem)
  · obtain ⟨rfl, hunqualified⟩ := hcolon hnone
    have hlocal : splitOnce ':' "localhost".toList = none := by decide
    rw [hchars]
    refine of_normalHost Unqualified (unqualified_of_isPrefix (hhostBody.trans hbodyRest) hunqualified) ?_
    intro front back hcut
    rw [hlocal] at hcut
    cases hcut

/-! ## What is written -/

/-- The host with its instance. -/
def hostText (d : DataSource) : List Char := d.host.toList ++ d.inst.elim [] fun i => '\\' :: i.toList

/-- The port with the comma in front of it. -/
def portText (d : DataSource) : List Char := d.port.elim [] fun p => ',' :: Nat.toDigits 10 p.toNat

theorem toList_toText (d : DataSource) :
    d.toText.toList = (d.transport.elim [] fun t => t.toText.toList ++ [':']) ++ (d.hostText ++ d.portText) := by
  obtain ⟨transport, host, port, inst⟩ := d
  unfold toText hostText portText
  cases transport <;> cases inst <;> cases port <;> simp

theorem cutInstance_hostText (h : d.Plain) : cutInstance d.hostText = (d.host.toList, d.inst.map String.toList) := by
  unfold cutInstance hostText
  cases hinst : d.inst with
  | none =>
    have hcut : splitOnce '\\' d.host.toList = none := splitOnce_eq_none_iff.mpr h.backslash
    simp [hcut]
  | some i =>
    obtain ⟨htrimmed, hne⟩ := h.inst i hinst
    have hcut : splitOnce '\\' (d.host.toList ++ '\\' :: i.toList) = some (d.host.toList, i.toList) :=
      splitOnce_eq_some_iff.mpr ⟨rfl, h.backslash⟩
    simp [hcut, trim_eq_self h.host, trim_eq_self htrimmed, hne]

theorem trimmed_hostText (h : d.Plain) : Trimmed d.hostText := by
  refine h.host.append ?_
  cases hinst : d.inst with
  | none => exact trimmed_nil
  | some i => exact (h.inst i hinst).1.cons (by decide)

theorem trimmed_portText (d : DataSource) : Trimmed d.portText := by
  unfold portText
  cases d.port with
  | none => exact trimmed_nil
  | some p => exact (Numeral.trimmed_toDigits p.toNat).cons (by decide)

/-- The port is found behind the last comma. -/
theorem cutPort_body (h : d.Plain) : cutPort (d.hostText ++ d.portText) = .ok (d.hostText, d.port) := by
  unfold cutPort portText
  cases hport : d.port with
  | none =>
    obtain ⟨hhost, hinst⟩ := h.comma hport
    have hcomma : ',' ∉ d.hostText := by
      unfold hostText
      cases hi : d.inst with
      | none => simpa using hhost
      | some i => simpa [hhost] using hinst i hi
    simp [splitLast_eq_none_iff.mpr hcomma]
  | some p =>
    have hcut : splitLast ',' (d.hostText ++ ',' :: Nat.toDigits 10 p.toNat) =
        some (d.hostText, Nat.toDigits 10 p.toNat) :=
      splitLast_append_cons d.hostText (Numeral.not_mem_toDigits (by decide) p.toNat)
    have hparse : Numeral.parse 0xFFFF (trim (Nat.toDigits 10 p.toNat)) = some p.toNat := by
      rw [trim_eq_self (Numeral.trimmed_toDigits p.toNat)]
      exact Numeral.parse_toDigits (Nat.le_of_lt_succ p.toNat_lt)
    dsimp only [Option.elim]
    rw [hcut]
    dsimp only
    rw [hparse]
    dsimp only
    rw [trim_eq_self (trimmed_hostText h), UInt16.ofNat_toNat]

/-- No transport is named by what contains a backslash. -/
theorem parse_of_backslash (h : '\\' ∈ text) : TransportKind.parse text = none := by
  rcases hparse : TransportKind.parse text with _ | t
  · rfl
  · have hlower : '\\' ∈ lower text := List.mem_map.mpr ⟨'\\', h, by decide⟩
    rw [TransportKind.lower_of_parse hparse] at hlower
    cases t <;> exact absurd hlower (by decide)

/-- Without a transport none is found: the first colon stands in the host, or behind the backslash. -/
theorem unqualified_body (h : d.Plain) (hnone : d.transport = none) : Unqualified (d.hostText ++ d.portText) := by
  intro front back hcut
  by_cases hhost : ':' ∈ d.host.toList
  · obtain ⟨front', back', hcut'⟩ := exists_splitOnce hhost
    have hsame := splitOnce_append hcut' (d.inst.elim [] (fun i => '\\' :: i.toList) ++ d.portText)
    rw [← List.append_assoc] at hsame
    obtain rfl : front' = front := congrArg Prod.fst (Option.some.inj (hsame.symm.trans hcut))
    exact h.colon hnone front' back' hcut'
  · have hmem : ':' ∈ d.hostText ++ d.portText := by
      rw [(splitOnce_eq_some_iff.mp hcut).1]
      exact List.mem_append_right front List.mem_cons_self
    have hport : ':' ∉ d.portText := by
      unfold portText
      cases d.port with
      | none => exact List.not_mem_nil
      | some p => simpa using Numeral.not_mem_toDigits (by decide) p.toNat
    refine parse_of_backslash (mem_trim ?_ (by decide))
    unfold hostText at hcut hmem
    cases hinst : d.inst with
    | none =>
      -- Then there is no colon at all: a port has digits alone.
      rw [hinst] at hmem
      simp [hhost, hport] at hmem
    | some i =>
      rw [hinst] at hcut
      dsimp only [Option.elim] at hcut
      have hfront : d.host.toList ++ ['\\'] <+: front := by
        refine isPrefix_of_splitOnce hcut ⟨i.toList ++ d.portText, by simp⟩ ?_
        simp [hhost]
      exact hfront.subset (List.mem_append_right _ List.mem_cons_self)

/-- The transport is found in front of the first colon. -/
theorem cutTransport_toText (h : d.Plain) :
    cutTransport d.toText.toList = (d.transport, d.hostText ++ d.portText) := by
  have htrimmed := (trimmed_hostText h).append (trimmed_portText d)
  rw [toList_toText]
  unfold cutTransport
  cases htransport : d.transport with
  | none =>
    dsimp only [Option.elim, List.nil_append]
    split
    · rfl
    · rename_i front back hcut
      rw [unqualified_body h htransport front back hcut]
  | some t =>
    have hcut : splitOnce ':' (t.toText.toList ++ [':'] ++ (d.hostText ++ d.portText)) =
        some (t.toText.toList, d.hostText ++ d.portText) := by
      refine splitOnce_eq_some_iff.mpr ⟨?_, by cases t <;> decide⟩
      rw [List.append_assoc, List.singleton_append]
    have hparse : TransportKind.parse (trim t.toText.toList) = some t := by cases t <;> decide
    dsimp only [Option.elim]
    rw [hcut]
    dsimp only
    rw [hparse]
    dsimp only
    rw [trim_eq_self htrimmed]

theorem trimmed_toText (h : d.Plain) : Trimmed d.toText.toList := by
  rw [toList_toText]
  refine Trimmed.append ?_ ((trimmed_hostText h).append (trimmed_portText d))
  cases d.transport with
  | none => exact trimmed_nil
  | some t => cases t <;> exact trimmed_of_all (by decide)

/-- Plain parts are read as they have been written. -/
theorem parse_of_plain (h : d.Plain) : parse d.toText.toList = .ok d := by
  have hempty : d.host.toList.isEmpty = false := List.isEmpty_eq_false_iff.mpr h.named
  unfold parse
  dsimp only
  rw [trim_eq_self (trimmed_toText h), cutTransport_toText h]
  dsimp only
  rw [cutPort_body h]
  dsimp only [bind, Except.bind]
  rw [cutInstance_hostText h]
  dsimp only
  have hinst : (d.inst.map String.toList).map String.ofList = d.inst := by
    cases d.inst with
    | none => rfl
    | some i => exact congrArg some String.ofList_toList
  rw [hempty, h.normal, @String.ofList_toList d.host, hinst]
  rfl

/-- A data source that has been read is read again from how it is written, and no other that can be
read is written so. -/
theorem readAgain_same {text : List Char} {d : DataSource} (h : parse text = .ok d) :
    parse d.toText.toList = .ok d ∧
      ∀ other e, parse other = .ok e → e.toText = d.toText → e = d := by
  have hsame : parse d.toText.toList = .ok d := parse_of_plain (plain_of_parse h)
  refine ⟨hsame, fun other e hother htext => ?_⟩
  have he : parse e.toText.toList = .ok e := parse_of_plain (plain_of_parse hother)
  rw [htext, hsame] at he
  exact (Except.ok.inj he).symm

/-- Delimiters stand in the host and in the instance, and blanks of several kinds around every part. -/
theorem delimitersInParts_readAgain :
    ∃ d : DataSource,
      parse "\u3000Tcp : a:b,c\t\\ in,st \\x ,\u00A0+01433 ".toList = .ok d ∧
        d.toText = "tcp:a:b,c\\in,st \\x,1433" ∧ parse "tcp:a:b,c\\in,st \\x,1433".toList = .ok d := by
  have hread : parse "\u3000Tcp : a:b,c\t\\ in,st \\x ,\u00A0+01433 ".toList =
      .ok ⟨some .tcp, "a:b,c", some 1433, some "in,st \\x"⟩ := by rfl
  exact ⟨_, hread, by decide, (readAgain_same hread).1⟩

end DataSource

end TdsSession
