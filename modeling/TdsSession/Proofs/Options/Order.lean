import Mathlib.Data.List.Nodup
import TdsSession.Options.ConnectionString
import TdsSession.Proofs.Operation
import TdsSession.Proofs.Text.Trim

/-!
# The order of options

The parts of a connection string are read one by one into a draft
(`Config.ofConnectionString_eq`). Parts for different options can change places
(`ConfigDraft.takePart_comm`), and of the parts for one option the last one
overwrites all others (`ConfigDraft.takePart_takePart`). So the draft is made of
the last part for each option (`ConfigDraft.foldl_takePart_eq`), and the order of
the parts matters only among those that are for the same option
(`options_independent`).
-/

namespace TdsSession

/-! ## The parts of a connection string -/

/-- The parts of a connection string that are not blank, without the space around them. -/
def Config.parts (text : List Char) : List (List Char) :=
  ((Text.pieces ';' text).map Text.trim).filter fun part => !part.isEmpty

namespace SettingKey

/-- All options that a connection string can set. -/
def all : List SettingKey :=
  [.server, .partner, .database, .user, .password, .method, .timeout, .multiSubnet, .readOnly, .language, .packetSize,
    .recoveries, .recoveryPause, .encrypt, .mars, .application, .workstation, .serverSpn, .version]

theorem mem_all (k : SettingKey) : k ∈ all := by cases k <;> decide

theorem nodup_all : all.Nodup := by decide

/-- An option stands once among all of them. -/
theorem exists_split (k : SettingKey) : ∃ front back, all = front ++ k :: back ∧ k ∉ front ∧ k ∉ back := by
  obtain ⟨front, back, hsplit⟩ := List.append_of_mem (mem_all k)
  have hnodup := List.nodup_middle.mp (hsplit ▸ nodup_all)
  rw [List.nodup_cons, List.mem_append, not_or] at hnodup
  exact ⟨front, back, hsplit, hnodup.1.1, hnodup.1.2⟩

end SettingKey

namespace Setting

/-- The option that a setting is for. -/
def key : Setting → SettingKey
  | .server _ => .server
  | .partner _ => .partner
  | .database _ => .database
  | .user _ => .user
  | .password _ => .password
  | .method _ => .method
  | .timeout _ => .timeout
  | .multiSubnet _ => .multiSubnet
  | .readOnly _ => .readOnly
  | .language _ => .language
  | .packetSize _ => .packetSize
  | .recoveries _ => .recoveries
  | .recoveryPause _ => .recoveryPause
  | .encrypt _ => .encrypt
  | .mars _ => .mars
  | .application _ => .application
  | .workstation _ => .workstation
  | .serverSpn _ => .serverSpn
  | .version _ => .version

/-- The option that a part names, by any of its keys. -/
def named? (part : List Char) : Option SettingKey :=
  (Text.splitOnce '=' (Text.trim part)).bind fun p => SettingKey.parse (String.ofList (Text.foldKey (Text.trim p.1)))

/-- The part has a key, which is that of no option. -/
def hasUnknownKey (part : List Char) : Bool :=
  (Text.splitOnce '=' (Text.trim part)).isSome && (named? part).isNone

theorem ofPart_trim (part : List Char) : ofPart (Text.trim part) = ofPart part := by
  unfold ofPart
  rw [Text.trim_eq_self (Text.trimmed_trim part)]

theorem ofPart_blank {part : List Char} (h : (Text.trim part).isEmpty = true) : ofPart part = .ok none := by
  unfold ofPart
  dsimp only
  rw [if_pos h]

theorem ofPart_hasUnknownKey {part : List Char} (h : hasUnknownKey part = true) : ofPart part = .ok none := by
  unfold hasUnknownKey named? at h
  unfold ofPart
  dsimp only
  split
  · rfl
  rcases hsplit : Text.splitOnce '=' (Text.trim part) with _ | ⟨key, value⟩ <;> rw [hsplit] at h
  · cases h
  dsimp only at h ⊢
  rcases hkey : SettingKey.parse (String.ofList (Text.foldKey (Text.trim key))) with _ | k
  · rfl
  · simp [hkey] at h

theorem key_of_ofKey {key : String} {value : List Char} {k : SettingKey} {s : Setting} (h : ofKey key value k = .ok s) :
    s.key = k := by
  cases k with
  | partner =>
    simp only [ofKey] at h
    split at h
    · cases h
      rfl
    · rcases hread : DataSource.parse value with e | source <;> rw [hread] at h <;> cases h
      rfl
  | method =>
    simp only [ofKey] at h
    split at h <;> cases h
    rfl
  | _ =>
    simp only [ofKey, Functor.map, Except.map] at h
    first
    | cases h
      rfl
    | split at h <;> cases h
      rfl

/-- A part that can be read sets the option that it names, and nothing if it names none. -/
theorem named?_of_ofPart {part : List Char} {setting : Option Setting} (h : ofPart part = .ok setting) :
    named? part = setting.map key := by
  unfold ofPart at h
  unfold named?
  dsimp only at h
  split at h
  · rename_i hblank
    cases h
    rw [List.isEmpty_iff.mp hblank]
    rfl
  rcases hsplit : Text.splitOnce '=' (Text.trim part) with _ | ⟨key, value⟩ <;> rw [hsplit] at h
  · cases h
  dsimp only [Option.bind_some] at h ⊢
  rcases hkey : SettingKey.parse (String.ofList (Text.foldKey (Text.trim key))) with _ | k <;> rw [hkey] at h <;>
    dsimp only at h
  · cases h
    rfl
  rcases hread : ofKey (String.ofList (Text.foldKey (Text.trim key))) (Text.trim value) k with e | s <;>
    rw [hread] at h <;> cases h
  rw [Option.map_some, key_of_ofKey hread]

end Setting

open Setting

namespace ConfigDraft

/-! ## One part -/

/-- Settings of different options do not touch each other. -/
theorem apply_comm {s t : Setting} (h : s.key ≠ t.key) (d : ConfigDraft) :
    (d.apply s).apply t = (d.apply t).apply s := by
  cases s <;> cases t <;> first | exact absurd rfl h | rfl

/-- A setting overwrites one of the same option. -/
theorem apply_apply {s t : Setting} (h : s.key = t.key) (d : ConfigDraft) : (d.apply s).apply t = d.apply t := by
  cases s <;> cases t <;> first | rfl | nomatch h

variable {part part' : List Char} {k : SettingKey}

/-- The draft with what a part sets, if it can be read and sets something. -/
def takePart (d : ConfigDraft) (part : List Char) : ConfigDraft :=
  match ofPart part with
  | .ok (some s) => d.apply s
  | _ => d

theorem takePart_of_setting {s : Setting} (h : ofPart part = .ok (some s)) (d : ConfigDraft) :
    d.takePart part = d.apply s := by
  rw [takePart, h]

/-- Nothing is set by a part that names no option. -/
theorem takePart_of_unnamed (h : named? part = none) (d : ConfigDraft) : d.takePart part = d := by
  unfold takePart
  split
  · rename_i s hs
    rw [named?_of_ofPart hs] at h
    cases h
  · rfl

/-- Parts that name different options can change places. -/
theorem takePart_comm (h : named? part ≠ named? part') (d : ConfigDraft) :
    (d.takePart part).takePart part' = (d.takePart part').takePart part := by
  unfold takePart
  rcases hs : ofPart part with e | _ | s
  · rfl
  · rfl
  rcases ht : ofPart part' with e | _ | t
  · rfl
  · rfl
  rw [named?_of_ofPart hs, named?_of_ofPart ht, Option.map_some, Option.map_some, ne_eq, Option.some_inj] at h
  exact apply_comm h d

/-- A part that can be read overwrites another one that names the same option. -/
theorem takePart_takePart (hread : (ofPart part').isOk) (h : named? part = named? part') (d : ConfigDraft) :
    (d.takePart part).takePart part' = d.takePart part' := by
  rcases ht : ofPart part' with e | _ | t
  · rw [ht] at hread
    cases hread
  · rw [takePart_of_unnamed (h.trans (named?_of_ofPart ht))]
  · rw [takePart_of_setting ht, takePart_of_setting ht]
    rcases hs : ofPart part with e | _ | s
    · rw [takePart, hs]
    · rw [takePart, hs]
    · rw [named?_of_ofPart hs, named?_of_ofPart ht, Option.map_some, Option.map_some, Option.some_inj] at h
      rw [takePart_of_setting hs]
      exact apply_apply h d

/-! ## The last part for each option -/

/-- The last of the parts that name an option. -/
def lastNaming (parts : List (List Char)) (k : SettingKey) : Option (List Char) :=
  (parts.filter fun part => named? part = some k).getLast?

theorem lastNaming_cons (part : List Char) (parts : List (List Char)) (k : SettingKey) :
    lastNaming (part :: parts) k = (lastNaming parts k).or (if named? part = some k then some part else none) := by
  unfold lastNaming
  by_cases h : named? part = some k
  · rw [List.filter_cons_of_pos (by simpa using h), List.getLast?_cons, if_pos h]
    cases (parts.filter fun part => named? part = some k).getLast? <;> rfl
  · rw [List.filter_cons_of_neg (by simpa using h), if_neg h, Option.or_none]

theorem of_lastNaming {parts : List (List Char)} (h : lastNaming parts k = some part) :
    part ∈ parts ∧ named? part = some k := by
  have hmem := List.mem_filter.mp (List.mem_of_getLast? h)
  exact ⟨hmem.1, of_decide_eq_true hmem.2⟩

theorem foldl_takePart_comm {parts : List (List Char)} (h : ∀ part' ∈ parts, named? part ≠ named? part')
    (d : ConfigDraft) : parts.foldl takePart (d.takePart part) = (parts.foldl takePart d).takePart part := by
  induction parts generalizing d with
  | nil => rfl
  | cons part' parts ih =>
    rw [List.foldl_cons, List.foldl_cons, takePart_comm (h part' List.mem_cons_self),
      ih fun part'' hmem => h part'' (List.mem_cons_of_mem _ hmem)]

/-- What is chosen for other options does not name this one. -/
theorem ne_of_mem_lastNaming {parts : List (List Char)} {keys : List SettingKey} (hk : k ∉ keys)
    (hpart : named? part = some k) (hmem : part' ∈ keys.filterMap (lastNaming parts)) :
    named? part ≠ named? part' := by
  obtain ⟨k', hk', hlast⟩ := List.mem_filterMap.mp hmem
  rw [hpart, (of_lastNaming hlast).2, ne_eq, Option.some_inj]
  exact fun heq => hk (heq ▸ hk')

/-- A part changes the choice for the option that it names only. -/
theorem filterMap_lastNaming_cons {parts : List (List Char)} {keys : List SettingKey}
    (h : ∀ k ∈ keys, named? part ≠ some k) :
    keys.filterMap (lastNaming (part :: parts)) = keys.filterMap (lastNaming parts) := by
  refine List.filterMap_congr fun k hk => ?_
  rw [lastNaming_cons, if_neg (h k hk), Option.or_none]

/-- Parts that can be read make the same draft as the last of them for each option. -/
theorem foldl_takePart_eq {parts : List (List Char)} (hread : ∀ part ∈ parts, (ofPart part).isOk)
    (d : ConfigDraft) :
    parts.foldl takePart d = (SettingKey.all.filterMap (lastNaming parts)).foldl takePart d := by
  induction parts generalizing d with
  | nil => rfl
  | cons part parts ih =>
    rw [List.foldl_cons, ih fun part' hmem => hread part' (List.mem_cons_of_mem _ hmem)]
    rcases hpart : named? part with _ | k
    · rw [takePart_of_unnamed hpart, filterMap_lastNaming_cons fun k _ => hpart ▸ nofun]
    -- the part moves past the choices that stand before its own option
    obtain ⟨front, back, hsplit, hfront, hback⟩ := SettingKey.exists_split k
    have hother : ∀ keys : List SettingKey, k ∉ keys → ∀ k' ∈ keys, named? part ≠ some k' := fun keys hk k' hk' heq =>
      hk (Option.some_inj.mp (hpart.symm.trans heq) ▸ hk')
    rw [hsplit, List.filterMap_append, List.filterMap_append, List.filterMap_cons, List.filterMap_cons,
      filterMap_lastNaming_cons (hother front hfront), filterMap_lastNaming_cons (hother back hback),
      List.foldl_append, List.foldl_append,
      foldl_takePart_comm fun part' hmem => ne_of_mem_lastNaming hfront hpart hmem, lastNaming_cons, if_pos hpart]
    rcases hlast : lastNaming parts k with _ | part'
    · rfl
    · obtain ⟨hmem, hnamed⟩ := of_lastNaming hlast
      rw [Option.some_or, List.foldl_cons,
        takePart_takePart (hread part' (List.mem_cons_of_mem _ hmem)) (hpart.trans hnamed.symm)]
      rfl

/-- The last part for an option is in force, as if nothing came after it. -/
theorem exists_takePart_last {parts : List (List Char)} (hread : ∀ part ∈ parts, (ofPart part).isOk)
    (hlast : lastNaming parts k = some part) (d : ConfigDraft) :
    ∃ d' : ConfigDraft, parts.foldl takePart d = d'.takePart part := by
  obtain ⟨front, back, hsplit, -, hback⟩ := SettingKey.exists_split k
  have hafter : ∀ part' ∈ back.filterMap (lastNaming parts), named? part ≠ named? part' := fun part' hmem =>
    ne_of_mem_lastNaming hback (of_lastNaming hlast).2 hmem
  refine ⟨(back.filterMap (lastNaming parts)).foldl takePart
    ((front.filterMap (lastNaming parts)).foldl takePart d), ?_⟩
  rw [foldl_takePart_eq hread, hsplit, List.filterMap_append, List.filterMap_cons, hlast, List.foldl_append,
    List.foldl_cons, foldl_takePart_comm hafter]

/-! ## Reading a connection string part by part -/

/-- The draft with what a part sets. -/
def readPart (d : ConfigDraft) (part : List Char) : Except Error ConfigDraft :=
  (ofPart part).map fun s => (s.map d.apply).getD d

theorem readPart_of_readable (h : (ofPart part).isOk) (d : ConfigDraft) : d.readPart part = .ok (d.takePart part) := by
  unfold readPart takePart
  rcases hs : ofPart part with e | _ | s
  · rw [hs] at h
    cases h
  · rfl
  · rfl

theorem foldlM_readPart_of_readable {parts : List (List Char)} (h : ∀ part ∈ parts, (ofPart part).isOk)
    (d : ConfigDraft) : parts.foldlM readPart d = .ok (parts.foldl takePart d) := by
  induction parts generalizing d with
  | nil => rfl
  | cons part parts ih =>
    rw [List.foldlM_cons, readPart_of_readable (h part List.mem_cons_self)]
    exact ih (fun part' hmem => h part' (List.mem_cons_of_mem _ hmem)) _

/-- A part that cannot be read fails the whole text. -/
theorem readable_of_foldlM {parts : List (List Char)} {d d' : ConfigDraft} (h : parts.foldlM readPart d = .ok d') :
    ∀ part ∈ parts, (ofPart part).isOk := by
  induction parts generalizing d with
  | nil => nofun
  | cons part parts ih =>
    rw [List.foldlM_cons] at h
    obtain ⟨d₁, hpart, hrest⟩ := Op.except_bind_eq_ok.mp h
    refine List.forall_mem_cons.mpr ⟨?_, ih hrest⟩
    unfold readPart at hpart
    rcases hs : ofPart part with e | s
    · rw [hs] at hpart
      cases hpart
    · rfl

/-- Parts that set nothing can be left out. -/
theorem foldlM_readPart_filter {parts : List (List Char)} {keep : List Char → Bool}
    (h : ∀ part ∈ parts, keep part = false → ofPart part = .ok none) (d : ConfigDraft) :
    (parts.filter keep).foldlM readPart d = parts.foldlM readPart d := by
  induction parts generalizing d with
  | nil => rfl
  | cons part parts ih =>
    have hrest := List.forall_mem_cons.mp h
    rcases hkeep : keep part with _ | _
    · have hskip : d.readPart part = .ok d := by
        rw [readPart, hrest.1 hkeep]
        rfl
      rw [List.filter_cons_of_neg (by simp [hkeep]), List.foldlM_cons, hskip, ih hrest.2]
      rfl
    · rw [List.filter_cons_of_pos hkeep, List.foldlM_cons, List.foldlM_cons]
      exact congrArg _ (funext fun d' => ih hrest.2 d')

theorem foldlM_readPart_eq (parts : List (List Char)) (d : ConfigDraft) :
    parts.foldlM readPart d = (parts.mapM ofPart).map fun settings => (settings.filterMap id).foldl apply d := by
  induction parts generalizing d with
  | nil => rfl
  | cons part parts ih =>
    rw [List.foldlM_cons, List.mapM_cons]
    unfold readPart
    rcases ofPart part with e | s
    · rfl
    rcases hrest : parts.mapM ofPart with e | settings
    · show parts.foldlM readPart _ = _
      rw [ih, hrest]
      rfl
    · show parts.foldlM readPart _ = _
      rw [ih, hrest]
      cases s <;> rfl

end ConfigDraft

namespace Config

open ConfigDraft

/-- The parts are read one by one, and the credentials come last. -/
theorem ofConnectionString_eq (text : List Char) :
    ofConnectionString text = (parts text).foldlM readPart {} >>= finish := by
  have hread : (readPart · <| Text.trim ·) = readPart := by
    funext d part
    rw [readPart, ofPart_trim, readPart]
  have hblank : ∀ part ∈ (Text.pieces ';' text).map Text.trim, (!part.isEmpty) = false → ofPart part = .ok none := by
    intro part hmem hempty
    obtain ⟨piece, -, rfl⟩ := List.mem_map.mp hmem
    rw [ofPart_trim]
    exact ofPart_blank (by simpa using hempty)
  rw [parts, foldlM_readPart_filter hblank, List.foldlM_map, hread, foldlM_readPart_eq]
  unfold ofConnectionString
  rcases (Text.pieces ';' text).mapM ofPart with e | settings <;> rfl

/-- A connection string that is accepted has only parts that can be read, and they make its draft. -/
theorem ofConnectionString_eq_ok {text : List Char} {c : Config} (h : ofConnectionString text = .ok c) :
    (∀ part ∈ parts text, (ofPart part).isOk) ∧ ((parts text).foldl takePart {}).finish = .ok c := by
  rw [ofConnectionString_eq] at h
  obtain ⟨d, hdraft, hfinish⟩ := Op.except_bind_eq_ok.mp h
  have hread := readable_of_foldlM hdraft
  rw [foldlM_readPart_of_readable hread, Except.ok.injEq] at hdraft
  exact ⟨hread, hdraft ▸ hfinish⟩

theorem ofConnectionString_of_readable {text : List Char} (h : ∀ part ∈ parts text, (ofPart part).isOk) :
    ofConnectionString text = ((parts text).foldl takePart {}).finish := by
  rw [ofConnectionString_eq, foldlM_readPart_of_readable h]
  rfl

/-- What is accepted is decided by the last part for each option. -/
theorem ofConnectionString_of_lastNaming {text text' : List Char} {c : Config} (h : ofConnectionString text = .ok c)
    (hsub : parts text' ⊆ parts text) (hlast : lastNaming (parts text') = lastNaming (parts text)) :
    ofConnectionString text' = .ok c := by
  obtain ⟨hread, hfinish⟩ := ofConnectionString_eq_ok h
  have hread' : ∀ part ∈ parts text', (ofPart part).isOk := fun part hmem => hread part (hsub hmem)
  rw [ofConnectionString_of_readable hread', foldl_takePart_eq hread', hlast, ← foldl_takePart_eq hread, hfinish]

/-- The same parts in another order, in which parts for the same option have kept theirs. -/
structure Reordered (parts parts' : List (List Char)) : Prop where
  perm : parts.Perm parts'
  order : ∀ k : SettingKey, parts.filter (named? · = some k) = parts'.filter (named? · = some k)

theorem Reordered.symm {parts parts' : List (List Char)} (h : Reordered parts parts') : Reordered parts' parts :=
  ⟨h.perm.symm, fun k => (h.order k).symm⟩

theorem Reordered.lastNaming_eq {parts parts' : List (List Char)} (h : Reordered parts parts') :
    lastNaming parts' = lastNaming parts := by
  funext k
  rw [lastNaming, lastNaming, h.order]

/-- A text with reordered parts is accepted too, with the same options. -/
theorem ofConnectionString_of_reordered {text text' : List Char} (hparts : Reordered (parts text) (parts text'))
    {c : Config} (h : ofConnectionString text = .ok c) : ofConnectionString text' = .ok c :=
  ofConnectionString_of_lastNaming h hparts.symm.perm.subset hparts.lastNaming_eq

/-- The draft of what is accepted has the value of the last part for each option. -/
theorem exists_draft {text : List Char} {c : Config} (h : ofConnectionString text = .ok c) :
    ∃ d : ConfigDraft, d.finish = .ok c ∧ ∀ k part, lastNaming (parts text) k = some part →
      ∃ s, ofPart part = .ok (some s) ∧ s.key = k ∧ d.apply s = d := by
  obtain ⟨hread, hfinish⟩ := ofConnectionString_eq_ok h
  refine ⟨_, hfinish, fun k part hlast => ?_⟩
  obtain ⟨hmem, hnamed⟩ := of_lastNaming hlast
  rcases hs : ofPart part with e | _ | s
  · have hok := hread part hmem
    rw [hs] at hok
    cases hok
  · rw [named?_of_ofPart hs] at hnamed
    cases hnamed
  · obtain ⟨d', hdraft⟩ := exists_takePart_last hread hlast {}
    refine ⟨s, rfl, Option.some_inj.mp ((named?_of_ofPart hs).symm.trans hnamed), ?_⟩
    rw [hdraft, takePart_of_setting hs, apply_apply rfl]

/-- Parts with a key that no option has can stand anywhere. -/
theorem ofConnectionString_of_unknownKeys {text text' : List Char}
    (h : (parts text').filter (!hasUnknownKey ·) = (parts text).filter (!hasUnknownKey ·)) :
    ofConnectionString text' = ofConnectionString text := by
  have hskip : ∀ ps : List (List Char), (ps.filter (!hasUnknownKey ·)).foldlM readPart {} = ps.foldlM readPart {} :=
    fun ps => foldlM_readPart_filter (fun part _ hkey => ofPart_hasUnknownKey (by simpa using hkey)) {}
  rw [ofConnectionString_eq, ofConnectionString_eq, ← hskip, h, hskip]

/--
Parts for different options can change places: both texts are then accepted, with the same options, or neither
is. In a text that is accepted the last part for an option gives its value, so all else can be left out or
repeated before it. Parts with unknown keys can stand anywhere.
-/
theorem options_independent (text text' : List Char) :
    (Reordered (parts text) (parts text') →
      (ofConnectionString text).toOption = (ofConnectionString text').toOption) ∧
    (∀ c, ofConnectionString text = .ok c →
      (∃ d : ConfigDraft, d.finish = .ok c ∧ ∀ k part, lastNaming (parts text) k = some part →
        ∃ s, ofPart part = .ok (some s) ∧ s.key = k ∧ d.apply s = d) ∧
      (parts text' ⊆ parts text → lastNaming (parts text') = lastNaming (parts text) →
        ofConnectionString text' = .ok c)) ∧
    ((parts text').filter (!hasUnknownKey ·) = (parts text).filter (!hasUnknownKey ·) →
      ofConnectionString text' = ofConnectionString text) := by
  refine ⟨fun hparts => ?_, fun c h => ⟨exists_draft h, ofConnectionString_of_lastNaming h⟩,
    ofConnectionString_of_unknownKeys⟩
  rcases h : ofConnectionString text with e | c
  · rcases h' : ofConnectionString text' with e' | c'
    · rfl
    · rw [ofConnectionString_of_reordered hparts.symm h'] at h
      cases h
  · rw [ofConnectionString_of_reordered hparts h]

/-- Two names of the server are one option: the later one decides, wherever the database stands. -/
theorem serverNames_order :
    let text := "Server=a;Database=x;Addr=b".toList
    let moved := "Database=x; ;Server=a;Addr=b".toList
    let short := "Addr=b;Database=x".toList
    let long := "Server=a;Pooling=1;Database=x;Addr=b;Wrap=".toList
    (ofConnectionString text).toOption = (ofConnectionString moved).toOption ∧
    (∃ c, ofConnectionString text = .ok c ∧ c.server.host = "b" ∧ ofConnectionString short = .ok c) ∧
    ofConnectionString long = ofConnectionString text := by
  intro text moved short long
  have horder : ∀ k ∈ SettingKey.all,
      (parts text).filter (named? · = some k) = (parts moved).filter (named? · = some k) := by decide +kernel
  have hlast : ∀ k ∈ SettingKey.all, lastNaming (parts short) k = lastNaming (parts text) k := by decide +kernel
  have hhost : (ofConnectionString text).toOption.map (·.server.host) = some "b" := by decide +kernel
  obtain ⟨c, hc, hb⟩ := Option.map_eq_some_iff.mp hhost
  have htext : ofConnectionString text = .ok c := by
    rcases h : ofConnectionString text with e | c' <;> rw [h] at hc <;> cases hc
    rfl
  exact ⟨(options_independent text moved).1 ⟨by decide +kernel, fun k => horder k k.mem_all⟩,
    ⟨c, htext, hb, ((options_independent text short).2.1 c htext).2 (by decide +kernel)
      (funext fun k => hlast k k.mem_all)⟩,
    (options_independent text long).2.2 (by decide +kernel)⟩

end Config

end TdsSession
