import Mathlib.Data.List.Forall2
import TdsSession.Login.Response
import TdsSession.Proofs.Wire.Capabilities
import TdsSession.Proofs.Wire.Extent

/-!
# The list of acknowledged features

A list of features is read from one block of bytes for each of them and the
identifier that ends it (`Listed`), and from nothing else (`readList_eq_ok_iff`).
A payload may hold any bytes, that identifier too, because its block says how long
it is. A feature with the identifier of the end is refused for a reason of its
own, which never arises from a list that has been read (`features_listed`).
-/

namespace TdsSession

/-! ## Blocks -/

namespace FeatureAck

variable {a : FeatureAck} {acks : List FeatureAck} {blocks : List Bytes} {block data rest : Bytes}

/-- The bytes of one feature in a list: its identifier, which does not end a list, four bytes with the length of its
payload, and the payload. -/
inductive Block : FeatureAck → Bytes → Prop
  | mk {id : UInt8} {word payload : Bytes} (hid : id ≠ terminator) (hword : word.length = 4)
      (hlength : Bytes.ofLittleEndian word = payload.length) : Block ⟨id, payload⟩ (id :: (word ++ payload))

/-- The data are one block for each of the features, in their order, and behind the identifier that ends the list
come the bytes `rest`. -/
def Listed (acks : List FeatureAck) (rest data : Bytes) : Prop :=
  ∃ blocks : List Bytes, List.Forall₂ Block acks blocks ∧ data = blocks.flatten ++ terminator :: rest

/-- A feature has a block if its identifier does not end a list and its length can be expressed, and one only. -/
theorem block_iff : Block a block ↔ (a.id ≠ terminator ∧ a.payload.length < UInt32.size) ∧ block = a.write := by
  constructor
  · rintro ⟨hid, hword, hlength⟩
    rename_i word payload
    have hlt : Bytes.ofLittleEndian word < Nat.pow 256 4 := hword ▸ Bytes.ofLittleEndian_lt word
    have hwritten : Bytes.littleEndian 4 payload.length = word := by
      rw [← hlength, ← hword, Bytes.littleEndian_ofLittleEndian]
    refine ⟨⟨hid, hlength ▸ hlt⟩, ?_⟩
    rw [write, hwritten]
    rfl
  · rintro ⟨⟨hid, hlt⟩, rfl⟩
    have hlength : Bytes.ofLittleEndian (Bytes.littleEndian 4 a.payload.length) = a.payload.length := by
      rw [Bytes.ofLittleEndian_littleEndian]
      exact Nat.mod_eq_of_lt hlt
    exact .mk hid (Bytes.length_littleEndian 4 _) hlength

theorem forall₂_block_iff : List.Forall₂ Block acks blocks ↔
    (∀ a ∈ acks, a.id ≠ terminator ∧ a.payload.length < UInt32.size) ∧ blocks = acks.map write := by
  induction acks generalizing blocks with
  | nil =>
    rw [List.forall₂_nil_left_iff]
    simp
  | cons a acks ih =>
    rw [List.forall₂_cons_left_iff]
    constructor
    · rintro ⟨block, blocks, hblock, hblocks, rfl⟩
      obtain ⟨ha, rfl⟩ := block_iff.mp hblock
      obtain ⟨hacks, rfl⟩ := ih.mp hblocks
      exact ⟨List.forall_mem_cons.mpr ⟨ha, hacks⟩, rfl⟩
    · rintro ⟨h, rfl⟩
      obtain ⟨ha, hacks⟩ := List.forall_mem_cons.mp h
      exact ⟨a.write, acks.map write, block_iff.mpr ⟨ha, rfl⟩, ih.mpr ⟨hacks, rfl⟩, rfl⟩

theorem listed_iff : Listed acks rest data ↔
    (∀ a ∈ acks, a.id ≠ terminator ∧ a.payload.length < UInt32.size) ∧ data = writeList acks ++ rest := by
  have hwrite : writeList acks ++ rest = (acks.map write).flatten ++ terminator :: rest := by
    rw [writeList, List.append_assoc, List.flatMap_def, List.singleton_append]
  rw [hwrite]
  constructor
  · rintro ⟨blocks, hblocks, hdata⟩
    obtain ⟨hacks, rfl⟩ := forall₂_block_iff.mp hblocks
    exact ⟨hacks, hdata⟩
  · rintro ⟨hacks, hdata⟩
    exact ⟨acks.map write, forall₂_block_iff.mpr ⟨hacks, rfl⟩, hdata⟩

/-- Features are read from their blocks, and from nothing else. -/
theorem readList_eq_ok_iff : readList data = .ok (acks, rest) ↔ Listed acks rest data := by
  rw [listed_iff]
  constructor
  · intro h
    obtain ⟨hdata, hacks⟩ := readList_eq_ok h
    exact ⟨hacks, hdata⟩
  · rintro ⟨hacks, rfl⟩
    exact reads_writeList hacks rest

/-- No feature that has been read is the one that ends a list. -/
theorem ofId?_ne_terminator (h : Listed acks rest data) (ha : a ∈ acks) :
    Feature.ofId? a.id ≠ some .terminator := by
  intro hid
  exact ((listed_iff.mp h).1 a ha).1 (Feature.eq_id_of_ofId? hid)

end FeatureAck

/-! ## Faults of features -/

/-- The identifier of the feature that a refusal is about, if it is about one. -/
def ProtocolError.feature? : ProtocolError → Option UInt8
  | .featureLength feature _ _ => some feature
  | .malformedFeature feature _ => some feature
  | .unrequestedFeature feature => some feature
  | .unsupportedFeatureVersion feature _ => some feature.id
  | _ => none

/-- If `m` is refused, then for a reason that satisfies `P`. -/
def RefusedFor {α : Type} (P : ProtocolError → Prop) (m : Except ProtocolError α) : Prop :=
  ∀ e, m = .error e → P e

namespace RefusedFor

variable {α β : Type} {P Q : ProtocolError → Prop} {m : Except ProtocolError α} {f : α → Except ProtocolError β}

theorem ok (a : α) : RefusedFor P (.ok a) := fun _ h => nomatch h

theorem error {e : ProtocolError} (h : P e) : RefusedFor P (.error e : Except ProtocolError α) := by
  rintro _ ⟨⟩
  exact h

theorem bind (h : RefusedFor P m) (hf : ∀ a, RefusedFor P (f a)) : RefusedFor P (m >>= f) := by
  intro e he
  cases m with
  | error e' =>
    cases he
    exact h _ rfl
  | ok a => exact hf a e he

theorem mono (h : RefusedFor P m) (hPQ : ∀ e, P e → Q e) : RefusedFor Q m := fun e he => hPQ e (h e he)

end RefusedFor

/-- The refusal is about the feature with the given identifier, or about none. -/
def ProtocolError.Concerns (id : UInt8) (e : ProtocolError) : Prop := e.feature? = none ∨ e.feature? = some id

theorem StateRecord.readAll_refusedFor (data : Bytes) : RefusedFor (·.feature? = none) (readAll data) := by
  have hvalue {slot : UInt8} {n : Nat} {rest : Bytes} : RefusedFor (·.feature? = none) (read.value slot n rest) := by
    unfold read.value
    split
    · exact .ok _
    · exact .error rfl
  have hread (data : Bytes) : RefusedFor (·.feature? = none) (read data) := by
    unfold read
    split
    · split
      · split
        · exact hvalue
        · exact .error rfl
      · exact hvalue
    · exact .error rfl
  have hscan (data : Bytes) : ∀ e, (scan data).2 = some e → e.feature? = none := by
    fun_induction scan data with
    | case1 => exact fun e h => nomatch h
    | case2 data _ e he =>
      rintro _ ⟨⟩
      exact hread data e he
    | case3 data _ r rest _ rs e hscan ih =>
      rw [hscan] at ih
      exact ih
  unfold readAll
  split
  · exact .ok _
  · rename_i rs e h
    exact .error (hscan data e (by rw [h]))

namespace FeatureAck

theorem readList_refusedFor (data : Bytes) : RefusedFor (·.feature? = none) (readList data) := by
  have hfield (n : Nat) (data : Bytes) : RefusedFor (·.feature? = none) (Reader.field n data) := by
    unfold Reader.field
    split
    · exact .ok _
    · exact .error rfl
  have htake (n : Nat) (data : Bytes) : RefusedFor (·.feature? = none) (Reader.take n data) := by
    unfold Reader.take
    split
    · exact .ok _
    · exact .error rfl
  have hpayload (data : Bytes) : RefusedFor (·.feature? = none) (readPayload data) :=
    ((hfield 4 data).bind fun _ => .ok _).bind fun p => htake p.1.toNat p.2
  fun_induction readList data with
  | case1 => exact .error rfl
  | case2 => exact .ok _
  | case3 id data _ e he => exact .error (hpayload data e he)
  | case4 id data _ payload rest _ e he ih => exact .error (ih e he)
  | case5 => exact .ok _

end FeatureAck

namespace Capabilities

variable {f : Feature} {payload : Bytes}

theorem requireRequested_refusedFor (c : Capabilities) : RefusedFor (·.Concerns f.id) (c.requireRequested f) := by
  unfold requireRequested
  split
  · exact .ok _
  · exact .error (.inr rfl)

theorem firstByte_refusedFor : RefusedFor (·.Concerns f.id) (firstByte f payload) := by
  unfold firstByte
  split
  · exact .ok _
  · exact .error (.inr rfl)

theorem onlyByte_refusedFor : RefusedFor (·.Concerns f.id) (onlyByte f payload) := by
  unfold onlyByte
  split
  · exact .ok _
  · exact .error (.inr rfl)

theorem requireVersion_refusedFor {v : UInt8} : RefusedFor (·.Concerns f.id) (requireVersion f v) := by
  unfold requireVersion
  split
  · exact .error (.inr rfl)
  · exact .ok _

theorem versionOrAbsent_refusedFor : RefusedFor (·.Concerns f.id) (versionOrAbsent f payload) := by
  refine onlyByte_refusedFor.bind fun v => ?_
  split
  · exact .ok _
  · exact requireVersion_refusedFor.bind fun _ => .ok _

theorem readEnclave_refusedFor :
    RefusedFor (·.Concerns Feature.columnEncryption.id) (readEnclave payload) := by
  unfold readEnclave
  dsimp only
  split
  · exact .ok _
  · split
    · exact .ok _
    · exact .error (.inr rfl)

/-- A payload is refused for a reason that is about its own feature, or about none. -/
theorem acceptKnown_refusedFor (c : Capabilities) (f : Feature) (payload : Bytes) :
    RefusedFor (·.Concerns f.id) (c.acceptKnown f payload) := by
  unfold acceptKnown
  cases f with
  | sessionRecovery =>
    refine (requireRequested_refusedFor c).bind fun _ => ?_
    exact ((StateRecord.readAll_refusedFor payload).mono fun _ => .inl).bind fun _ => .ok _
  | fedAuth =>
    refine (requireRequested_refusedFor c).bind fun _ => ?_
    split
    · exact .ok _
    · exact .error (.inr rfl)
  | columnEncryption =>
    refine firstByte_refusedFor.bind fun _ => requireVersion_refusedFor.bind fun _ => ?_
    exact readEnclave_refusedFor.bind fun _ => .ok _
  | dataClassification =>
    dsimp only
    split
    · split
      · exact .ok _
      · exact requireVersion_refusedFor.bind fun _ => .ok _
    · exact .error (.inr rfl)
  | globalTransactions | azureSqlSupport | utf8Support | dnsCaching => exact firstByte_refusedFor.bind fun _ => .ok _
  | json | vector => exact versionOrAbsent_refusedFor.bind fun _ => .ok _
  | enhancedRouting => exact onlyByte_refusedFor.bind fun _ => .ok _
  | terminator => exact .error (.inr rfl)

/-- An acknowledgement is refused as the end of a list exactly if it has the identifier of that. -/
theorem acceptFeature_terminatorInList_iff {c : Capabilities} {ack : FeatureAck} :
    c.acceptFeature ack = .error (.malformedFeature Feature.terminator.id .terminatorInList) ↔
      ack.id = FeatureAck.terminator := by
  unfold acceptFeature
  constructor
  · intro h
    split at h
    · rename_i f hf
      rw [Feature.eq_id_of_ofId? hf]
      rcases acceptKnown_refusedFor c f ack.payload _ h with hnone | hsome
      · cases hnone
      · exact (Option.some.inj hsome).symm
    · cases h
  · intro h
    rw [h]
    rfl

end Capabilities

namespace Response

/-- Features that do not end a list are never refused as the end of one. -/
theorem takeFeatures_refusedFor {acks : List FeatureAck} (h : ∀ a ∈ acks, a.id ≠ FeatureAck.terminator)
    (r : Response) :
    RefusedFor (· ≠ .malformedFeature Feature.terminator.id .terminatorInList) (acks.foldlM takeFeature r) := by
  have hnone {e : ProtocolError} (h : e.feature? = none) :
      e ≠ .malformedFeature Feature.terminator.id .terminatorInList := by
    rintro rfl
    cases h
  induction acks generalizing r with
  | nil => exact .ok _
  | cons ack acks ih =>
    rw [List.foldlM_cons]
    refine RefusedFor.bind ?_ fun r' => ih (fun a ha => h a (List.mem_cons_of_mem ack ha)) r'
    refine RefusedFor.bind ?_ fun capabilities => ?_
    · intro e he heq
      rw [heq, Capabilities.acceptFeature_terminatorInList_iff] at he
      exact h ack List.mem_cons_self he
    · split
      · refine RefusedFor.bind ?_ fun _ => .ok _
        exact ((StateRecord.readAll_refusedFor ack.payload).mono fun _ => hnone).bind fun _ => .ok _
      · exact .ok _

/-- Whatever bytes a list of features is said to be, none of them is refused as the end of the list. -/
theorem take_featureExtAck_refusedFor (r : Response) (body : Bytes) :
    RefusedFor (· ≠ .malformedFeature Feature.terminator.id .terminatorInList)
      (r.take (.ofKind .featureExtAck body)) := by
  intro e he heq
  change (FeatureAck.readList body >>= fun p => p.1.foldlM takeFeature r >>= fun r' => .ok (ResponseStep.more r')) =
    .error e at he
  rcases hlist : FeatureAck.readList body with e' | ⟨acks, rest⟩ <;> rw [hlist] at he
  · cases he
    have hnone := FeatureAck.readList_refusedFor body e hlist
    rw [heq] at hnone
    cases hnone
  · have hacks := (FeatureAck.readList_eq_ok hlist).2
    have hrefused := takeFeatures_refusedFor (fun a ha => (hacks a ha).1) r
    change (acks.foldlM takeFeature r >>= fun r' => .ok (ResponseStep.more r')) = .error e at he
    exact hrefused.bind (fun _ => .ok _) e he heq

end Response

/-- Features are read, with `rest` left behind them, from exactly the data that are one block for each of them in their
order, the identifier that ends a list, and `rest`. So the data leave no choice of features. An acknowledgement is
refused as the end of a list exactly if it has that identifier, which none has that has been read; and so no
list in a response is refused for it. -/
theorem features_listed :
    (∀ data acks rest, FeatureAck.readList data = .ok (acks, rest) ↔ FeatureAck.Listed acks rest data) ∧
    (∀ data acks rest acks' rest', FeatureAck.Listed acks rest data → FeatureAck.Listed acks' rest' data →
      acks' = acks ∧ rest' = rest) ∧
    (∀ (c : Capabilities) ack,
      c.acceptFeature ack = .error (.malformedFeature Feature.terminator.id .terminatorInList) ↔
        ack.id = FeatureAck.terminator) ∧
    (∀ data acks rest, FeatureAck.readList data = .ok (acks, rest) →
      ∀ ack ∈ acks, Feature.ofId? ack.id ≠ some .terminator) ∧
    ∀ (r : Response) body,
      r.take (.ofKind .featureExtAck body) ≠ .error (.malformedFeature Feature.terminator.id .terminatorInList) := by
  refine ⟨fun data acks rest => FeatureAck.readList_eq_ok_iff, ?_,
    fun c ack => Capabilities.acceptFeature_terminatorInList_iff, ?_, ?_⟩
  · intro data acks rest acks' rest' h h'
    have hread := FeatureAck.readList_eq_ok_iff.mpr h
    rw [FeatureAck.readList_eq_ok_iff.mpr h'] at hread
    cases hread
    exact ⟨rfl, rfl⟩
  · exact fun data acks rest h ack hack => FeatureAck.ofId?_ne_terminator (FeatureAck.readList_eq_ok_iff.mp h) hack
  · exact fun r body h => r.take_featureExtAck_refusedFor body _ h rfl

/-- The identifier of the end inside of a payload ends nothing; what comes behind the list is left. -/
theorem endInPayload_listed :
    let data : Bytes := [0x0B, 2, 0, 0, 0, 0xFF, 1, 0xFF, 9]
    FeatureAck.readList data = .ok ([⟨0x0B, [0xFF, 1]⟩], [9]) ∧
    (∀ acks rest, FeatureAck.Listed acks rest data → acks = [⟨0x0B, [0xFF, 1]⟩] ∧ rest = [9]) ∧
    Feature.ofId? 0x0B ≠ some .terminator := by
  intro data
  obtain ⟨hread, hunique, -, hknown, -⟩ := features_listed
  have hblock : FeatureAck.Block ⟨0x0B, [0xFF, 1]⟩ [0x0B, 2, 0, 0, 0, 0xFF, 1] :=
    @FeatureAck.Block.mk 0x0B [2, 0, 0, 0] [0xFF, 1] (by decide) rfl rfl
  have hlisted : FeatureAck.Listed [⟨0x0B, [0xFF, 1]⟩] [9] data := ⟨_, .cons hblock .nil, rfl⟩
  have hok := (hread _ _ _).mpr hlisted
  exact ⟨hok, fun acks rest h => hunique _ _ _ _ _ hlisted h, hknown _ _ _ hok _ List.mem_cons_self⟩

end TdsSession
