import TdsSession.Proofs.Wire.Decoders
import TdsSession.Proofs.Wire.ReadBack

/-!
# The extent of a record

A record is read from an exact number of bytes at the front of the data, and
what comes after them plays no part (`Reader.Spans`). That holds of each field
that is read on its own, and of a body that is cut out before it is read, however
its fields look at what is left of it. With the checks of the decoders, a record
is decoded from its own bytes or refused (`decoders_contained`).
-/

namespace TdsSession

namespace Reader

variable {α β γ : Type} {r : Reader α} {f : α → Reader β} {n m : Nat} {P Q : Bytes → Prop}

/-- What `r` reads it reads from bytes of the shape `P` at the front, whatever follows them. -/
def Spans (r : Reader α) (P : Bytes → α → Prop) : Prop :=
  ∀ data a rest, r data = .ok (a, rest) → ∃ bytes, data = bytes ++ rest ∧ P bytes a ∧ Reads r bytes a

namespace Spans

theorem pure (a : α) : Spans (pure a) fun bytes b => bytes = [] ∧ b = a := by
  intro data b rest h
  cases h
  exact ⟨[], rfl, ⟨rfl, rfl⟩, Reads.pure a⟩

theorem bind {P : Bytes → α → Prop} {Q : α → Bytes → β → Prop} (h : Spans r P) (hf : ∀ a, Spans (f a) (Q a)) :
    Spans (r >>= f) fun bytes b => ∃ first later a, bytes = first ++ later ∧ P first a ∧ Q a later b := by
  intro data b rest hread
  obtain ⟨a, middle, hfirst, hlater⟩ := bind_eq_ok.mp hread
  obtain ⟨first, rfl, hP, hreads⟩ := h _ _ _ hfirst
  obtain ⟨later, rfl, hQ, hreads'⟩ := hf a _ _ _ hlater
  exact ⟨first ++ later, (List.append_assoc ..).symm, ⟨first, later, a, rfl, hP, hQ⟩, hreads.bind hreads'⟩

theorem mono {P Q : Bytes → α → Prop} (h : Spans r P) (hPQ : ∀ bytes a, P bytes a → Q bytes a) : Spans r Q := by
  intro data a rest hread
  obtain ⟨bytes, hdata, hP, hreads⟩ := h data a rest hread
  exact ⟨bytes, hdata, hPQ bytes a hP, hreads⟩

end Spans

/-! ## Fields -/

/-- A word is read from as many bytes as it has, which are those of its value. -/
theorem spans_word {width : Nat} {ofNat : Nat → α} {toNat : α → Nat}
    (h : ∀ n < Nat.pow 256 width, toNat (ofNat n) = n) : Spans (do
      let b ← field width
      return ofNat (Bytes.ofLittleEndian b)) fun bytes a => bytes = Bytes.littleEndian width (toNat a) := by
  intro data a rest hread
  obtain ⟨bytes, rest', hfield, hpure⟩ := bind_eq_ok.mp hread
  cases hpure
  obtain ⟨rfl, hlength⟩ := field_eq_ok hfield
  have hword : toNat (ofNat (Bytes.ofLittleEndian bytes)) = Bytes.ofLittleEndian bytes := by
    refine h _ ?_
    rw [← hlength]
    exact Bytes.ofLittleEndian_lt bytes
  refine ⟨bytes, rfl, ?_, (reads_field hlength).bind_pure fun b => ofNat (Bytes.ofLittleEndian b)⟩
  dsimp only
  rw [hword, ← hlength, Bytes.littleEndian_ofLittleEndian]

theorem spans_u8 : Spans u8 fun bytes a => bytes = Bytes.littleEndian 1 a.toNat :=
  spans_word fun _ h => UInt8.toNat_ofNat_of_lt h

theorem spans_u16 : Spans u16 fun bytes a => bytes = Bytes.littleEndian 2 a.toNat :=
  spans_word fun _ h => UInt16.toNat_ofNat_of_lt h

theorem spans_u32 : Spans u32 fun bytes a => bytes = Bytes.littleEndian 4 a.toNat :=
  spans_word fun _ h => UInt32.toNat_ofNat_of_lt h

theorem spans_u64 : Spans u64 fun bytes a => bytes = Bytes.littleEndian 8 a.toNat :=
  spans_word fun _ h => UInt64.toNat_ofNat_of_lt h

theorem require_eq_ok {ok : Bool} {e : ProtocolError} {data rest : Bytes} {u : Unit}
    (h : require ok e data = .ok (u, rest)) : ok = true ∧ rest = data := by
  cases ok with
  | false => cases h
  | true =>
    cases h
    exact ⟨rfl, rfl⟩

theorem spans_require (ok : Bool) (e : ProtocolError) : Spans (require ok e) fun bytes _ => bytes = [] := by
  intro data u rest h
  obtain ⟨rfl, rfl⟩ := require_eq_ok h
  exact ⟨[], rfl, rfl, Reads.pure ()⟩

/-- What is read from bytes that were cut out is read from as many bytes as these. -/
theorem spans_inside (n : Nat) (r : Bytes → Reader α) : Spans (do
    let body ← take n
    inside body (r body)) fun bytes _ => bytes.length = n := by
  intro data a rest hread
  obtain ⟨body, rest', htake, hinside⟩ := bind_eq_ok.mp hread
  obtain ⟨rfl, hlength⟩ := take_eq_ok htake
  unfold inside at hinside
  split at hinside
  · rename_i value left hbody
    cases hinside
    have hreads := (reads_take body).bind (f := fun body => inside body (r body)) (reads_inside hbody)
    rw [hlength, List.append_nil] at hreads
    exact ⟨body, rfl, hlength, hreads⟩
  · cases hinside

theorem spans_within (n : Nat) (r : Reader α) : Spans (within n r) fun bytes _ => bytes.length = n :=
  spans_inside n fun _ => r

/-! ## Records -/

/-- Data that begin with their length. -/
def Counted (width : Nat) (bytes : Bytes) : Prop :=
  ∃ body : Bytes, body.length < Nat.pow 256 width ∧ bytes = Bytes.littleEndian width body.length ++ body

/-- A record is read from its length and as many bytes. -/
theorem spans_counted {width : Nat} {counter : Reader γ} {toNat : γ → Nat} {r : γ → Reader α}
    (hcounter : Spans counter fun bytes a => bytes = Bytes.littleEndian width (toNat a))
    (hlt : ∀ count, toNat count < Nat.pow 256 width)
    (h : ∀ count, Spans (r count) fun bytes _ => bytes.length = toNat count) :
    Spans (counter >>= r) fun bytes _ => Counted width bytes := by
  refine (hcounter.bind h).mono ?_
  rintro bytes a ⟨word, body, count, rfl, rfl, hlength⟩
  refine ⟨body, ?_, ?_⟩
  · rw [hlength]
    exact hlt count
  · rw [hlength]

theorem spans_counted16 (r : Reader α) : Spans (do
    let length ← u16
    within length.toNat r) fun bytes _ => Counted 2 bytes :=
  spans_counted spans_u16 UInt16.toNat_lt fun count => spans_within count.toNat r

theorem spans_counted32 {r : UInt32 → Reader α}
    (h : ∀ length, Spans (r length) fun bytes _ => bytes.length = length.toNat) :
    Spans (u32 >>= r) fun bytes _ => Counted 4 bytes :=
  spans_counted spans_u32 UInt32.toNat_lt h

/-- A record of a fixed size is read from as many bytes, if its fields are. -/
theorem spans_of_size (size : Nat) (h : Spans r fun bytes _ => bytes.length = size) : Spans (do
    let left ← remaining
    require (size ≤ left) (.incomplete size left)
    r) fun bytes _ => bytes.length = size := by
  intro data a rest hread
  have hr : r data = .ok (a, rest) := by
    obtain ⟨left, data', hleft, hrequire⟩ := bind_eq_ok.mp hread
    cases hleft
    obtain ⟨_, _, hok, hr⟩ := bind_eq_ok.mp hrequire
    rwa [(require_eq_ok hok).2] at hr
  obtain ⟨bytes, hdata, hlength, hreads⟩ := h data a rest hr
  exact ⟨bytes, hdata, hlength, reads_of_size hlength hreads⟩

end Reader

open Reader

theorem Collation.spans_read : Spans read fun bytes _ => bytes.length = 5 := by
  refine spans_of_size 5 ((spans_u32.bind fun info => spans_u8.bind fun sortId => Spans.pure _).mono ?_)
  rintro _ _ ⟨_, _, info, rfl, rfl, _, _, sortId, rfl, rfl, rfl, _⟩
  simp only [List.length_append, Bytes.length_littleEndian, List.length_nil]

theorem Done.spans_read : Spans read fun bytes _ => bytes.length = 12 := by
  refine spans_of_size 12 ((spans_u16.bind fun status => spans_u16.bind fun command =>
    spans_u64.bind fun rowCount => Spans.pure _).mono ?_)
  rintro _ _ ⟨_, _, status, rfl, rfl, _, _, command, rfl, rfl, _, _, rowCount, rfl, rfl, rfl, _⟩
  simp only [List.length_append, Bytes.length_littleEndian, List.length_nil]

namespace FeatureAck

theorem readPayload_eq_ok {data payload rest : Bytes} (h : readPayload data = .ok (payload, rest)) :
    data = Bytes.littleEndian 4 payload.length ++ (payload ++ rest) ∧ payload.length < UInt32.size := by
  obtain ⟨length, data', hword, htake⟩ := bind_eq_ok.mp h
  obtain ⟨word, rfl, rfl, _⟩ := spans_u32 _ _ _ hword
  obtain ⟨rfl, hlength⟩ := take_eq_ok htake
  rw [hlength]
  exact ⟨rfl, length.toNat_lt⟩

/-- A list of features is read from what is written for them, and none of them has the identifier of its end. -/
theorem readList_eq_ok {data rest : Bytes} {acks : List FeatureAck} (h : readList data = .ok (acks, rest)) :
    data = writeList acks ++ rest ∧ ∀ a ∈ acks, a.id ≠ terminator ∧ a.payload.length < UInt32.size := by
  fun_induction readList data generalizing acks with
  | case1 => cases h
  | case2 rest' =>
    cases h
    exact ⟨rfl, fun a ha => nomatch ha⟩
  | case3 id data hid e hpayload => cases h
  | case4 id data hid payload rest' hpayload e hrest ih => cases h
  | case5 id data hid payload rest' hpayload acks' tail hrest ih =>
    cases h
    obtain ⟨hrest', hacks⟩ := ih hrest
    obtain ⟨hdata, hlength⟩ := readPayload_eq_ok hpayload
    refine ⟨?_, fun a ha => ?_⟩
    · rw [hdata, hrest']
      simp only [writeList, write, List.flatMap_cons, List.append_assoc, List.cons_append, List.nil_append]
    · rcases List.mem_cons.mp ha with rfl | ha
      · exact ⟨hid, hlength⟩
      · exact hacks a ha

theorem spans_readList : Spans readList fun bytes acks => bytes = writeList acks ∧ ∀ a ∈ acks, a.id ≠ terminator := by
  intro data acks rest h
  obtain ⟨rfl, hacks⟩ := readList_eq_ok h
  exact ⟨writeList acks, rfl, ⟨rfl, fun a ha => (hacks a ha).1⟩, reads_writeList hacks⟩

end FeatureAck

theorem FedAuthInfo.spans_read : Spans read fun bytes _ => Counted 4 bytes := by
  refine spans_counted32 fun length => ?_
  exact spans_inside length.toNat fun body => do
    let count ← u32
    readOptions body count.toNat ⟨"", ""⟩

theorem StateToken.spans_read : Spans read fun bytes _ => Counted 4 bytes := by
  refine spans_counted32 fun length => ?_
  refine Spans.mono (Spans.bind (spans_require _ _) fun _ => spans_within length.toNat _) ?_
  rintro _ _ ⟨_, body, _, rfl, rfl, hlength⟩
  exact hlength

/-! ## Decoding -/

/-- `decode` is `read` with its checks in place, none of its reads overruns the data, and what it reads it reads
from bytes of the shape `P` alone. -/
structure Contained {α : Type} (decode : Cursor α) (read : Reader α) (P : Bytes → α → Prop) : Prop where
  decodes : decode = read.toCursor
  noOverrun : ∀ data, decode data ≠ .error .overrun
  /-- The bytes that are taken decide the value, whatever follows them. -/
  extent : ∀ data a rest, read data = .ok (a, rest) →
    ∃ bytes, data = bytes ++ rest ∧ P bytes a ∧ ∀ tail, read (bytes ++ tail) = .ok (a, tail)
  /-- More data after a record are left with what is left of it. -/
  suffixes : ∀ data a rest, read data = .ok (a, rest) → ∀ more, read (data ++ more) = .ok (a, rest ++ more)

theorem contained_of_spans {α : Type} {decode : Cursor α} {read : Reader α} {P : Bytes → α → Prop}
    (h : decode = read.toCursor) (hspans : Spans read P) : Contained decode read P where
  decodes := h
  noOverrun data := by
    rw [h]
    exact toCursor_ne_overrun read data
  extent := hspans
  suffixes data a rest hread more := by
    obtain ⟨bytes, rfl, _, hreads⟩ := hspans data a rest hread
    rw [List.append_assoc]
    exact hreads (rest ++ more)

/-- Every record is decoded from its own bytes or refused: 5 for a collation and 12 for the end of a response, a
list of features with what ends it, and any other its length and as many bytes. The target of a redirect is held to
its own length within its record. -/
theorem decoders_contained :
    Contained Collation.decode Collation.read (fun bytes _ => bytes.length = 5) ∧
    Contained Done.decode Done.read (fun bytes _ => bytes.length = 12) ∧
    Contained ServerMessage.decode ServerMessage.read (fun bytes _ => Counted 2 bytes) ∧
    Contained LoginAck.decode LoginAck.read (fun bytes _ => Counted 2 bytes) ∧
    Contained EnvChange.decode EnvChange.read (fun bytes _ => Counted 2 bytes) ∧
    Contained Routing.decode Routing.read (fun bytes _ => Counted 2 bytes) ∧
    Contained FeatureAck.decodeList FeatureAck.readList
      (fun bytes acks => bytes = FeatureAck.writeList acks ∧ ∀ a ∈ acks, a.id ≠ FeatureAck.terminator) ∧
    Contained FedAuthInfo.decode FedAuthInfo.read (fun bytes _ => Counted 4 bytes) ∧
    Contained StateToken.decode StateToken.read (fun bytes _ => Counted 4 bytes) := by
  refine ⟨?_, ?_, ?_, ?_, ?_, ?_, ?_, ?_, ?_⟩
  · exact contained_of_spans Collation.decode_eq Collation.spans_read
  · exact contained_of_spans Done.decode_eq Done.spans_read
  · exact contained_of_spans ServerMessage.decode_eq (spans_counted16 _)
  · exact contained_of_spans LoginAck.decode_eq (spans_counted16 _)
  · exact contained_of_spans EnvChange.decode_eq (spans_counted16 _)
  · exact contained_of_spans Routing.decode_eq (spans_counted16 _)
  · exact contained_of_spans FeatureAck.decodeList_eq FeatureAck.spans_readList
  · exact contained_of_spans FedAuthInfo.decode_eq FedAuthInfo.spans_read
  · exact contained_of_spans StateToken.decode_eq StateToken.spans_read

end TdsSession
