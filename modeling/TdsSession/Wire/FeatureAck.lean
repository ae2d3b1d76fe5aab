import TdsSession.Wire.Reader

/-!
# FEATUREEXTACK

The features a server acknowledges, each with its payload. The list has no
length: the identifier 255 ends it.
-/

namespace TdsSession

/-- One acknowledged feature, known or not. -/
structure FeatureAck where
  id : UInt8
  payload : Bytes
deriving DecidableEq, Repr

namespace FeatureAck

/-- The identifier that ends the list. -/
def terminator : UInt8 := 0xFF

/-- A payload after its length, a 32-bit word. -/
def readPayload : Reader Bytes := do
  let length ← Reader.u32
  Reader.take length.toNat

theorem length_of_readPayload {data payload rest : Bytes}
    (h : readPayload data = .ok (payload, rest)) : rest.length ≤ data.length := by
  obtain ⟨length, body, hlength, hbody⟩ := Reader.bind_eq_ok.1 h
  obtain ⟨word, body', hword, hpure⟩ := Reader.bind_eq_ok.1 hlength
  cases hpure
  rw [(Reader.field_eq_ok hword).1, (Reader.take_eq_ok hbody).1, List.length_append, List.length_append]
  omega

/-- The features of a list, in the order of the server, and the bytes after its end. -/
def readList : Reader (List FeatureAck)
  | [] => .error .unexpectedEnd
  | id :: rest =>
    if id = terminator then .ok ([], rest)
    else
      match _h : readPayload rest with
      | .error e => .error e
      | .ok (payload, rest') =>
        match readList rest' with
        | .error e => .error e
        | .ok (acks, tail) => .ok (⟨id, payload⟩ :: acks, tail)
termination_by data => data.length
decreasing_by
  have := length_of_readPayload _h
  simp only [List.length_cons]
  omega

/-- The written form of one feature. -/
def write (a : FeatureAck) : Bytes :=
  [a.id] ++ Bytes.littleEndian 4 a.payload.length ++ a.payload

/-- The written form of a list of features. -/
def writeList (acks : List FeatureAck) : Bytes :=
  acks.flatMap write ++ [terminator]

end FeatureAck

end TdsSession
