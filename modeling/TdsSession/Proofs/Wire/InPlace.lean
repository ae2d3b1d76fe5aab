import TdsSession.Proofs.Operation
import TdsSession.Proofs.Wire.Capabilities
import TdsSession.Proofs.Wire.RecordWalk

/-!
# Acknowledgements taken over in place

Here the capabilities are changed where they stand, one field after the other, and
an acknowledgement may be refused at any time (`Capabilities.takeFeature`,
`Capabilities.takeLogin`). All checks come before the first change: the capabilities
become what `acceptFeature` and `acceptLogin` make of them, or stay as they were
(`takeFeature_does`, `takeLogin_does`). What they become differs from what they were
in the fields of the one feature, and these are what its payload says, whatever the
capabilities have been before (`eq_withFields_of_acceptFeature`).
-/

namespace TdsSession

/-- Operations that change a state where it stands, and may be refused at any time. -/
abbrev InPlace (S : Type) := ExceptT ProtocolError (StateM S)

namespace InPlace

variable {S α β γ δ : Type} {s : S}

/-- In the state `s` the operation does what `r` says, or nothing if that is a refusal. -/
def Does (s : S) (m : InPlace S α) (r : Except ProtocolError (S × α)) : Prop :=
  m s = match r with
    | .ok (s', a) => (.ok a, s')
    | .error e => (.error e, s)

/-- Where the operation ends, if it is not refused. -/
def result (m : InPlace S α) (s : S) : Except ProtocolError S := (m s).1.map fun _ => (m s).2

/-- Whatever the state is, the operation does what `f` says, and a refusal leaves the state as it was. -/
structure Atomic (m : InPlace S α) (f : S → Except ProtocolError (S × α)) : Prop where
  accepted : ∀ s s' a, m s = (.ok a, s') ↔ f s = .ok (s', a)
  refused : ∀ s s' e, m s = (.error e, s') ↔ f s = .error e ∧ s' = s

theorem atomic_of_does {m : InPlace S α} {f : S → Except ProtocolError (S × α)} (h : ∀ s, Does s m (f s)) :
    Atomic m f where
  accepted s s' a := by
    rw [h s]
    rcases f s with e | ⟨s₁, a₁⟩
    · exact ⟨fun h => (nomatch h), fun h => (nomatch h)⟩
    · constructor <;> (rintro ⟨⟩; rfl)
  refused s s' e := by
    rw [h s]
    rcases f s with e | ⟨s₁, a₁⟩
    · constructor
      · rintro ⟨⟩
        exact ⟨rfl, rfl⟩
      · rintro ⟨⟨⟩, rfl⟩
        rfl
    · exact ⟨fun h => (nomatch h), fun h => (nomatch h.1)⟩

theorem liftM_apply (x : Except ProtocolError α) (s : S) : (liftM x : InPlace S α) s = (x, s) := by
  cases x <;> rfl

/-- The values that have been looked at, one after the other, are those of a list. -/
theorem mapM_liftM_apply (xs : List (Except ProtocolError α)) (s : S) :
    (xs.mapM fun x => (liftM x : InPlace S α)) s = (xs.mapM id, s) := by
  induction xs with
  | nil => rfl
  | cons x xs ih =>
    rw [List.mapM_cons, List.mapM_cons]
    cases x with
    | error e => rfl
    | ok a =>
      change (xs.mapM (fun x => (liftM x : InPlace S α)) >>= fun as => pure (a :: as)) s = _
      rw [Op.bind_apply, ih]
      cases xs.mapM id <;> rfl

theorem forM_liftM_apply (xs : List (Except ProtocolError α)) (s : S) :
    (xs.forM fun x => do let _ ← (liftM x : InPlace S α)) s = ((xs.mapM id).map fun _ => ⟨⟩, s) := by
  induction xs with
  | nil => rfl
  | cons x xs ih =>
    rw [List.mapM_cons]
    cases x with
    | error e => rfl
    | ok a =>
      change (xs.forM fun x => do let _ ← (liftM x : InPlace S α)) s = _
      rw [ih]
      cases xs.mapM id <;> rfl

namespace Does

variable {out : γ → S × α}

theorem get_bind {k : S → InPlace S α} {r : Except ProtocolError (S × α)} (h : Does s (k s) r) :
    Does s (get >>= k) r := h

/-- What only looks at the state comes before everything that may change it. -/
theorem after {m : InPlace S β} {x : Except ProtocolError δ} (seen : δ → β) (hm : m s = (x.map seen, s))
    {k : β → InPlace S α} {g : δ → Except ProtocolError γ} (h : ∀ d, Does s (k (seen d)) ((g d).map out)) :
    Does s (m >>= k) ((x >>= g).map out) := by
  cases x with
  | error e => exact Op.bind_of_error hm k
  | ok d =>
    unfold Does
    rw [Op.bind_of_ok hm]
    exact h d

theorem check_bind {x : Except ProtocolError β} {k : β → InPlace S α} {g : β → Except ProtocolError γ}
    (h : ∀ b, Does s (k b) ((g b).map out)) : Does s (liftM x >>= k) ((x >>= g).map out) := by
  refine after id ?_ h
  rw [liftM_apply]
  cases x <;> rfl

/-- After a change that is not undone nothing may be refused. -/
theorem ok_bind {m : InPlace S β} {s' : S} {b : β} (hm : Does s m (.ok (s', b))) {k : β → InPlace S α} {p : S × α}
    (h : Does s' (k b) (.ok p)) : Does s (m >>= k) (.ok p) := by
  unfold Does
  rw [Op.bind_of_ok hm]
  exact h

end Does

end InPlace

/-- The walk that the capabilities take over the records of a payload ends as reading all of them does. -/
theorem RecordWalk.forM_items_apply {S : Type} (payload : Bytes) (s : S) :
    ((start payload).items.forM fun item => do let _ ← (liftM item : InPlace S StateRecord)) s =
      ((StateRecord.readAll payload).map fun _ => ⟨⟩, s) := by
  rw [InPlace.forM_liftM_apply, readAll_eq]

namespace Capabilities

open InPlace

variable {c c' d d' : Capabilities} {f : Feature} {payload : Bytes} {ack : FeatureAck}

/-- Takes over the payload of a known feature, where the capabilities stand. -/
def takeKnown (f : Feature) (payload : Bytes) : InPlace Capabilities Unit := do
  match f with
  | .sessionRecovery =>
    (← get).requireRequested f
    (RecordWalk.start payload).items.forM fun item => do let _ ← item
    modify ({ · with sessionRecovery := true })
  | .fedAuth =>
    (← get).requireRequested f
    if payload.isEmpty then modify ({ · with fedAuth := true })
    else throw (.malformedFeature f.id .tokenWorkflowData)
  | .columnEncryption =>
    let v ← firstByte f payload
    requireVersion f v
    let enclave ← readEnclave payload
    modify ({ · with encryptionVersion := some v })
    modify ({ · with enclaveType := enclave })
  | .globalTransactions =>
    let b ← firstByte f payload
    modify ({ · with globalTransactionsAvailable := true })
    modify ({ · with globalTransactionsEnabled := b == 1 })
  | .azureSqlSupport =>
    let b ← firstByte f payload
    modify ({ · with azureSql := true })
    modify ({ · with readOnlyFailover := b &&& 0x01 != 0 })
  | .dataClassification =>
    match payload with
    | [v, enabled] =>
      if enabled = 0 then modify ({ · with dataClassification := .disabled })
      else
        requireVersion f v
        modify ({ · with dataClassification := .enabled v })
    | _ => throw (.featureLength f.id 2 payload.length)
  | .utf8Support =>
    let b ← firstByte f payload
    modify ({ · with utf8 := b &&& 0x01 != 0 })
  | .dnsCaching =>
    let b ← firstByte f payload
    modify ({ · with dnsCaching := b &&& 0x01 != 0 })
  | .json =>
    let v ← versionOrAbsent f payload
    modify ({ · with jsonVersion := v })
  | .vector =>
    let v ← versionOrAbsent f payload
    modify ({ · with vectorVersion := v })
  | .enhancedRouting =>
    let b ← onlyByte f payload
    modify ({ · with enhancedRouting := b == 1 })
  | .terminator => throw (.malformedFeature f.id .terminatorInList)

/-- Takes over one acknowledged feature, where the capabilities stand. -/
def takeFeature (ack : FeatureAck) : InPlace Capabilities Unit :=
  match Feature.ofId? ack.id with
  | some f => takeKnown f ack.payload
  | none => pure ()

/-- Takes over an accepted login, where the capabilities stand. -/
def takeLogin (ack : LoginAck) : InPlace Capabilities Generation := do
  let g ← validateVersion ack.version
  modify ({ · with protocolVersion := some ack.version })
  modify ({ · with serverVersion := some ack.serverVersion })
  modify ({ · with serverName := ack.program })
  return g

theorem takeKnown_does (c : Capabilities) (f : Feature) (payload : Bytes) :
    Does c (takeKnown f payload) ((c.acceptKnown f payload).map (·, ())) := by
  unfold takeKnown acceptKnown
  cases f with
  | sessionRecovery =>
    refine .get_bind (.check_bind fun _ => ?_)
    exact .after _ (RecordWalk.forM_items_apply payload c) fun _ => rfl
  | fedAuth =>
    refine .get_bind (.check_bind fun _ => ?_)
    split <;> rfl
  | columnEncryption =>
    exact .check_bind fun v => .check_bind fun _ => .check_bind fun enclave => rfl
  | dataClassification =>
    rcases payload with _ | ⟨v, _ | ⟨enabled, _ | ⟨more, rest⟩⟩⟩
    · rfl
    · rfl
    · by_cases hdisabled : enabled = 0
      · simp only [if_pos hdisabled]
        rfl
      · simp only [if_neg hdisabled]
        exact .check_bind fun _ => rfl
    · rfl
  | globalTransactions | azureSqlSupport | utf8Support | dnsCaching | json | vector | enhancedRouting =>
    exact .check_bind fun _ => rfl
  | terminator => rfl

/-- An acknowledged feature is taken over as a whole or not at all. -/
theorem takeFeature_does (c : Capabilities) (ack : FeatureAck) :
    Does c (takeFeature ack) ((c.acceptFeature ack).map (·, ())) := by
  unfold takeFeature acceptFeature
  cases Feature.ofId? ack.id with
  | some f => exact takeKnown_does c f ack.payload
  | none => rfl

/-- An accepted login is taken over as a whole or not at all. -/
theorem takeLogin_does (c : Capabilities) (ack : LoginAck) : Does c (takeLogin ack) (c.acceptLogin ack) := by
  unfold takeLogin acceptLogin
  cases validateVersion ack.version <;> rfl

/-! ## What a payload says -/

/-- The capabilities `c`, with the fields that belong to a feature as they are in `source`. -/
def withFields (c : Capabilities) (f : Feature) (source : Capabilities) : Capabilities :=
  match f with
  | .sessionRecovery => { c with sessionRecovery := source.sessionRecovery }
  | .fedAuth => { c with fedAuth := source.fedAuth }
  | .columnEncryption =>
    { c with encryptionVersion := source.encryptionVersion, enclaveType := source.enclaveType }
  | .globalTransactions =>
    { c with
      globalTransactionsAvailable := source.globalTransactionsAvailable
      globalTransactionsEnabled := source.globalTransactionsEnabled }
  | .azureSqlSupport => { c with azureSql := source.azureSql, readOnlyFailover := source.readOnlyFailover }
  | .dataClassification => { c with dataClassification := source.dataClassification }
  | .utf8Support => { c with utf8 := source.utf8 }
  | .dnsCaching => { c with dnsCaching := source.dnsCaching }
  | .json => { c with jsonVersion := source.jsonVersion }
  | .vector => { c with vectorVersion := source.vectorVersion }
  | .enhancedRouting => { c with enhancedRouting := source.enhancedRouting }
  | .terminator => c

/-- The fields of the feature are what the payload says, whatever the capabilities have been, and the other fields
stay. -/
theorem eq_withFields_of_accepts (h : c.Accepts f payload c') (h' : d.Accepts f payload d') :
    c' = c.withFields f d' := by
  have version_unique {v : UInt8} {a b : Option UInt8} (ha : v = 0 ∧ a = none ∨ v = 1 ∧ a = some 1)
      (hb : v = 0 ∧ b = none ∨ v = 1 ∧ b = some 1) : a = b := by
    rcases ha with ⟨rfl, rfl⟩ | ⟨rfl, rfl⟩ <;> rcases hb with ⟨hv, rfl⟩ | ⟨hv, rfl⟩
    · rfl
    · cases hv
    · cases hv
    · rfl
  cases h with
  | columnEncryption _ henclave =>
    cases h' with
    | columnEncryption _ henclave' =>
      rw [henclave] at henclave'
      cases henclave'
      rfl
  | disabledClassification v =>
    cases h' with
    | disabledClassification => rfl
    | dataClassification henabled => exact absurd rfl henabled
  | dataClassification henabled _ =>
    cases h' with
    | disabledClassification => exact absurd rfl henabled
    | dataClassification => rfl
  | json hversion =>
    cases h' with
    | json hversion' =>
      rw [version_unique hversion hversion']
      rfl
  | vector hversion =>
    cases h' with
    | vector hversion' =>
      rw [version_unique hversion hversion']
      rfl
  | _ =>
    cases h'
    rfl

/-- An acknowledgement that is taken over from two sets of capabilities leaves in both of them the same values in the
fields of its feature, and all other fields as they were. -/
theorem eq_withFields_of_acceptFeature (h : c.acceptFeature ack = .ok c') (h' : d.acceptFeature ack = .ok d')
    (hf : Feature.ofId? ack.id = some f) : c' = c.withFields f d' := by
  unfold acceptFeature at h h'
  rw [hf] at h h'
  exact eq_withFields_of_accepts (accepts_of_acceptKnown h) (accepts_of_acceptKnown h')

theorem acceptFeature_of_unknown (c : Capabilities) (h : Feature.ofId? ack.id = none) :
    c.acceptFeature ack = .ok c := by
  rw [acceptFeature, h]

end Capabilities

end TdsSession
