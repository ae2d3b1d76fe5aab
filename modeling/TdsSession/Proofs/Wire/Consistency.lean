import TdsSession.Proofs.Wire.Capabilities

/-!
# Capabilities that agree with each other

Capabilities are filled in one acknowledgement after the other, and some may be
refused on the way. What is known of the server at any time agrees with itself
(`Capabilities.Consistent`): versions are such as this client speaks, nothing is
in use that was not requested or that lacks what it is part of. Each
acknowledgement keeps this by what it is taken for (`Consistent.accepts`), and so
does any sequence of them, with resets in between (`acknowledged_consistent`).
-/

namespace TdsSession

/-- A version has a generation only if it is one of the four that servers accept logins under. -/
theorem TdsVersion.accepted_of_generation? {v : TdsVersion} {g : Generation} (h : v.generation? = some g) :
    v = v7_2 ∨ v = v7_3B ∨ v = v7_4 ∨ v = v8_0 := by
  unfold generation? at h
  split at h
  · exact .inl ‹_›
  split at h
  · exact .inr (.inl ‹_›)
  split at h
  · exact .inr (.inr (.inl ‹_›))
  split at h
  · exact .inr (.inr (.inr ‹_›))
  · cases h

/-- What can happen to the capabilities of a login. -/
inductive CapabilityAction
  | acceptLogin (ack : LoginAck)
  | acceptFeature (ack : FeatureAck)
  | reset
deriving DecidableEq, Repr

namespace Capabilities

variable {c c' : Capabilities}

/-- The capabilities after an action that is not refused. -/
def perform (c : Capabilities) : CapabilityAction → Except ProtocolError Capabilities
  | .acceptLogin ack => (c.acceptLogin ack).map (·.1)
  | .acceptFeature ack => c.acceptFeature ack
  | .reset => .ok c.reset

/-- The capabilities after an action; one that is refused changes nothing. -/
def act (c : Capabilities) (a : CapabilityAction) : Capabilities :=
  match c.perform a with
  | .ok c' => c'
  | .error _ => c

/-- The capabilities after a sequence of actions. -/
def actAll (c : Capabilities) (actions : List CapabilityAction) : Capabilities := actions.foldl act c

/-- A server that belongs to a generation or a later one belongs to every earlier one or a later one. -/
theorem isAtLeast_mono {g later : Generation} (hle : g.rank ≤ later.rank) (h : c.isAtLeast later = true) :
    c.isAtLeast g = true := by
  unfold isAtLeast at h ⊢
  rcases hknown : c.generation? with _ | known <;> rw [hknown] at h
  · cases h
  · exact decide_eq_true (Nat.le_trans hle (of_decide_eq_true h))

/-- What is known of a server agrees with itself. -/
structure Consistent (c : Capabilities) : Prop where
  /-- The protocol version is one of the four that a login is accepted under. -/
  protocolVersion : ∀ v, c.protocolVersion = some v → v = .v7_2 ∨ v = .v7_3B ∨ v = .v7_4 ∨ v = .v8_0
  /-- The versions of the protocol and of the product come together. -/
  serverVersion : c.protocolVersion.isSome = c.serverVersion.isSome
  /-- The generation is known as soon as the protocol version is. -/
  generation : c.generation?.isSome = c.protocolVersion.isSome
  sessionRecovery : c.sessionRecovery = true → c.requested.contains Feature.sessionRecovery.flag = true
  fedAuth : c.fedAuth = true → c.requested.contains Feature.fedAuth.flag = true
  encryptionVersion : ∀ v, c.encryptionVersion = some v → 1 ≤ v ∧ v ≤ 3
  /-- An enclave is there only for column encryption. -/
  enclaveType : c.enclaveType.isSome = true → c.encryptionVersion.isSome = true
  jsonVersion : c.jsonVersion = none ∨ c.jsonVersion = some 1
  vectorVersion : c.vectorVersion = none ∨ c.vectorVersion = some 1
  dataClassification : ∀ v, c.dataClassification = .enabled v → 1 ≤ v ∧ v ≤ 2
  globalTransactions : c.globalTransactionsEnabled = true → c.globalTransactionsAvailable = true
  /-- Only an Azure server has a failover partner that can be read from. -/
  readOnlyFailover : c.readOnlyFailover = true → c.azureSql = true

/-- Nothing is known that could disagree. -/
theorem consistent_empty (requested : FeatureSet) : (empty requested).Consistent where
  protocolVersion _ h := by cases h
  serverVersion := rfl
  generation := rfl
  sessionRecovery h := by cases h
  fedAuth h := by cases h
  encryptionVersion _ h := by cases h
  enclaveType h := by cases h
  jsonVersion := .inl rfl
  vectorVersion := .inl rfl
  dataClassification _ h := by cases h
  globalTransactions h := by cases h
  readOnlyFailover h := by cases h

namespace Consistent

/-- Every feature is taken over together with what it needs. -/
theorem accepts (h : c.Consistent) {f : Feature} {payload : Bytes} (ha : c.Accepts f payload c') : c'.Consistent := by
  have spoken {v : UInt8} {version : Option UInt8} (hv : v = 0 ∧ version = none ∨ v = 1 ∧ version = some 1) :
      version = none ∨ version = some 1 := hv.imp And.right And.right
  cases ha with
  | sessionRecovery hrequested hslots => exact { h with sessionRecovery := fun _ => hrequested }
  | fedAuth hrequested => exact { h with fedAuth := fun _ => hrequested }
  | columnEncryption hversion henclave =>
    exact { h with
      encryptionVersion := fun v hv => Option.some.inj hv ▸ hversion
      enclaveType := fun _ => rfl }
  | globalTransactions b rest => exact { h with globalTransactions := fun _ => rfl }
  | azureSqlSupport b rest => exact { h with readOnlyFailover := fun _ => rfl }
  | disabledClassification v => exact { h with dataClassification := fun v hv => by cases hv }
  | dataClassification henabled hversion =>
    exact { h with dataClassification := fun v hv => DataClassification.enabled.inj hv ▸ hversion }
  | utf8Support b rest => exact { h with }
  | dnsCaching b rest => exact { h with }
  | json hversion => exact { h with jsonVersion := spoken hversion }
  | vector hversion => exact { h with vectorVersion := spoken hversion }
  | enhancedRouting b => exact { h with }

/-- An accepted login tells both versions, and the generation with them. -/
theorem acceptLogin (h : c.Consistent) {ack : LoginAck} {g : Generation} (ha : c.acceptLogin ack = .ok (c', g)) :
    c'.Consistent := by
  obtain ⟨hgeneration, rfl⟩ := eq_of_acceptLogin ha
  exact { h with
    protocolVersion := fun v hv => Option.some.inj hv ▸ TdsVersion.accepted_of_generation? hgeneration
    serverVersion := rfl
    generation := congrArg Option.isSome hgeneration }

/-- An action that is not refused keeps capabilities consistent, and leaves the request alone. -/
theorem perform (h : c.Consistent) {a : CapabilityAction} (ha : c.perform a = .ok c') :
    c'.Consistent ∧ c'.requested = c.requested := by
  cases a with
  | acceptLogin ack =>
    change (c.acceptLogin ack).map (·.1) = .ok c' at ha
    rcases hlogin : c.acceptLogin ack with e | ⟨c'', g⟩ <;> rw [hlogin] at ha <;> cases ha
    exact ⟨h.acceptLogin hlogin, by rw [(eq_of_acceptLogin hlogin).2]⟩
  | acceptFeature ack =>
    refine ⟨?_, (takes_of_acceptFeature ha).requested⟩
    rcases accepts_of_acceptFeature ha with ⟨f, -, haccepts⟩ | ⟨-, rfl⟩
    · exact h.accepts haccepts
    · exact h
  | reset =>
    cases ha
    exact ⟨consistent_empty c.requested, rfl⟩

/-- So does any action, refused or not. -/
theorem act (h : c.Consistent) (a : CapabilityAction) : (c.act a).Consistent ∧ (c.act a).requested = c.requested := by
  unfold Capabilities.act
  rcases ha : c.perform a with e | c'
  · exact ⟨h, rfl⟩
  · exact h.perform ha

theorem actAll (h : c.Consistent) (actions : List CapabilityAction) :
    (c.actAll actions).Consistent ∧ (c.actAll actions).requested = c.requested := by
  induction actions generalizing c with
  | nil => exact ⟨h, rfl⟩
  | cons a actions ih =>
    obtain ⟨hnext, hrequested⟩ := h.act a
    obtain ⟨hlast, hsame⟩ := ih hnext
    exact ⟨hlast, hsame.trans hrequested⟩

end Consistent

/-- Whatever is requested, and whatever has been acknowledged since, refused, or forgotten in a reset: what is known of
the server agrees with itself, the request is as it was, and a server of one generation or a later one also counts as
one of every generation before that. -/
theorem acknowledged_consistent (requested : FeatureSet) (actions : List CapabilityAction) :
    let c := (empty requested).actAll actions
    c.Consistent ∧ c.requested = requested ∧
      (c.isAtLeast .sql2022 = true → c.isAtLeast .sql2012 = true) ∧
      (c.isAtLeast .sql2012 = true → c.isAtLeast .sql2008 = true) ∧
      (c.isAtLeast .sql2008 = true → c.isAtLeast .sql2005 = true) := by
  intro c
  obtain ⟨hconsistent, hrequested⟩ := (consistent_empty requested).actAll actions
  exact ⟨hconsistent, hrequested, isAtLeast_mono (by decide), isAtLeast_mono (by decide), isAtLeast_mono (by decide)⟩

/-- A version of column encryption that this client does not speak is refused, and leaves alone what came before it. -/
example : (empty .standard).actAll [.acceptFeature ⟨0x05, [1]⟩, .acceptFeature ⟨0x04, [9]⟩] =
    { empty .standard with globalTransactionsAvailable := true, globalTransactionsEnabled := true } := by
  decide

end Capabilities

end TdsSession
