/-!
# Optional features

A login requests optional features as a set; the server acknowledges each by
its identifier. A feature's flag in the set is not its identifier.
-/

namespace TdsSession

/-- Optional features, with the byte that ends a list of them. -/
inductive Feature
  | sessionRecovery
  | fedAuth
  | columnEncryption
  | globalTransactions
  | azureSqlSupport
  | dataClassification
  | utf8Support
  | dnsCaching
  | json
  | vector
  | enhancedRouting
  | terminator
deriving DecidableEq, Repr

/-- A set of requested features, one bit each. -/
structure FeatureSet where
  bits : UInt16
deriving DecidableEq, Repr

namespace FeatureSet

/-- The features that have a flag. -/
def all : FeatureSet := ⟨0x07FF⟩

/-- The set with the given bits, without those that belong to no feature. -/
def ofBits (bits : UInt16) : FeatureSet := ⟨bits &&& all.bits⟩

/-- Every feature of `t` is in `s`. -/
def contains (s t : FeatureSet) : Bool := s.bits &&& t.bits == t.bits

/-- The features of either set. -/
def union (s t : FeatureSet) : FeatureSet := ⟨s.bits ||| t.bits⟩

/-- The features of `s` that are not in `t`. -/
def diff (s t : FeatureSet) : FeatureSet := ⟨s.bits &&& ~~~t.bits⟩

/-- What a login requests unless it is told otherwise. -/
def standard : FeatureSet := ⟨0x07F9⟩

/-- Bit `i` is set. -/
def bit (s : FeatureSet) (i : Nat) : Bool := s.bits.toBitVec.getLsbD i

variable {s s' t u : FeatureSet}

/-- A set holds another if it has all of its bits. -/
theorem contains_iff : s.contains t = true ↔ ∀ i, t.bit i = true → s.bit i = true := by
  rw [contains, beq_iff_eq, ← UInt16.toBitVec_inj, BitVec.eq_of_getLsbD_eq_iff]
  simp only [UInt16.toBitVec_and, BitVec.getLsbD_and, Bool.and_eq_right_iff_imp]
  exact ⟨fun h i hi => h i (BitVec.lt_of_getLsbD hi) hi, fun h i _ => h i⟩

theorem bit_union (s t : FeatureSet) (i : Nat) : (s.union t).bit i = (s.bit i || t.bit i) := by
  rw [bit, union, UInt16.toBitVec_or, BitVec.getLsbD_or, ← bit, ← bit]

theorem bit_diff (s t : FeatureSet) (i : Nat) : (s.diff t).bit i = (s.bit i && !t.bit i) := by
  rw [bit, diff, UInt16.toBitVec_and, UInt16.toBitVec_not, BitVec.getLsbD_and, BitVec.getLsbD_not, ← bit, ← bit]
  rcases Nat.lt_or_ge i 16 with hi | hi
  · rw [decide_eq_true hi, Bool.true_and]
  · have hs : s.bit i = false := BitVec.getLsbD_of_ge _ i hi
    rw [hs, Bool.false_and, Bool.false_and]

/-- Two sets hold the same part of `u` if they agree on the bits of `u`. -/
theorem contains_congr (h : ∀ i, u.bit i = true → s.bit i = s'.bit i) : s.contains u = s'.contains u := by
  rw [Bool.eq_iff_iff, contains_iff, contains_iff]
  exact forall₂_congr fun i hi => by rw [h i hi]

theorem contains_union_self (s t : FeatureSet) : (s.union t).contains t = true :=
  contains_iff.mpr fun i hi => by rw [bit_union, hi, Bool.or_true]

theorem contains_diff_self (s : FeatureSet) (h : t.bits ≠ 0) : (s.diff t).contains t = false := by
  rw [contains, diff, UInt16.and_assoc, UInt16.not_and_self, UInt16.and_zero]
  exact beq_false_of_ne h.symm

theorem bit_of_disjoint (h : t.bits &&& u.bits = 0) {i : Nat} (hi : u.bit i = true) : t.bit i = false := by
  have hboth : (t.bit i && u.bit i) = false := by
    rw [bit, bit, ← BitVec.getLsbD_and, ← UInt16.toBitVec_and, h]
    exact BitVec.getLsbD_zero
  rwa [hi, Bool.and_true] at hboth

/-- What has nothing in common with `u` can be added to a set or taken from it, and makes no difference to `u`. -/
theorem contains_union_of_disjoint (s : FeatureSet) (h : t.bits &&& u.bits = 0) :
    (s.union t).contains u = s.contains u :=
  contains_congr fun i hi => by rw [bit_union, bit_of_disjoint h hi, Bool.or_false]

theorem contains_diff_of_disjoint (s : FeatureSet) (h : t.bits &&& u.bits = 0) :
    (s.diff t).contains u = s.contains u :=
  contains_congr fun i hi => by rw [bit_diff, bit_of_disjoint h hi, Bool.not_false, Bool.and_true]

end FeatureSet

namespace Feature

/-- The identifier of a feature on the wire. -/
def id : Feature → UInt8
  | .sessionRecovery => 0x01
  | .fedAuth => 0x02
  | .columnEncryption => 0x04
  | .globalTransactions => 0x05
  | .azureSqlSupport => 0x08
  | .dataClassification => 0x09
  | .utf8Support => 0x0A
  | .dnsCaching => 0x0B
  | .json => 0x0D
  | .vector => 0x0E
  | .enhancedRouting => 0x0F
  | .terminator => 0xFF

/-- The feature with the given identifier. -/
def ofId? (id : UInt8) : Option Feature :=
  match id.toNat with
  | 0x01 => some .sessionRecovery
  | 0x02 => some .fedAuth
  | 0x04 => some .columnEncryption
  | 0x05 => some .globalTransactions
  | 0x08 => some .azureSqlSupport
  | 0x09 => some .dataClassification
  | 0x0A => some .utf8Support
  | 0x0B => some .dnsCaching
  | 0x0D => some .json
  | 0x0E => some .vector
  | 0x0F => some .enhancedRouting
  | 0xFF => some .terminator
  | _ => none

theorem ofId?_id (f : Feature) : ofId? f.id = some f := by
  cases f <;> rfl

/-- The name of a feature in messages. -/
def name : Feature → String
  | .sessionRecovery => "session recovery"
  | .fedAuth => "federated authentication"
  | .columnEncryption => "column encryption"
  | .globalTransactions => "global transactions"
  | .azureSqlSupport => "Azure SQL support"
  | .dataClassification => "data classification"
  | .utf8Support => "UTF-8 support"
  | .dnsCaching => "DNS caching"
  | .json => "JSON"
  | .vector => "vector"
  | .enhancedRouting => "enhanced routing"
  | .terminator => "terminator"

/-- The set that holds just this feature. -/
def flag : Feature → FeatureSet
  | .sessionRecovery => ⟨0x0001⟩
  | .fedAuth => ⟨0x0002⟩
  | .columnEncryption => ⟨0x0004⟩
  | .globalTransactions => ⟨0x0008⟩
  | .azureSqlSupport => ⟨0x0010⟩
  | .dataClassification => ⟨0x0020⟩
  | .utf8Support => ⟨0x0040⟩
  | .dnsCaching => ⟨0x0080⟩
  | .json => ⟨0x0100⟩
  | .vector => ⟨0x0200⟩
  | .enhancedRouting => ⟨0x0400⟩
  | .terminator => ⟨0⟩

/-- The highest version this client speaks of a feature that has versions. -/
def maxVersion : Feature → UInt8
  | .columnEncryption => 3
  | .dataClassification => 2
  | _ => 1

end Feature

end TdsSession
