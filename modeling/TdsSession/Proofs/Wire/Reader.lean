import TdsSession.Wire.Reader

/-!
# Reading back what was written

`Reads r bytes a` says that `r` takes exactly `bytes` off the front of whatever
begins with them, and gives `a`. What reads one thing after another reads their
bytes one after another (`Reads.bind`), and what reads all of a byte string
reads it after its length (`Reads.exactly`).
-/

namespace TdsSession.Reader

variable {α β : Type} {r : Reader α} {f : α → Reader β} {bytes later : Bytes} {a : α} {b : β}

theorem bind_apply (r : Reader α) (f : α → Reader β) (data : Bytes) :
    (r >>= f) data = (r data).bind fun p => f p.1 p.2 := rfl

/-- `r` reads `a` from `bytes`, and leaves whatever follows them. -/
def Reads (r : Reader α) (bytes : Bytes) (a : α) : Prop := ∀ rest, r (bytes ++ rest) = .ok (a, rest)

namespace Reads

theorem pure (a : α) : Reads (pure a) [] a := fun _ => rfl

theorem bind (h : Reads r bytes a) (hf : Reads (f a) later b) : Reads (r >>= f) (bytes ++ later) b := by
  intro rest
  rw [bind_eq_ok, List.append_assoc]
  exact ⟨a, later ++ rest, h (later ++ rest), hf rest⟩

/-- What has a value without reading leaves the bytes as they are. -/
theorem lift {x : Except ProtocolError α} (h : x = .ok a) : Reads (liftM x) [] a := by
  subst h
  exact fun _ => rfl

/-- A condition that holds leaves the bytes as they are. -/
theorem require {c : Bool} (h : c = true) (e : ProtocolError) : Reads (require c e) [] () := by
  subst h
  exact fun _ => rfl

/-- What reads nothing more leaves the bytes as they are. -/
theorem bind_pure (h : Reads r bytes a) (g : α → β) : Reads (do let a ← r; return g a) bytes (g a) := by
  have := h.bind (f := fun a => Pure.pure (g a)) (Reads.pure (g a))
  rwa [List.append_nil] at this

/-- What comes after the bytes decides whether it can be read. -/
theorem bind_error {rest : Bytes} {e : ProtocolError} (h : Reads r bytes a) (hf : f a rest = .error e) :
    (r >>= f) (bytes ++ rest) = .error e := by
  rw [bind_apply, h rest]
  exact hf

/-- Without anything after them, the bytes are all that is read. -/
theorem whole (h : Reads r bytes a) : r bytes = .ok (a, []) := by
  have := h []
  rwa [List.append_nil] at this

end Reads

theorem reads_take (bytes : Bytes) : Reads (take bytes.length) bytes bytes := by
  intro rest
  unfold take
  rw [if_pos (by simp), List.take_left, List.drop_left]

theorem reads_field {n : Nat} (h : bytes.length = n) : Reads (field n) bytes bytes := by
  intro rest
  unfold field
  rw [if_pos (by simp [h]), List.take_left' h, List.drop_left' h]

/-! ## Words -/

/-- A word is read back by whatever depends on its low-order bytes alone. -/
theorem reads_word {width : Nat} {ofNat : Nat → α} (h : ∀ n, ofNat (n % Nat.pow 256 width) = ofNat n) (n : Nat) :
    Reads (do
      let b ← field width
      return ofNat (Bytes.ofLittleEndian b)) (Bytes.littleEndian width n) (ofNat n) := by
  have hword := (reads_field (Bytes.length_littleEndian width n)).bind_pure fun b => ofNat (Bytes.ofLittleEndian b)
  rwa [Bytes.ofLittleEndian_littleEndian, h] at hword

/-- The same for a word whose most significant byte comes first. -/
theorem reads_wordBig {width : Nat} {ofNat : Nat → α} (h : ∀ n, ofNat (n % Nat.pow 256 width) = ofNat n) (n : Nat) :
    Reads (do
      let b ← field width
      return ofNat (Bytes.ofBigEndian b)) (Bytes.bigEndian width n) (ofNat n) := by
  have hword := (reads_field (Bytes.length_bigEndian width n)).bind_pure fun b => ofNat (Bytes.ofBigEndian b)
  rwa [Bytes.ofBigEndian_bigEndian, h] at hword

theorem reads_u8 (n : Nat) : Reads u8 (Bytes.littleEndian 1 n) (UInt8.ofNat n) :=
  reads_word (fun _ => UInt8.ofNat_mod_size) n

theorem reads_byte (b : UInt8) : Reads u8 [b] b := by
  have hread := reads_u8 b.toNat
  rwa [UInt8.ofNat_toNat, show Bytes.littleEndian 1 b.toNat = [b] by simp [Bytes.littleEndian]] at hread

theorem reads_u16 (n : Nat) : Reads u16 (Bytes.littleEndian 2 n) (UInt16.ofNat n) :=
  reads_word (fun _ => UInt16.ofNat_mod_size) n

theorem reads_u32 (n : Nat) : Reads u32 (Bytes.littleEndian 4 n) (UInt32.ofNat n) :=
  reads_word (fun _ => UInt32.ofNat_mod_size) n

theorem reads_u64 (n : Nat) : Reads u64 (Bytes.littleEndian 8 n) (UInt64.ofNat n) :=
  reads_word (fun _ => UInt64.ofNat_mod_size) n

theorem reads_u16Big (n : Nat) : Reads u16Big (Bytes.bigEndian 2 n) (UInt16.ofNat n) :=
  reads_wordBig (fun _ => UInt16.ofNat_mod_size) n

theorem reads_u32Big (n : Nat) : Reads u32Big (Bytes.bigEndian 4 n) (UInt32.ofNat n) :=
  reads_wordBig (fun _ => UInt32.ofNat_mod_size) n

theorem reads_word16 (n : UInt16) : Reads u16 (Bytes.littleEndian 2 n.toNat) n := by
  have hread := reads_u16 n.toNat
  rwa [UInt16.ofNat_toNat] at hread

theorem reads_word32 (n : UInt32) : Reads u32 (Bytes.littleEndian 4 n.toNat) n := by
  have hread := reads_u32 n.toNat
  rwa [UInt32.ofNat_toNat] at hread

theorem reads_word64 (n : UInt64) : Reads u64 (Bytes.littleEndian 8 n.toNat) n := by
  have hread := reads_u64 n.toNat
  rwa [UInt64.ofNat_toNat] at hread

theorem reads_int32 (n : Int32) : Reads i32 (Bytes.littleEndian 4 n.toUInt32.toNat) n := by
  have hread := (reads_word32 n.toUInt32).bind_pure UInt32.toInt32
  rwa [Int32.toInt32_toUInt32] at hread

theorem reads_bigWord16 (n : UInt16) : Reads u16Big (Bytes.bigEndian 2 n.toNat) n := by
  have hread := reads_u16Big n.toNat
  rwa [UInt16.ofNat_toNat] at hread

theorem reads_bigWord32 (n : UInt32) : Reads u32Big (Bytes.bigEndian 4 n.toNat) n := by
  have hread := reads_u32Big n.toNat
  rwa [UInt32.ofNat_toNat] at hread

/-! ## Counted bytes -/

/-- What is read from given bytes takes none of those that follow. -/
theorem reads_inside {left : Bytes} (h : r bytes = .ok (a, left)) : Reads (inside bytes r) [] a := by
  intro rest
  rw [List.nil_append, inside, h]

/-- What reads a byte string reads it after its length, whatever it leaves of it. -/
theorem reads_within {left : Bytes} (h : r bytes = .ok (a, left)) :
    Reads (within bytes.length r) bytes a := by
  have hwithin := (reads_take bytes).bind (f := fun body => inside body r) (reads_inside h)
  rwa [List.append_nil] at hwithin

/-- What cannot be read from all of the bytes cannot be read within them. -/
theorem within_error {e : ProtocolError} (h : r bytes = .error e) : within bytes.length r bytes = .error e := by
  have hinside : inside bytes r [] = .error e := by rw [inside, h]
  have htake := (reads_take bytes).bind_error (f := fun body => inside body r) hinside
  rwa [List.append_nil] at htake

/-- What reads all of a byte string may be held to that. -/
theorem reads_exactly (h : r bytes = .ok (a, [])) : Reads (exactly bytes.length r) bytes a := by
  have hall : (do
      let value ← r
      let left ← remaining
      require (left = 0) (.incomplete 0 left)
      return value : Reader α) bytes = .ok (a, []) := by
    rw [bind_eq_ok]
    exact ⟨a, [], h, rfl⟩
  exact reads_within hall

end TdsSession.Reader
