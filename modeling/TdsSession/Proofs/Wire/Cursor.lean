import TdsSession.Wire.Reader

/-!
# Reading without looking

A reader refuses what is too short wherever it reads. A decoder does not: it
looks once at how much is left, and then reads several fields, each without
looking. A cursor keeps the two apart. Reading bytes that are not there is an
outcome of its own (`CursorStop.overrun`), which no decoder may have.

A decoder is shown to be free of it by showing that it is a reader
(`Reader.toCursor`). Between a check and the last field that relies on it, a
cursor is a reader only on data that pass the check (`Cursor.Guarded`).
-/

namespace TdsSession

/-- Why a cursor stops. -/
inductive CursorStop
  /-- The data are refused. -/
  | refused (e : ProtocolError)
  /-- Bytes were read that are not there. -/
  | overrun
deriving DecidableEq, Repr

/-- Takes a value off the front of a byte string, and may run past its end. -/
abbrev Cursor := StateT Bytes (Except CursorStop)

namespace Cursor

variable {α β γ : Type}

/-- The next `n` bytes, which have to be there. -/
def next (n : Nat) : Cursor Bytes := fun data =>
  if n ≤ data.length then .ok (data.take n, data.drop n) else .error .overrun

/-- The bytes of `data` from `start` to before `stop`, which have to be there. -/
def slice (data : Bytes) (start stop : Nat) : Except CursorStop Bytes :=
  if start ≤ stop ∧ stop ≤ data.length then .ok ((data.take stop).drop start) else .error .overrun

/-- Refuses data of fewer than `n` bytes. -/
def need (n : Nat) (e : Nat → ProtocolError) : Cursor Unit := fun data =>
  if data.length < n then .error (.refused (e data.length)) else .ok ((), data)

def refuse (e : ProtocolError) : Cursor α := fun _ => .error (.refused e)

/-- The number of bytes that are left. -/
def remaining : Cursor Nat := do
  return (← get).length

/-- A value without reading, unless it is refused. -/
def accept (x : Except ProtocolError α) : Cursor α := fun data =>
  match x with
  | .ok a => .ok (a, data)
  | .error e => .error (.refused e)

def u8 : Cursor UInt8 := do
  return UInt8.ofNat (Bytes.ofLittleEndian (← next 1))

def u16 : Cursor UInt16 := do
  return UInt16.ofNat (Bytes.ofLittleEndian (← next 2))

def u32 : Cursor UInt32 := do
  return UInt32.ofNat (Bytes.ofLittleEndian (← next 4))

def u64 : Cursor UInt64 := do
  return UInt64.ofNat (Bytes.ofLittleEndian (← next 8))

def i32 : Cursor Int32 := do
  return (← u32).toInt32

def u16Big : Cursor UInt16 := do
  return UInt16.ofNat (Bytes.ofBigEndian (← next 2))

def u32Big : Cursor UInt32 := do
  return UInt32.ofNat (Bytes.ofBigEndian (← next 4))

/-- The next `n` bytes, if they are there. -/
def part (n : Nat) : Cursor Bytes := do
  need n (.incomplete n)
  next n

/-- Runs `c` on exactly the given bytes. -/
def inside (data : Bytes) (c : Cursor α) : Cursor α := fun rest =>
  match c data with
  | .ok (a, _) => .ok (a, rest)
  | .error e => .error e

/-- Runs `c` on the next `n` bytes, if they are there. -/
def within (n : Nat) (c : Cursor α) : Cursor α := do
  let body ← part n
  inside body c

/-- `c` with the reason for which it refuses changed by `f`. -/
def mapError (f : ProtocolError → ProtocolError) (c : Cursor α) : Cursor α := fun data =>
  match c data with
  | .error (.refused e) => .error (.refused (f e))
  | result => result

/-- Collects what `step` gives until it gives nothing. -/
def collect (step : Cursor (Option α))
    (h : ∀ {data a rest}, step data = .ok (some a, rest) → rest.length < data.length) : Cursor (List α) := fun data =>
  match _hstep : step data with
  | .error e => .error e
  | .ok (none, rest) => .ok ([], rest)
  | .ok (some a, rest) =>
    match collect step h rest with
    | .error e => .error e
    | .ok (as, tail) => .ok (a :: as, tail)
termination_by data => data.length
decreasing_by exact h _hstep

end Cursor

/-! ## Readers as cursors -/

namespace Reader

variable {α β : Type}

/-- A reader as a cursor. -/
def toCursor (r : Reader α) : Cursor α := fun data => (r data).mapError .refused

/-- Readers do not overrun. -/
theorem toCursor_ne_overrun (r : Reader α) (data : Bytes) : r.toCursor data ≠ .error .overrun := by
  unfold toCursor
  cases r data with
  | error e => exact fun h => nomatch h
  | ok p => exact fun h => nomatch h

theorem toCursor_bind (r : Reader α) (f : α → Reader β) :
    (r >>= f).toCursor = r.toCursor >>= fun a => (f a).toCursor := by
  funext data
  show ((r data).bind fun p => f p.1 p.2).mapError _ = ((r data).mapError _).bind fun p => (f p.1).toCursor p.2
  cases r data <;> rfl

theorem toCursor_lift (x : Except ProtocolError α) : (liftM x : Reader α).toCursor = Cursor.accept x := by
  cases x <;> rfl

theorem toCursor_remaining : remaining.toCursor = Cursor.remaining := rfl

theorem toCursor_take (n : Nat) : (take n).toCursor = Cursor.part n := by
  funext data
  show (take n data).mapError _ = (Cursor.need n (.incomplete n) data).bind fun p => Cursor.next n p.2
  unfold take Cursor.need
  by_cases h : n ≤ data.length
  · rw [if_pos h, if_neg (Nat.not_lt_of_le h)]
    exact (if_pos h).symm
  · rw [if_neg h, if_pos (Nat.lt_of_not_le h)]
    rfl

theorem toCursor_inside (data : Bytes) (r : Reader α) : (inside data r).toCursor = Cursor.inside data r.toCursor := by
  funext rest
  unfold toCursor inside Cursor.inside
  dsimp only
  cases r data <;> rfl

theorem toCursor_mapError (f : ProtocolError → ProtocolError) (r : Reader α) :
    (r.mapError f).toCursor = r.toCursor.mapError f := by
  funext data
  unfold toCursor mapError Cursor.mapError
  dsimp only
  cases r data <;> rfl

end Reader

/-! ## Checks that later reads rely on -/

namespace Cursor

variable {α β γ : Type} {n m : Nat}

/-- What reads as readers do one after another is a reader. -/
theorem bind_eq {c : Cursor α} {r : Reader α} {f : α → Cursor β} {g : α → Reader β} (h : c = r.toCursor)
    (hf : ∀ a, f a = (g a).toCursor) : c >>= f = (r >>= g).toCursor := by
  rw [Reader.toCursor_bind, h, funext hf]

/-- With `n` bytes left `c` reads what `r` does, and with fewer `r` finds the end of the data. -/
structure Guarded (n : Nat) (c : Cursor α) (r : Reader α) : Prop where
  enough : ∀ data, n ≤ data.length → c data = r.toCursor data
  short : ∀ data, data.length < n → r data = .error .unexpectedEnd

namespace Guarded

variable {c : Cursor α} {r : Reader α}

/-- What needs no check is checked. -/
theorem of_eq (h : c = r.toCursor) : Guarded 0 c r where
  enough data _ := by rw [h]
  short _ hshort := absurd hshort (Nat.not_lt_zero _)

/-- Bytes that are read without looking are among those that were checked. -/
theorem next {f : Bytes → Cursor β} {g : Bytes → Reader β} (h : ∀ bytes, Guarded m (f bytes) (g bytes)) :
    Guarded (m + n) (next n >>= f) (Reader.field n >>= g) where
  enough data henough := by
    have hbytes : n ≤ data.length := Nat.le_of_add_left_le henough
    have hrest : m ≤ (data.drop n).length := by
      rw [List.length_drop]
      omega
    show (Cursor.next n data).bind (fun p => f p.1 p.2) = ((Reader.field n data).bind fun p => g p.1 p.2).mapError _
    rw [Cursor.next, if_pos hbytes, Reader.field, if_pos hbytes]
    exact (h _).enough _ hrest
  short data hshort := by
    show (Reader.field n data).bind (fun p => g p.1 p.2) = _
    unfold Reader.field
    by_cases hbytes : n ≤ data.length
    · have hrest : (data.drop n).length < m := by
        rw [List.length_drop]
        omega
      rw [if_pos hbytes]
      exact (h _).short _ hrest
    · rw [if_neg hbytes]
      rfl

/-- The same for a word. -/
theorem word {f : γ → Cursor β} {g : γ → Reader β} (toWord : Bytes → γ) (h : ∀ a, Guarded m (f a) (g a)) :
    Guarded (m + n) ((do
      let bytes ← Cursor.next n
      return toWord bytes) >>= f) ((do
        let bytes ← Reader.field n
        return toWord bytes) >>= g) := by
  simp only [bind_assoc, pure_bind]
  exact next fun bytes => h (toWord bytes)

variable {f8 : UInt8 → Cursor β} {g8 : UInt8 → Reader β} {f16 : UInt16 → Cursor β} {g16 : UInt16 → Reader β}
  {f32 : UInt32 → Cursor β} {g32 : UInt32 → Reader β}

theorem u8 (h : ∀ a, Guarded m (f8 a) (g8 a)) : Guarded (m + 1) (u8 >>= f8) (Reader.u8 >>= g8) :=
  word _ h

theorem u16 (h : ∀ a, Guarded m (f16 a) (g16 a)) : Guarded (m + 2) (u16 >>= f16) (Reader.u16 >>= g16) :=
  word _ h

theorem u32 (h : ∀ a, Guarded m (f32 a) (g32 a)) : Guarded (m + 4) (u32 >>= f32) (Reader.u32 >>= g32) :=
  word _ h

theorem u64 {f : UInt64 → Cursor β} {g : UInt64 → Reader β} (h : ∀ a, Guarded m (f a) (g a)) :
    Guarded (m + 8) (u64 >>= f) (Reader.u64 >>= g) :=
  word _ h

theorem i32 {f : Int32 → Cursor β} {g : Int32 → Reader β} (h : ∀ a, Guarded m (f a) (g a)) :
    Guarded (m + 4) (i32 >>= f) (Reader.i32 >>= g) := by
  unfold Cursor.i32 Reader.i32
  simp only [bind_assoc, pure_bind]
  exact u32 fun a => h a.toInt32

theorem u16Big (h : ∀ a, Guarded m (f16 a) (g16 a)) : Guarded (m + 2) (u16Big >>= f16) (Reader.u16Big >>= g16) :=
  word _ h

theorem u32Big (h : ∀ a, Guarded m (f32 a) (g32 a)) : Guarded (m + 4) (u32Big >>= f32) (Reader.u32Big >>= g32) :=
  word _ h

/-- A check makes what it guards a reader. -/
theorem need_end (h : Guarded n c r) : (do
    need n fun _ => .unexpectedEnd
    c) = r.toCursor := by
  funext data
  show (need n (fun _ => .unexpectedEnd) data).bind (fun p => c p.2) = (r data).mapError _
  unfold need
  by_cases hshort : data.length < n
  · rw [if_pos hshort, h.short data hshort]
    rfl
  · rw [if_neg hshort]
    exact h.enough data (Nat.le_of_not_lt hshort)

/-- The same for a check that says how much it needs. -/
theorem need_size (h : Guarded n c r) : (do
    need n (.incomplete n)
    c) = (do
      let left ← Reader.remaining
      Reader.require (n ≤ left) (.incomplete n left)
      r : Reader α).toCursor := by
  funext data
  show (need n (.incomplete n) data).bind (fun p => c p.2) =
    ((Reader.require (n ≤ data.length) (.incomplete n data.length) data).bind fun p => r p.2).mapError _
  unfold need Reader.require
  by_cases hshort : data.length < n
  · rw [if_pos hshort, decide_eq_false (Nat.not_le_of_lt hshort)]
    rfl
  · rw [if_neg hshort, decide_eq_true (Nat.le_of_not_lt hshort)]
    exact h.enough data (Nat.le_of_not_lt hshort)

/-- A body that is long enough needs no check of its own. -/
theorem within (h : Guarded m c r) (hm : m ≤ n) : within n c = (Reader.within n r).toCursor := by
  funext data
  show (part n data).bind (fun p => inside p.1 c p.2) = ((Reader.take n data).bind _).mapError _
  rw [← Reader.toCursor_take, Reader.toCursor]
  cases htake : Reader.take n data with
  | error e => rfl
  | ok p =>
    obtain ⟨body, rest⟩ := p
    have hbody : c body = r.toCursor body := h.enough body (by rw [(Reader.take_eq_ok htake).2]; exact hm)
    show inside body c rest = (Reader.inside body r).toCursor rest
    rw [Reader.toCursor_inside, inside, hbody]
    rfl

end Guarded

/-- Collecting what a reader gives reads the list of it. -/
theorem collect_eq {step : Cursor (Option α)}
    {h : ∀ {data a rest}, step data = .ok (some a, rest) → rest.length < data.length} {list : Reader (List α)}
    (hlist : ∀ data, list.toCursor data = match step data with
      | .error e => .error e
      | .ok (none, rest) => .ok ([], rest)
      | .ok (some a, rest) =>
        match list.toCursor rest with
        | .error e => .error e
        | .ok (as, tail) => .ok (a :: as, tail)) : collect step h = list.toCursor := by
  funext data
  induction hlength : data.length using Nat.strongRecOn generalizing data with
  | ind length ih =>
    rw [collect, hlist]
    cases hstep : step data with
    | error e => rfl
    | ok p =>
      obtain ⟨_ | a, rest⟩ := p
      · rfl
      · dsimp only
        rw [ih rest.length (hlength ▸ h hstep) rest rfl]

end Cursor

end TdsSession
