import GoSharding.Go.Bytes

/-!
# MySQL wire primitives

The server code calls readers and writers of the `mysql` package, which is not
part of this slice of the repository. They are modelled from the spec's wire
codec (§4.2): little-endian integers, NUL-terminated strings, and length-encoded
integers with the prefixes 0xFB (NULL), 0xFC, 0xFD and 0xFE. A reader returns
`none` where the Go code returns `ok = false`. A writer stores into the packet
buffer and returns the position after what it stored.

Packet writers are straight-line sequences of such writes (`WriteOp`);
`runOps_append` says once what a sequence that fits does to the buffer.
-/

namespace GoSharding

/-! ## Little-endian integers -/

/-- The `n` low bytes of `v`, least significant first: `byte(v)`, `byte(v >> 8)`, ... -/
def leBytes : Nat → Nat → Bytes
  | 0, _ => []
  | n + 1, v => v.toUInt8 :: leBytes n (v / 256)

/-- The number that little-endian bytes spell. -/
def leValue : Bytes → Nat
  | [] => 0
  | b :: bs => b.toNat + 256 * leValue bs

/-- `mysql.WriteUint16`'s bytes. -/
def le16 (v : UInt16) : Bytes := leBytes 2 v.toNat

/-- `mysql.WriteUint32`'s bytes. -/
def le32 (v : UInt32) : Bytes := leBytes 4 v.toNat

@[simp] theorem length_leBytes (n v : Nat) : (leBytes n v).length = n := by
  induction n generalizing v <;> simp [leBytes, *]

@[simp] theorem length_le16 (v : UInt16) : (le16 v).length = 2 := length_leBytes _ _

@[simp] theorem length_le32 (v : UInt32) : (le32 v).length = 4 := length_leBytes _ _

theorem leValue_leBytes (n v : Nat) : leValue (leBytes n v) = v % 256 ^ n := by
  induction n generalizing v with
  | zero => simp [leBytes, leValue, Nat.mod_one]
  | succ n ih => rw [leBytes, leValue, ih, toNat_toUInt8, Nat.pow_succ', Nat.mod_mul]

/-- Go's `byte(v), byte(v >> 8), byte(v >> 16), byte(v >> 24)` spell `le32 v`. -/
theorem le32_shifts (v : UInt32) :
    [v.toUInt8, (v >>> 8).toUInt8, (v >>> 16).toUInt8, (v >>> 24).toUInt8] = le32 v := by
  have h8 : (v >>> 8).toNat = v.toNat / 256 := toNat_shiftRight v 8 (by decide)
  have h16 : (v >>> 16).toNat = v.toNat / 256 / 256 :=
    (toNat_shiftRight v 16 (by decide)).trans (Nat.div_div_eq_div_mul _ 256 256).symm
  have h24 : (v >>> 24).toNat = v.toNat / 256 / 256 / 256 :=
    (toNat_shiftRight v 24 (by decide)).trans (by rw [Nat.div_div_eq_div_mul, Nat.div_div_eq_div_mul]; rfl)
  simp only [le32, leBytes, UInt32.toUInt8, h8, h16, h24]

/-- Go's `byte(v), byte(w)` with `w` holding `v >> 8` spell `le16` of `v`'s lower half. -/
theorem le16_of_shift {v w : UInt32} (hw : w.toNat = v.toNat / 256) : [v.toUInt8, w.toUInt8] = le16 v.toUInt16 := by
  have hv : v.toUInt16.toNat = v.toNat % (256 * 256) := rfl
  simp only [le16, leBytes, UInt32.toUInt8, hw, hv, List.cons.injEq, and_true]
  exact ⟨toUInt8_congr (Nat.mod_mod_of_dvd _ (Nat.dvd_mul_right 256 256)).symm,
    toUInt8_congr (by rw [Nat.mod_mul_right_div_self, Nat.mod_mod])⟩

theorem le16_shifts (v : UInt32) : [v.toUInt8, (v >>> 8).toUInt8] = le16 v.toUInt16 :=
  le16_of_shift (toNat_shiftRight v 8 (by decide))

theorem le16_upper_shifts (v : UInt32) : [(v >>> 16).toUInt8, (v >>> 24).toUInt8] = le16 (v >>> 16).toUInt16 :=
  le16_of_shift <| (toNat_shiftRight v 24 (by decide)).trans <| by
    rw [toNat_shiftRight v 16 (by decide), Nat.div_div_eq_div_mul]; rfl

/-! ## Readers -/

/-- Modelled from the spec: `mysql.ReadByte`, the byte at `pos`. -/
def ReadByte (data : Bytes) (pos : Nat) : Option (UInt8 × Nat) := data[pos]?.map (·, pos + 1)

/-- Modelled from the spec: `mysql.ReadUint32`, four bytes little-endian. -/
def ReadUint32 (data : Bytes) (pos : Nat) : Option (UInt32 × Nat) :=
  if pos + 4 ≤ data.length then some (UInt32.ofNat (leValue ((data.drop pos).take 4)), pos + 4)
  else none

/-- Modelled from the spec: `mysql.ReadNullString`, the bytes up to the next NUL
and the position after the NUL. -/
def ReadNullString (data : Bytes) (pos : Nat) : Option (Bytes × Nat) :=
  (findByte 0 (data.drop pos)).map fun e => ((data.drop pos).take e, pos + e + 1)

/-- `n` little-endian bytes from the front of `rest`, if it has them. -/
def leRead (rest : Bytes) (n : Nat) : Option Nat :=
  if n ≤ rest.length then some (leValue (rest.take n)) else none

/-- Modelled from the spec: `mysql.ReadLenEncInt`. The value, or `none` for the
NULL marker 0xFB, and the position after the encoding. -/
def ReadLenEncInt (data : Bytes) (pos : Nat) : Option (Option Nat × Nat) :=
  match data.drop pos with
  | [] => none
  | b :: rest =>
    if b = 0xFB then some (none, pos + 1)
    else if b = 0xFC then (leRead rest 2).map fun v => (some v, pos + 3)
    else if b = 0xFD then (leRead rest 3).map fun v => (some v, pos + 4)
    else if b = 0xFE then (leRead rest 8).map fun v => (some v, pos + 9)
    else some (some b.toNat, pos + 1)

/-- Modelled from the spec: `mysql.ReadLenEncStringAsBytes`. `none` is
`isOk = false`; `some (none, _)` is `isNULL`. -/
def ReadLenEncStringAsBytes (data : Bytes) (pos : Nat) : Option (Option Bytes × Nat) :=
  match ReadLenEncInt data pos with
  | none => none
  | some (none, p) => some (none, p)
  | some (some n, p) => if p + n ≤ data.length then some (some ((data.drop p).take n), p + n) else none

/-! ## Length-encoded integers -/

/-- Modelled from the spec: `mysql.LenEncIntSize`, 1, 3, 4 or 9. -/
def LenEncIntSize (i : UInt64) : Nat :=
  if i.toNat < 251 then 1 else if i.toNat < 2 ^ 16 then 3 else if i.toNat < 2 ^ 24 then 4 else 9

/-- The bytes `mysql.WriteLenEncInt` stores for `i`. -/
def lenEncInt (i : UInt64) : Bytes :=
  if i.toNat < 251 then [i.toNat.toUInt8]
  else if i.toNat < 2 ^ 16 then 0xFC :: leBytes 2 i.toNat
  else if i.toNat < 2 ^ 24 then 0xFD :: leBytes 3 i.toNat
  else 0xFE :: leBytes 8 i.toNat

/-- A length-encoded string: its length, length-encoded, then its bytes. -/
def lenEncString (s : Bytes) : Bytes := lenEncInt s.length.toUInt64 ++ s

theorem length_lenEncInt (i : UInt64) : (lenEncInt i).length = LenEncIntSize i := by
  unfold lenEncInt LenEncIntSize; split_ifs <;> simp

/-! ## Reading back what was encoded -/

theorem drop_add_of_drop {l a b : Bytes} {n : Nat} (h : l.drop n = a ++ b) : l.drop (n + a.length) = b := by
  rw [← List.drop_drop, h, List.drop_left]

theorem length_le_of_drop {l a b : Bytes} {n : Nat} (h : l.drop n = a ++ b) (ha : a ≠ []) :
    n + a.length ≤ l.length := by
  have := congrArg List.length h
  have : 0 < a.length := List.length_pos.mpr ha
  simp only [List.length_drop, List.length_append] at *
  omega

theorem ReadByte_of_drop {data r : Bytes} {pos : Nat} {b : UInt8} (h : data.drop pos = b :: r) :
    ReadByte data pos = some (b, pos + 1) := by
  simp [ReadByte, ← List.head?_drop, h]

theorem ReadUint32_of_drop {data r : Bytes} {pos : Nat} {v : UInt32} (h : data.drop pos = le32 v ++ r) :
    ReadUint32 data pos = some (v, pos + 4) := by
  have hl := length_le_of_drop h (by simp [le32, leBytes])
  have hlt : v.toNat < 256 ^ 4 := v.toNat_lt_size
  have hv : leValue (le32 v) = v.toNat := by rw [le32, leValue_leBytes, Nat.mod_eq_of_lt hlt]
  simp only [length_le32] at hl
  simp only [ReadUint32, hl, if_true, h, List.take_left' (length_le32 v), hv, Option.some.injEq,
    Prod.mk.injEq, and_true]
  exact UInt32.toNat.inj (UInt32.toNat_ofNat_of_lt v.toNat_lt_size)

theorem ReadNullString_of_drop {data s r : Bytes} {pos : Nat} (hs : 0 ∉ s) (h : data.drop pos = s ++ 0 :: r) :
    ReadNullString data pos = some (s, pos + s.length + 1) := by
  simp [ReadNullString, h, findByte_append s r hs]

theorem ReadLenEncInt_of_drop {data r : Bytes} {pos : Nat} {i : UInt64} (h : data.drop pos = lenEncInt i ++ r) :
    ReadLenEncInt data pos = some (some i.toNat, pos + (lenEncInt i).length) := by
  have hi := i.toNat_lt_size
  simp only [UInt64.size] at hi
  unfold lenEncInt at h ⊢
  split_ifs at h ⊢ with h1 h2 h3
  · simp only [ReadLenEncInt, h, List.singleton_append, byte_eq_iff, toNat_toUInt8, toNat_ofNat_byte]
    simp [Nat.mod_eq_of_lt (by omega : i.toNat < 256), show i.toNat ≠ 251 by omega,
      show i.toNat ≠ 252 by omega, show i.toNat ≠ 253 by omega, show i.toNat ≠ 254 by omega]
  all_goals
    simp only [ReadLenEncInt, h, List.cons_append, leRead, length_leBytes, List.length_append,
      List.take_left' (length_leBytes _ _), leValue_leBytes]
    simp only [byte_eq_iff, toNat_ofNat_byte]
    simp (disch := omega) [Nat.mod_eq_of_lt]

theorem ReadLenEncStringAsBytes_of_drop {data s r : Bytes} {pos : Nat} (hs : s.length < 2 ^ 64)
    (h : data.drop pos = lenEncString s ++ r) :
    ReadLenEncStringAsBytes data pos = some (some s, pos + (lenEncString s).length) := by
  have hn : s.length.toUInt64.toNat = s.length := UInt64.toNat_ofNat_of_lt hs
  have hl := length_le_of_drop h (by simp [lenEncString, lenEncInt]; split_ifs <;> simp)
  rw [lenEncString, List.append_assoc] at h
  have hd := drop_add_of_drop h
  simp only [lenEncString, List.length_append] at hl
  simp only [ReadLenEncStringAsBytes, ReadLenEncInt_of_drop h, hn, hd, List.take_left, lenEncString,
    List.length_append, Nat.add_assoc]
  rw [if_pos (by omega)]

/-! ## Writers -/

/-- The stores of `xs` from `pos` on, and the position after them. -/
def put (data : Bytes) (pos : Nat) (xs : Bytes) : Option (Bytes × Nat) :=
  (store data pos xs).map (·, pos + xs.length)

/-- Modelled from the spec: `mysql.WriteByte`. -/
def WriteByte (data : Bytes) (pos : Nat) (v : UInt8) : Option (Bytes × Nat) := put data pos [v]

/-- Modelled from the spec: `mysql.WriteUint16`, little-endian. -/
def WriteUint16 (data : Bytes) (pos : Nat) (v : UInt16) : Option (Bytes × Nat) := put data pos (le16 v)

/-- Modelled from the spec: `mysql.WriteUint32`, little-endian. -/
def WriteUint32 (data : Bytes) (pos : Nat) (v : UInt32) : Option (Bytes × Nat) := put data pos (le32 v)

/-- Modelled from the spec: `mysql.WriteZeroes`, `n` zero bytes. -/
def WriteZeroes (data : Bytes) (pos : Nat) (n : Nat) : Option (Bytes × Nat) :=
  put data pos (List.replicate n 0)

/-- Modelled from the spec: `mysql.WriteLenEncInt`. -/
def WriteLenEncInt (data : Bytes) (pos : Nat) (i : UInt64) : Option (Bytes × Nat) :=
  put data pos (lenEncInt i)

/-- Modelled from the spec: `mysql.WriteBytes`, `pos += copy(data[pos:], value)`. -/
def WriteBytes (data : Bytes) (pos : Nat) (value : Bytes) : Option (Bytes × Nat) :=
  (copy data pos value).map fun (d, n) => (d, pos + n)

/-- Modelled from the spec: `mysql.WriteNullString`, the bytes then a NUL. -/
def WriteNullString (data : Bytes) (pos : Nat) (value : Bytes) : Option (Bytes × Nat) := do
  let (data, pos) ← WriteBytes data pos value
  WriteByte data pos 0

/-- Modelled from the spec: `mysql.WriteLenEncString`, the length then the bytes. -/
def WriteLenEncString (data : Bytes) (pos : Nat) (value : Bytes) : Option (Bytes × Nat) := do
  let (data, pos) ← WriteLenEncInt data pos value.length.toUInt64
  WriteBytes data pos value

/-- Modelled from the spec: `mysql.LenNullString`. -/
def LenNullString (value : Bytes) : Nat := value.length + 1

/-- `f` writes exactly `a` at the position: on a buffer whose unwritten part `u`
has room for `a`, it stores `a` at the front of `u` and moves past it. -/
def Writes (f : Bytes → Nat → Option (Bytes × Nat)) (a : Bytes) : Prop :=
  ∀ w u, a.length ≤ u.length → f (w ++ u) w.length = some (w ++ a ++ u.drop a.length, w.length + a.length)

theorem put_writes (xs : Bytes) : Writes (put · · xs) xs := fun w u h => by
  simp [put, store_append w u xs h]

theorem WriteBytes_writes (s : Bytes) : Writes (WriteBytes · · s) s := fun w u h => by
  simp [WriteBytes, copy_append w u s h]

/-- Two writers in sequence write one's bytes after the other's. -/
theorem Writes.bind {f g : Bytes → Nat → Option (Bytes × Nat)} {a b : Bytes} (hf : Writes f a)
    (hg : Writes g b) : Writes (fun data pos => (f data pos).bind fun (d, p) => g d p) (a ++ b) := by
  intro w u h
  simp only [List.length_append] at h
  have h2 := hg (w ++ a) (u.drop a.length) (by simp; omega)
  simp only [List.length_append, List.append_assoc, List.drop_drop, Nat.add_assoc] at h2
  simp [hf w u (by omega), h2, Nat.add_comm b.length]

theorem WriteNullString_writes (s : Bytes) : Writes (WriteNullString · · s) (s ++ [0]) :=
  (WriteBytes_writes s).bind (put_writes [0])

theorem WriteLenEncString_writes (s : Bytes) : Writes (WriteLenEncString · · s) (lenEncString s) :=
  (put_writes _).bind (WriteBytes_writes s)

/-! ## Straight-line packet writers -/

/-- One statement of a packet writer: `pos = mysql.WriteX(data, pos, v)`, or
`copy(data[pos:], s)` followed by `pos += len(s)`. -/
inductive WriteOp
  | byte (v : UInt8)
  | uint16 (v : UInt16)
  | uint32 (v : UInt32)
  | zeroes (n : Nat)
  | lenEncInt (i : UInt64)
  | lenEncString (s : Bytes)
  | nullString (s : Bytes)
  | bytes (s : Bytes)
  | copyAdvance (s : Bytes)

namespace WriteOp

/-- The statement run on the buffer at `pos`. -/
def exec : WriteOp → Bytes → Nat → Option (Bytes × Nat)
  | byte v, data, pos => WriteByte data pos v
  | uint16 v, data, pos => WriteUint16 data pos v
  | uint32 v, data, pos => WriteUint32 data pos v
  | zeroes n, data, pos => WriteZeroes data pos n
  | lenEncInt i, data, pos => WriteLenEncInt data pos i
  | lenEncString s, data, pos => WriteLenEncString data pos s
  | nullString s, data, pos => WriteNullString data pos s
  | bytes s, data, pos => WriteBytes data pos s
  | copyAdvance s, data, pos => (copy data pos s).map fun (d, _) => (d, pos + s.length)

/-- The bytes the statement means to write. -/
def out : WriteOp → Bytes
  | byte v => [v]
  | uint16 v => le16 v
  | uint32 v => le32 v
  | zeroes n => List.replicate n 0
  | lenEncInt i => GoSharding.lenEncInt i
  | lenEncString s => GoSharding.lenEncString s
  | nullString s => s ++ [0]
  | bytes s => s
  | copyAdvance s => s

theorem exec_writes : ∀ op : WriteOp, Writes op.exec op.out
  | byte v => put_writes [v]
  | uint16 v => put_writes (le16 v)
  | uint32 v => put_writes (le32 v)
  | zeroes n => put_writes _
  | lenEncInt i => put_writes _
  | lenEncString s => WriteLenEncString_writes s
  | nullString s => WriteNullString_writes s
  | bytes s => WriteBytes_writes s
  | copyAdvance s => fun w u h => by simp [exec, out, copy_append w u s h]

end WriteOp

/-- A writer's statements run in order from `pos`; the first panic stops it. -/
def runOps : List WriteOp → Bytes → Nat → Option (Bytes × Nat)
  | [], data, pos => some (data, pos)
  | op :: ops, data, pos => (op.exec data pos).bind fun (data, pos) => runOps ops data pos

/-- Statements whose bytes fit write them one after another. -/
theorem runOps_writes : ∀ ops : List WriteOp, Writes (runOps ops) (ops.flatMap WriteOp.out)
  | [] => fun w u _ => by simp [runOps]
  | op :: ops => (op.exec_writes).bind (runOps_writes ops)

/-- Filling a whole buffer from position 0: the buffer becomes the statements'
bytes, and the position its length. -/
theorem runOps_fill (ops : List WriteOp) (buf : Bytes) (h : buf.length = (ops.flatMap WriteOp.out).length) :
    runOps ops buf 0 = some (ops.flatMap WriteOp.out, buf.length) := by
  have := runOps_writes ops [] buf (by omega)
  simp only [List.nil_append, List.length_nil, Nat.zero_add] at this
  rw [this, ← h, List.drop_length]
  simp [h]

end GoSharding
