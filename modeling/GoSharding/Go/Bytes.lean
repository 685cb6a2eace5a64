import Mathlib.Data.List.Basic
import Mathlib.Data.Int.Defs
import Mathlib.Algebra.Group.Int

/-!
# Go byte slices

The protocol code works on Go `[]byte` values in place. A slice read from the
connection is a window on a recycled buffer: indexing checks the slice's length,
but `data[lo:hi]` checks only the capacity, so it can reach bytes a previous
packet left behind. Stores `data[pos] = b` and `copy` into a reserved packet
buffer panic, or silently write less, when they run past its end.

Throughout, `none` is a run-time panic of the Go program.
-/

namespace GoSharding

/-- The contents of a Go `[]byte` or `string`. -/
abbrev Bytes := List UInt8

/-- The bytes of an ASCII string constant of the source. -/
def ascii (s : String) : Bytes := s.toList.map Char.toUInt8

@[simp] theorem toNat_toUInt8 (n : Nat) : n.toUInt8.toNat = n % 256 := by
  simp [Nat.toUInt8, UInt8.ofNat, UInt8.toNat, BitVec.toNat_ofNat]

theorem toNat_ofNat_byte (n : Nat) : (no_index (OfNat.ofNat n : UInt8)).toNat = n % 256 := toNat_toUInt8 n

theorem byte_eq_iff {a b : UInt8} : a = b ↔ a.toNat = b.toNat :=
  ⟨congrArg _, UInt8.toNat.inj⟩

theorem toUInt8_toNat (b : UInt8) : b.toNat.toUInt8 = b :=
  UInt8.toNat.inj (by simp [Nat.mod_eq_of_lt b.toNat_lt_size])

theorem toUInt8_congr {a b : Nat} (h : a % 256 = b % 256) : a.toUInt8 = b.toUInt8 := byte_eq_iff.2 (by simp [h])

/-- Go's `v >> k` on a `uint32`, for a shift below the width. -/
theorem toNat_shiftRight (v k : UInt32) (hk : k.toNat < 32) : (v >>> k).toNat = v.toNat / 2 ^ k.toNat := by
  show (v.toBitVec >>> (k.mod 32).toBitVec.toNat).toNat = _
  rw [BitVec.toNat_ushiftRight, Nat.shiftRight_eq_div_pow,
    show (k.mod 32).toBitVec.toNat = k.toNat from Nat.mod_eq_of_lt hk]
  rfl

/-- The index of the first `c` in a byte string. -/
def findByte (c : UInt8) : Bytes → Option Nat
  | [] => none
  | b :: bs => if b = c then some 0 else (findByte c bs).map (· + 1)

/-- `bytes.IndexByte`: the index of the first `c`, or `-1`. -/
def IndexByte (s : Bytes) (c : UInt8) : Int := ((findByte c s).map Int.ofNat).getD (-1)

theorem findByte_append (s r : Bytes) {c : UInt8} (hs : c ∉ s) :
    findByte c (s ++ c :: r) = some s.length := by
  induction s with
  | nil => simp [findByte]
  | cons b s ih =>
    simp only [List.mem_cons, not_or] at hs
    simp [findByte, Ne.symm hs.1, ih hs.2]

theorem findByte_of_not_mem {s : Bytes} {c : UInt8} (hs : c ∉ s) : findByte c s = none := by
  induction s with
  | nil => rfl
  | cons b s ih =>
    simp only [List.mem_cons, not_or] at hs
    simp [findByte, Ne.symm hs.1, ih hs.2]

theorem IndexByte_append (s r : Bytes) {c : UInt8} (hs : c ∉ s) :
    IndexByte (s ++ c :: r) c = s.length := by
  simp [IndexByte, findByte_append s r hs]

theorem IndexByte_of_not_mem {s : Bytes} {c : UInt8} (hs : c ∉ s) : IndexByte s c = -1 := by
  simp [IndexByte, findByte_of_not_mem hs]

/-- Go's conversion `uint16(i)` of an `int`: its low 16 bits. -/
def goUint16 (i : Int) : UInt16 := UInt16.ofNat (i % 65536).toNat

/-! ## Slices read from the connection -/

/-- A byte slice: its backing array from the slice's start up to its capacity,
and its length. The bytes between length and capacity are stale. -/
structure Slice where
  buf : Bytes
  len : Nat
  len_le : len ≤ buf.length

namespace Slice

/-- The slice's elements, `data[0:len(data)]`. -/
def bytes (s : Slice) : Bytes := s.buf.take s.len

/-- A slice whose elements are `p`, with `stale` after them up to the capacity. -/
def withCap (p stale : Bytes) : Slice := ⟨p ++ stale, p.length, by simp⟩

/-- `s[i]`. -/
def get (s : Slice) (i : Nat) : Option UInt8 := if i < s.len then s.buf[i]? else none

/-- The elements of `s[lo:]`. -/
def drop (s : Slice) (lo : Nat) : Option Bytes := if lo ≤ s.len then some (s.bytes.drop lo) else none

/-- The elements of `s[lo:hi]`; `hi` is a Go `int`, and only the capacity bounds it. -/
def sub (s : Slice) (lo : Nat) (hi : Int) : Option Bytes :=
  if lo ≤ hi ∧ hi ≤ s.buf.length then some ((s.buf.drop lo).take (hi.toNat - lo)) else none

@[simp] theorem withCap_bytes (p stale : Bytes) : (withCap p stale).bytes = p := by
  simp [bytes, withCap]

@[simp] theorem length_bytes (s : Slice) : s.bytes.length = s.len := by
  simp [bytes, s.len_le]

theorem get_of_drop {s : Slice} {pos : Nat} {b : UInt8} {r : Bytes} (h : s.bytes.drop pos = b :: r) :
    s.get pos = some b := by
  have hl : pos < s.len := by
    have := congrArg List.length h
    simp only [List.length_drop, length_bytes, List.length_cons] at this; omega
  have : s.bytes[pos]? = some b := by rw [← List.head?_drop, h]; rfl
  simpa [get, hl, bytes, List.getElem?_take, hl] using this

theorem get_of_len_le {s : Slice} {pos : Nat} (h : s.len ≤ pos) : s.get pos = none := by
  simp [get, Nat.not_lt.mpr h]

theorem drop_of_le {s : Slice} {pos : Nat} (h : pos ≤ s.len) : s.drop pos = some (s.bytes.drop pos) := by
  simp [Slice.drop, h]

theorem sub_of_drop {s : Slice} {pos : Nat} {a r : Bytes} {hi : Int} (hp : pos ≤ s.len)
    (h : s.bytes.drop pos = a ++ r) (hhi : hi = ↑(pos + a.length)) : s.sub pos hi = some a := by
  subst hhi
  have hl := congrArg List.length h
  simp only [List.length_drop, length_bytes, List.length_append] at hl
  have hb : (s.buf.drop pos).take a.length = a := by
    have : s.bytes.drop pos = (s.buf.drop pos).take (s.len - pos) := by
      simp [bytes, List.drop_take]
    rw [this] at h
    calc (s.buf.drop pos).take a.length
        = ((s.buf.drop pos).take (s.len - pos)).take a.length := by
          rw [List.take_take, Nat.min_eq_left (by omega)]
      _ = a := by rw [h, List.take_left]
  have hcap := s.len_le
  simp only [sub]
  rw [if_pos (by omega), show ((pos + a.length : Nat) : Int).toNat - pos = a.length by omega, hb]

/-- A slice over all of `b`, as `make` gives it: nothing past its length. -/
def ofBytes (b : Bytes) : Slice := ⟨b, b.length, le_refl _⟩

theorem ofBytes_sub {b : Bytes} {hi : Nat} (h : hi ≤ b.length) : (ofBytes b).sub 0 hi = some (b.take hi) := by
  simp [sub, ofBytes, h, Int.natCast_nonneg]

theorem ofBytes_drop {b : Bytes} {lo : Nat} (h : lo ≤ b.length) : (ofBytes b).drop lo = some (b.drop lo) := by
  simp [Slice.drop, ofBytes, bytes, h]

theorem sub_of_lt {s : Slice} {pos : Nat} {hi : Int} (h : hi < pos) : s.sub pos hi = none := by
  simp only [sub]; rw [if_neg (by omega)]

end Slice

/-! ## Stores into a reserved packet buffer -/

/-- The stores `data[pos] = xs[0]`, `data[pos+1] = xs[1]`, ... in order; the first
one past the end panics. -/
def store : Bytes → Nat → Bytes → Option Bytes
  | data, _, [] => some data
  | data, pos, x :: xs => if pos < data.length then store (data.set pos x) (pos + 1) xs else none

/-- `copy(data[pos:], src)`: the buffer after copying as much of `src` as fits, and
the count copied. -/
def copy (data : Bytes) (pos : Nat) (src : Bytes) : Option (Bytes × Nat) :=
  if pos ≤ data.length then
    (store data pos (src.take (data.length - pos))).map fun d => (d, min (data.length - pos) src.length)
  else none

/-- Stores that fit into the unwritten part `u` of a buffer leave `u`'s tail as it was. -/
theorem store_append : ∀ (w u xs : Bytes), xs.length ≤ u.length →
    store (w ++ u) w.length xs = some (w ++ xs ++ u.drop xs.length)
  | w, u, [], _ => by simp [store]
  | _, [], _ :: _, h => by simp at h
  | w, y :: u, x :: xs, h => by
    have hset : (w ++ y :: u).set w.length x = (w ++ [x]) ++ u := by simp [List.set_append]
    have ih := store_append (w ++ [x]) u xs (by simp at h; omega)
    simp only [List.length_append, List.length_singleton] at ih
    simp only [store, List.length_append, List.length_cons]
    rw [if_pos (by omega), hset, ih]
    simp

theorem copy_append (w u src : Bytes) (h : src.length ≤ u.length) :
    copy (w ++ u) w.length src = some (w ++ src ++ u.drop src.length, src.length) := by
  have hroom : (w ++ u).length - w.length = u.length := by simp
  simp only [copy, List.length_append, Nat.le_add_right, if_true]
  rw [show w.length + u.length - w.length = u.length by omega, List.take_of_length_le h,
    store_append w u src h]
  simp [Nat.min_eq_right h]

end GoSharding
