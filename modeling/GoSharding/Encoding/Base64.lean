import GoSharding.Go.Bytes

/-!
# Go's `encoding/base64`, standard encoding

`encodeBytesASCII` writes a value's bytes with `StdEncoding`, and `encoding/json`
reads a JSON string into a `[]byte` with `StdEncoding.Decode`. `Encode` turns
each three bytes into four characters of the alphabet and pads the last group
with `=`; `Decode` reads four characters a quantum, skips `\n` and `\r`, and
reports a `CorruptInputError` by its offset.

What the decoder accepts is ASCII, and it returns at most three bytes for every
four it reads (`Decode_ascii`, `Decode_length`); on what `Encode` writes it
returns the bytes encoded (`Decode_Encode`).
-/

namespace GoSharding

/-- `encodeStd`, the alphabet of `StdEncoding`. -/
def encodeStd : Bytes := ascii "ABCDEFGHIJKLMNOPQRSTUVWXYZabcdefghijklmnopqrstuvwxyz0123456789+/"

/-- `enc.encode[i & 0x3F]` -/
def encodeChar (i : Nat) : UInt8 := encodeStd.getD (i % 64) 0

/-- `enc.decodeMap`: a byte's place in the alphabet, `0xFF` for every other byte. -/
def decodeMap (c : UInt8) : UInt8 := ((encodeStd.indexOf? c).getD 0xFF).toUInt8

/-- `StdEncoding.Encode(dst, src)`: each three bytes `val = b0<<16 | b1<<8 | b2` as
four characters of six bits each, and a last group of one or two bytes as two or
three characters and `=` padding. The shifted fields are disjoint, so the `|` of
the code is a sum here. -/
def Encode : Bytes → Bytes
  | b0 :: b1 :: b2 :: rest =>
    let val := b0.toNat * 2 ^ 16 + b1.toNat * 2 ^ 8 + b2.toNat
    [encodeChar (val / 2 ^ 18), encodeChar (val / 2 ^ 12), encodeChar (val / 2 ^ 6), encodeChar val] ++ Encode rest
  | [b0, b1] =>
    let val := b0.toNat * 2 ^ 16 + b1.toNat * 2 ^ 8
    [encodeChar (val / 2 ^ 18), encodeChar (val / 2 ^ 12), encodeChar (val / 2 ^ 6), '='.toUInt8]
  | [b0] =>
    let val := b0.toNat * 2 ^ 16
    [encodeChar (val / 2 ^ 18), encodeChar (val / 2 ^ 12), '='.toUInt8, '='.toUInt8]
  | [] => []

/-- `\n` and `\r`, which the decoder skips. -/
def isNewline (c : UInt8) : Bool := c = '\n'.toUInt8 ∨ c = '\r'.toUInt8

/-- The loops `for si < len(src) && (src[si] == '\n' || src[si] == '\r') { si++ }`:
the count skipped and the bytes after them. -/
def skipNewlines : Bytes → Nat × Bytes
  | c :: rest => if isNewline c then ((skipNewlines rest).1 + 1, (skipNewlines rest).2) else (0, c :: rest)
  | [] => (0, [])

/-- The end of `decodeQuantum`: `val = dbuf[0]<<18 | dbuf[1]<<12 | dbuf[2]<<6 | dbuf[3]`,
the values not read being 0, and its first `dlen - 1` bytes. -/
def assemble (dbuf : List Nat) : Bytes :=
  let val := dbuf.getD 0 0 * 2 ^ 18 + dbuf.getD 1 0 * 2 ^ 12 + dbuf.getD 2 0 * 2 ^ 6 + dbuf.getD 3 0
  [(val / 2 ^ 16).toUInt8, (val / 2 ^ 8).toUInt8, val.toUInt8].take (dbuf.length - 1)

/-- `decodeQuantum` after a `=` at place `j = dbuf.length` of the quantum, with
`si` the offset after it: `==` must end a quantum of two characters and `=` one of
three, and only newlines may follow. -/
def decodePadding (dbuf : List Nat) (si : Nat) (rest : Bytes) : Except Nat Bytes :=
  let tail (si : Nat) (rest : Bytes) : Except Nat Bytes :=
    if (skipNewlines rest).2 = [] then .ok (assemble dbuf)
    else .error (si + (skipNewlines rest).1)
  if dbuf.length = 2 then
    match skipNewlines rest with
    | (k, []) => .error (si + k)
    | (k, c :: r) => if c ≠ '='.toUInt8 then .error (si + k - 1) else tail (si + k + 1) r
  else if dbuf.length = 3 then tail si rest
  else .error (si - 1)

/-- `Decode` calls `decodeQuantum` until the input is used up; the two loops are
one recursion here, `dbuf` holding the values of the quantum read so far and `si`
the offset reached. The error is the `CorruptInputError` offset. The fast paths
of the code decode four or eight alphabet characters at once, as the quantum
loop does. -/
def decodeLoop : List Nat → Nat → Bytes → Except Nat Bytes
  | dbuf, si, [] => if dbuf = [] then .ok [] else .error (si - dbuf.length)
  | dbuf, si, c :: rest =>
    if decodeMap c ≠ 0xFF then
      if dbuf.length = 3 then (assemble (dbuf ++ [(decodeMap c).toNat]) ++ ·) <$> decodeLoop [] (si + 1) rest
      else decodeLoop (dbuf ++ [(decodeMap c).toNat]) (si + 1) rest
    else if isNewline c then decodeLoop dbuf (si + 1) rest
    else if c ≠ '='.toUInt8 then .error si
    else decodePadding dbuf (si + 1) rest

/-- `StdEncoding.Decode(dst, src)`: the bytes decoded, or the offset of the
corrupt input. On an error the code also returns the count written so far, which
its one caller here drops. -/
def Decode (src : Bytes) : Except Nat Bytes := decodeLoop [] 0 src

/-! ## The alphabet -/

theorem encodeStd_ascii : ∀ c ∈ encodeStd, c.toNat < 0x80 := by decide

theorem encodeChar_ascii (i : Nat) : (encodeChar i).toNat < 0x80 := by
  have h : ∀ j < 64, (encodeStd.getD j 0).toNat < 0x80 := by decide
  exact h _ (Nat.mod_lt _ (by decide))

theorem encodeStd_nodup : (encodeStd.map UInt8.toNat).Nodup := by decide

/-- In a list without repeats, the first place of the byte at place `j` is `j`. -/
theorem indexOf?_getD_of_nodup {l : Bytes} (hl : (l.map UInt8.toNat).Nodup) {j : Nat} (hj : j < l.length) :
    l.indexOf? (l.getD j 0) = some j := by
  induction l generalizing j with
  | nil => exact absurd hj (Nat.not_lt_zero _)
  | cons a l ih =>
    rw [List.map_cons, List.nodup_cons] at hl
    cases j with
    | zero => simp [List.indexOf?_cons]
    | succ k =>
      have hk : k < l.length := Nat.lt_of_succ_lt_succ hj
      have hmem : l.getD k 0 ∈ l := by
        rw [List.getD_eq_getElem?_getD, List.getElem?_eq_getElem hk]
        exact List.getElem_mem hk
      have hne : a ≠ l.getD k 0 := fun h => hl.1 (h ▸ List.mem_map_of_mem _ hmem)
      rw [List.getD_cons_succ, List.indexOf?_cons, if_neg (by simpa using hne), ih hl.2 hk]
      rfl

theorem decodeMap_encodeChar (i : Nat) : decodeMap (encodeChar i) = (i % 64).toUInt8 := by
  rw [decodeMap, encodeChar,
    indexOf?_getD_of_nodup encodeStd_nodup (show i % 64 < encodeStd.length from Nat.mod_lt _ (by decide))]
  rfl

/-- Only the alphabet has a place in `decodeMap`. -/
theorem ascii_of_decodeMap {c : UInt8} (h : decodeMap c ≠ 0xFF) : c.toNat < 0x80 := by
  by_contra hc
  have hnone : encodeStd.indexOf? c = none :=
    List.indexOf?_eq_none_iff.2 fun x hx hxc => hc (beq_iff_eq.1 hxc ▸ encodeStd_ascii x hx)
  exact h (by rw [decodeMap, hnone]; rfl)

/-! ## Encoding -/

theorem Encode_ascii (src : Bytes) : ∀ c ∈ Encode src, c.toNat < 0x80 := by
  induction src using Encode.induct with
  | case1 b0 b1 b2 rest ih =>
    simp only [Encode, List.cons_append, List.nil_append, List.forall_mem_cons]
    exact ⟨encodeChar_ascii _, encodeChar_ascii _, encodeChar_ascii _, encodeChar_ascii _, ih⟩
  | case2 b0 b1 =>
    simp only [Encode, List.forall_mem_cons, List.forall_mem_nil, and_true]
    exact ⟨encodeChar_ascii _, encodeChar_ascii _, encodeChar_ascii _, by decide⟩
  | case3 b0 =>
    simp only [Encode, List.forall_mem_cons, List.forall_mem_nil, and_true]
    exact ⟨encodeChar_ascii _, encodeChar_ascii _, by decide, by decide⟩
  | case4 => simp [Encode]

/-! ## Decoding -/

theorem skipNewlines_spec (s : Bytes) :
    s = List.replicate 0 0 ++ s.take (skipNewlines s).1 ++ (skipNewlines s).2 ∧
      ∀ c ∈ s.take (skipNewlines s).1, isNewline c := by
  induction s with
  | nil => simp [skipNewlines]
  | cons c rest ih =>
    by_cases hc : isNewline c
    · simp only [skipNewlines, if_pos hc, List.take_succ_cons, List.mem_cons]
      exact ⟨by simpa using ih.1, fun x hx => hx.elim (· ▸ hc) (ih.2 x)⟩
    · simp [skipNewlines, hc]

theorem length_assemble_le (dbuf : List Nat) : (assemble dbuf).length ≤ dbuf.length - 1 :=
  List.length_take_le _ _

theorem newline_ascii {c : UInt8} (h : isNewline c) : c.toNat < 0x80 := by
  simp only [isNewline, decide_eq_true_eq] at h
  rcases h with rfl | rfl <;> decide

theorem newlines_ascii {r : Bytes} (h : (skipNewlines r).2 = []) : ∀ c ∈ r, c.toNat < 0x80 := by
  obtain ⟨hs, hn⟩ := skipNewlines_spec r
  intro c hc
  rw [hs, h] at hc
  exact newline_ascii (hn c (by simpa using hc))

/-- What a successful `decodePadding` read: newlines and `=` only, and at most
two bytes out. -/
theorem decodePadding_ok {dbuf : List Nat} {si : Nat} {rest d : Bytes} (h : decodePadding dbuf si rest = .ok d) :
    (∀ c ∈ rest, c.toNat < 0x80) ∧ d.length + 1 ≤ dbuf.length ∧ dbuf.length ≤ 3 := by
  have hlen := length_assemble_le dbuf
  unfold decodePadding at h
  dsimp only at h
  split_ifs at h with h2 h3 he
  · obtain ⟨hs, hn⟩ := skipNewlines_spec rest
    revert h hs hn
    rcases skipNewlines rest with ⟨k, _ | ⟨c, r⟩⟩
    · intro h; cases h
    · intro h hs hn
      dsimp only at h
      split_ifs at h with hc he
      cases h
      refine ⟨fun x hx => ?_, by omega, by omega⟩
      rw [hs] at hx
      simp only [List.replicate_zero, List.nil_append, List.mem_append, List.mem_cons] at hx
      rcases hx with hx | rfl | hx
      · exact newline_ascii (hn x hx)
      · rw [not_not.1 hc]; decide
      · exact newlines_ascii he x hx
  · cases h
    exact ⟨newlines_ascii he, by omega, by omega⟩

theorem decodeLoop_ok {dbuf : List Nat} {si : Nat} {s d : Bytes} (h : decodeLoop dbuf si s = .ok d) :
    (∀ c ∈ s, c.toNat < 0x80) ∧ 4 * d.length ≤ 3 * s.length + 3 * dbuf.length := by
  induction s generalizing dbuf si d with
  | nil =>
    simp only [decodeLoop] at h
    split_ifs at h
    cases h
    simp
  | cons c rest ih =>
    simp only [decodeLoop] at h
    split_ifs at h with h1 h2 h3 h4
    · obtain ⟨d', hd', rfl⟩ : ∃ d', decodeLoop [] (si + 1) rest = .ok d' ∧ d = assemble (dbuf ++ [(decodeMap c).toNat]) ++ d' := by
        revert h; cases decodeLoop [] (si + 1) rest <;> intro h <;> cases h; exact ⟨_, rfl, rfl⟩
      obtain ⟨hr, hl⟩ := ih hd'
      have := length_assemble_le (dbuf ++ [(decodeMap c).toNat])
      refine ⟨by simpa [ascii_of_decodeMap h1] using hr, ?_⟩
      simp only [List.length_append, List.length_singleton, List.length_cons, List.length_nil] at this hl ⊢
      omega
    · obtain ⟨hr, hl⟩ := ih h
      refine ⟨by simpa [ascii_of_decodeMap h1] using hr, ?_⟩
      simp only [List.length_append, List.length_singleton, List.length_cons, List.length_nil] at hl ⊢
      omega
    · obtain ⟨hr, hl⟩ := ih h
      exact ⟨by simpa [newline_ascii h3] using hr, by simp only [List.length_cons]; omega⟩
    · obtain ⟨hr, hl, h3⟩ := decodePadding_ok h
      refine ⟨by simpa [show c.toNat < 0x80 by rw [not_not.1 h4]; decide] using hr, ?_⟩
      simp only [List.length_cons]
      omega

/-- Everything `Decode` accepts is ASCII. -/
theorem Decode_ascii {s d : Bytes} (h : Decode s = .ok d) : ∀ c ∈ s, c.toNat < 0x80 := (decodeLoop_ok h).1

/-- `Decode` returns at most three bytes for every four it reads. -/
theorem Decode_length {s d : Bytes} (h : Decode s = .ok d) : 4 * d.length ≤ 3 * s.length := by
  simpa using (decodeLoop_ok h).2

/-! ## Decoding what `Encode` writes -/

theorem decodeMap_encodeChar_ne (i : Nat) : decodeMap (encodeChar i) ≠ 0xFF := by
  intro h
  rw [decodeMap_encodeChar, byte_eq_iff, toNat_toUInt8] at h
  exact absurd h (by change ¬i % 64 % 256 = 255; omega)

theorem toNat_decodeMap_encodeChar (i : Nat) : (decodeMap (encodeChar i)).toNat = i % 64 := by
  rw [decodeMap_encodeChar, toNat_toUInt8]
  omega

theorem decodeLoop_encodeChar (i : Nat) {dbuf : List Nat} (si : Nat) (rest : Bytes) (h : dbuf.length ≠ 3) :
    decodeLoop dbuf si (encodeChar i :: rest) = decodeLoop (dbuf ++ [i % 64]) (si + 1) rest := by
  rw [decodeLoop, if_pos (decodeMap_encodeChar_ne i), if_neg h, toNat_decodeMap_encodeChar]

theorem decodeLoop_encodeChar_last (i : Nat) {dbuf : List Nat} (si : Nat) (rest : Bytes) (h : dbuf.length = 3) :
    decodeLoop dbuf si (encodeChar i :: rest) =
      (assemble (dbuf ++ [i % 64]) ++ ·) <$> decodeLoop [] (si + 1) rest := by
  rw [decodeLoop, if_pos (decodeMap_encodeChar_ne i), if_pos h, toNat_decodeMap_encodeChar]

theorem decodeLoop_pad (dbuf : List Nat) (si : Nat) (rest : Bytes) :
    decodeLoop dbuf si ('='.toUInt8 :: rest) = decodePadding dbuf (si + 1) rest := by
  rw [decodeLoop, if_neg (by decide), if_neg (by decide), if_neg (by simp)]

section
variable (b0 b1 b2 : UInt8)

/-- The six-bit fields of three bytes put back together are the three bytes. -/
theorem assemble_four :
    let val := b0.toNat * 2 ^ 16 + b1.toNat * 2 ^ 8 + b2.toNat
    assemble [val / 2 ^ 18 % 64, val / 2 ^ 12 % 64, val / 2 ^ 6 % 64, val % 64] = [b0, b1, b2] := by
  have := b0.toNat_lt_size; have := b1.toNat_lt_size; have := b2.toNat_lt_size
  simp only [assemble, List.getD_cons_zero, List.getD_cons_succ, List.length_cons, List.length_nil,
    List.take_succ_cons, List.take_zero, List.cons.injEq, byte_eq_iff, toNat_toUInt8, and_true, UInt8.size] at *
  omega

theorem assemble_three :
    let val := b0.toNat * 2 ^ 16 + b1.toNat * 2 ^ 8
    assemble [val / 2 ^ 18 % 64, val / 2 ^ 12 % 64, val / 2 ^ 6 % 64] = [b0, b1] := by
  have := b0.toNat_lt_size; have := b1.toNat_lt_size
  simp only [assemble, List.getD_cons_zero, List.getD_cons_succ, List.getD_nil, List.length_cons,
    List.length_nil, List.take_succ_cons, List.take_zero, List.cons.injEq, byte_eq_iff, toNat_toUInt8, and_true,
    UInt8.size] at *
  omega

theorem assemble_two :
    let val := b0.toNat * 2 ^ 16
    assemble [val / 2 ^ 18 % 64, val / 2 ^ 12 % 64] = [b0] := by
  have := b0.toNat_lt_size
  simp only [assemble, List.getD_cons_zero, List.getD_cons_succ, List.getD_nil, List.length_cons,
    List.length_nil, List.take_succ_cons, List.take_zero, List.cons.injEq, byte_eq_iff, toNat_toUInt8, and_true,
    UInt8.size] at *
  omega

end

/-- `Decode` reads back what `Encode` wrote. -/
theorem Decode_Encode (src : Bytes) : Decode (Encode src) = .ok src := by
  suffices h : ∀ si, decodeLoop [] si (Encode src) = .ok src from h 0
  induction src using Encode.induct with
  | case1 b0 b1 b2 rest ih =>
    intro si
    simp only [Encode, List.cons_append, List.nil_append]
    rw [decodeLoop_encodeChar _ _ _ (by simp), decodeLoop_encodeChar _ _ _ (by simp),
      decodeLoop_encodeChar _ _ _ (by simp), decodeLoop_encodeChar_last _ _ _ (by simp), ih]
    simp only [List.nil_append, List.cons_append, assemble_four]
    rfl
  | case2 b0 b1 =>
    intro si
    simp only [Encode]
    rw [decodeLoop_encodeChar _ _ _ (by simp), decodeLoop_encodeChar _ _ _ (by simp),
      decodeLoop_encodeChar _ _ _ (by simp), decodeLoop_pad]
    simp [decodePadding, skipNewlines]
    exact assemble_three b0 b1
  | case3 b0 =>
    intro si
    simp only [Encode]
    rw [decodeLoop_encodeChar _ _ _ (by simp), decodeLoop_encodeChar _ _ _ (by simp), decodeLoop_pad]
    simp [decodePadding, skipNewlines, show isNewline '='.toUInt8 = false by decide]
    exact assemble_two b0
  | case4 => intro si; rfl

end GoSharding
