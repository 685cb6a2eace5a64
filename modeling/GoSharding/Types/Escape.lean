import GoSharding.Types.Value
import Mathlib.Data.List.Forall2
import Mathlib.Data.List.Nodup

/-!
# SQL string and bit literals

`init` builds `SQLEncodeMap` and `SQLDecodeMap` from `encodeRef` in a loop over
every byte; `SQLEncodeMap_eq` and `SQLDecodeMap_SQLEncodeMap` give the tables in
closed form, and the encoding loop of `encodeBytesSQL` is then read as a list of
chunks: plain bytes that are neither a quote nor a backslash, and backslash
pairs. MySQL's lexer (`lexStringLiteral`, in backslash-escape mode) reads the
encoding of any byte string as a single literal holding exactly those bytes,
under any client character set whose multi-byte characters hold no quote or
backslash. Under `gbk`, whose characters may end in a backslash, a byte before
an escaped quote takes the backslash into its character, and the quote ends
the literal early (`encodeBytesSQL_gbk_breakout`).

`encodeBytesSQLBits` writes eight binary digits per byte; read back eight at a
time they give the bytes again.
-/

namespace GoSharding

/-! ## The escape tables -/

theorem lookup_mem {l : List (UInt8 × UInt8)} {a b : UInt8} (h : l.lookup a = some b) : (a, b) ∈ l := by
  induction l with
  | nil => simp at h
  | cons p l ih =>
    obtain ⟨k, v⟩ := p
    by_cases hk : a = k
    · subst hk
      rw [List.lookup_cons_self] at h
      cases h
      exact List.mem_cons_self _ _
    · have hf : (a == k) = false := by simp [hk]
      simp only [List.lookup_cons, hf] at h
      exact List.mem_cons_of_mem _ (ih h)

theorem mem_range_toUInt8 (b : UInt8) : b ∈ (List.range 256).map Nat.toUInt8 :=
  List.mem_map.mpr ⟨b.toNat, List.mem_range.mpr b.toNat_lt_size, toUInt8_toNat b⟩

/-- `SQLEncodeMap` is `init`'s first table. Stated unapplied: the kernel checks
it without running the loop, which it would do to check the applied form. -/
theorem SQLEncodeMap_def : SQLEncodeMap = fun b => initMaps.1 b := rfl

theorem SQLEncodeMap_apply (b : UInt8) : SQLEncodeMap b = initMaps.1 b := congrFun SQLEncodeMap_def b

/-- `SQLDecodeMap` is `init`'s second table, stated as `SQLEncodeMap_def`. -/
theorem SQLDecodeMap_def : SQLDecodeMap = fun b => initMaps.2 b := rfl

theorem SQLDecodeMap_apply (b : UInt8) : SQLDecodeMap b = initMaps.2 b := congrFun SQLDecodeMap_def b

theorem foldl_initStep_fst (is : List Nat) (m : (UInt8 → UInt8) × (UInt8 → UInt8)) (b : UInt8) :
    (is.foldl initStep m).1 b = if b ∈ is.map Nat.toUInt8 then (encodeRef.lookup b).getD (m.1 b) else m.1 b := by
  induction is generalizing m with
  | nil => simp
  | cons i is ih =>
    rw [List.foldl_cons, ih]
    unfold initStep
    by_cases hb : b = i.toUInt8
    · subst hb; cases h : encodeRef.lookup i.toUInt8 <;> simp [h]
    · cases encodeRef.lookup i.toUInt8 <;> simp [hb, Function.update_noteq hb, Ne.symm hb]

theorem foldl_initStep_snd (is : List Nat) (m : (UInt8 → UInt8) × (UInt8 → UInt8)) (t b : UInt8)
    (hb : ∀ i ∈ is, encodeRef.lookup i.toUInt8 = some t → i.toUInt8 = b) :
    (is.foldl initStep m).2 t = if ∃ i ∈ is, encodeRef.lookup i.toUInt8 = some t then b else m.2 t := by
  induction is generalizing m with
  | nil => simp
  | cons i is ih =>
    rw [List.foldl_cons, ih _ fun j hj => hb j (List.mem_cons_of_mem _ hj)]
    unfold initStep
    cases h : encodeRef.lookup i.toUInt8 with
    | none => simp [h]
    | some e =>
      by_cases he : t = e
      · subst he
        simp only [Function.update_same, hb i (List.mem_cons_self _ _) h, ite_self]
        exact (if_pos ⟨i, List.mem_cons_self _ _, h⟩).symm
      · simp [h, Function.update_noteq he, Ne.symm he]

/-- `SQLEncodeMap` after `init`: `encodeRef`'s letter, or `DontEscape`. -/
theorem SQLEncodeMap_eq (b : UInt8) : SQLEncodeMap b = (encodeRef.lookup b).getD DontEscape := by
  rw [SQLEncodeMap_apply, initMaps, foldl_initStep_fst, if_pos (mem_range_toUInt8 b)]

/-- No two bytes share an escape letter: `encodeRef`'s letters are distinct. -/
theorem lookup_injective {x y t : UInt8} (hx : encodeRef.lookup x = some t)
    (hy : encodeRef.lookup y = some t) : x = y :=
  congrArg Prod.fst (List.inj_on_of_nodup_map (f := Prod.snd) (by decide) (lookup_mem hx) (lookup_mem hy) rfl)

/-- `SQLDecodeMap` undoes `encodeRef`: the loop writes each letter's entry once. -/
theorem SQLDecodeMap_of_lookup {b e : UInt8} (h : encodeRef.lookup b = some e) : SQLDecodeMap e = b := by
  have := foldl_initStep_snd (List.range 256) (fun _ => DontEscape, fun _ => DontEscape) e b
    (fun i _ hi => lookup_injective hi h)
  rw [SQLDecodeMap_apply, initMaps, this,
    if_pos ⟨b.toNat, List.mem_range.mpr b.toNat_lt_size, by rw [toUInt8_toNat]; exact h⟩]

theorem lookup_SQLEncodeMap {b : UInt8} (h : SQLEncodeMap b ≠ DontEscape) :
    encodeRef.lookup b = some (SQLEncodeMap b) := by
  rw [SQLEncodeMap_eq] at h ⊢
  cases hl : encodeRef.lookup b with
  | none => simp [hl] at h
  | some e => rfl

/-- A byte the encoder copies is neither a quote nor a backslash. -/
theorem ne_quote_of_SQLEncodeMap {b : UInt8} (h : SQLEncodeMap b = DontEscape) : b ≠ 0x27 ∧ b ≠ 0x5C := by
  rw [SQLEncodeMap_eq] at h
  constructor <;> rintro rfl <;> exact absurd h (by decide)

/-! ## The lexer -/

/-- What MySQL's lexer makes of the pair `\c` in a string literal: the escapes of
its string-syntax table, `\%` and `\_` kept with their backslash, and any other
`c` standing for itself. -/
def mysqlUnescape (c : UInt8) : Bytes :=
  if c = 0x30 then [0x00] else if c = 0x62 then [0x08] else if c = 0x6E then [0x0A]
  else if c = 0x72 then [0x0D] else if c = 0x74 then [0x09] else if c = 0x5A then [0x1A]
  else if c = 0x25 then [0x5C, 0x25] else if c = 0x5F then [0x5C, 0x5F] else [c]

/-- A client character set, by MySQL's `my_ismbchar(cs, p, end)`: the length of
the multi-byte character the bytes `p .. end` start with, or 0. A character
never runs past the end. -/
structure Charset where
  ismbchar : Bytes → Nat
  ismbchar_le : ∀ s, ismbchar s ≤ s.length

/-- `latin1`, one byte a character. -/
def latin1 : Charset := ⟨fun _ => 0, fun _ => Nat.zero_le _⟩

/-- MySQL's `ismbchar_gbk`: a lead byte 0x81–0xFE and a trail byte 0x40–0x7E or
0x80–0xFE. The trail bytes include the backslash 0x5C. -/
def ismbchar_gbk : Bytes → Nat
  | c :: d :: _ => if 0x81 ≤ c ∧ c ≤ 0xFE ∧ (0x40 ≤ d ∧ d ≤ 0x7E ∨ 0x80 ≤ d ∧ d ≤ 0xFE) then 2 else 0
  | _ => 0

/-- `gbk`, whose two-byte characters may end in a backslash. -/
def gbk : Charset where
  ismbchar := ismbchar_gbk
  ismbchar_le s := by
    rcases s with _ | ⟨c, _ | ⟨d, t⟩⟩ <;> simp only [ismbchar_gbk, List.length_cons] <;> (try split_ifs) <;> omega

/-- A character set none of whose multi-byte characters holds a quote or a
backslash: `latin1`, which has none, or `utf8mb4`, whose multi-byte characters
are all high bytes. -/
def Charset.QuoteSafe (cs : Charset) : Prop :=
  ∀ s : Bytes, ∀ b ∈ s.take (cs.ismbchar s), b ≠ 0x27 ∧ b ≠ 0x5C

/-- Where `get_text` is within a quoted literal: in the text, with `skip` bytes
of a multi-byte character still to copy (`skip_binary(l - 1)`); after a
backslash; or after a quote, which ends the literal unless a second quote
follows. -/
inductive LexState
  | text (skip : Nat)
  | escape
  | quote

/-- The rest of a single-quoted literal after its opening quote, read as MySQL's
`get_text` reads it in backslash-escape mode under the client character set
`cs`, one byte a step: the string, and the input after the closing quote. A
multi-byte character is copied whole before any backslash or quote test, and a
doubled quote stands for one quote. -/
def lexQuoted (cs : Charset) : LexState → Bytes → Option (Bytes × Bytes)
  | .quote, [] => some ([], [])
  | .text _, [] | .escape, [] => none
  | .text (skip + 1), c :: rest => (lexQuoted cs (.text skip) rest).map fun p => (c :: p.1, p.2)
  | .text 0, c :: rest =>
    if 0 < cs.ismbchar (c :: rest) then
      (lexQuoted cs (.text (cs.ismbchar (c :: rest) - 1)) rest).map fun p => (c :: p.1, p.2)
    else if c = 0x5C then lexQuoted cs .escape rest
    else if c = 0x27 then lexQuoted cs .quote rest
    else (lexQuoted cs (.text 0) rest).map fun p => (c :: p.1, p.2)
  | .escape, c :: rest => (lexQuoted cs (.text 0) rest).map fun p => (mysqlUnescape c ++ p.1, p.2)
  | .quote, c :: rest =>
    if c = 0x27 then (lexQuoted cs (.text 0) rest).map fun p => (0x27 :: p.1, p.2) else some ([], c :: rest)

/-- A single-quoted string literal at the front of the input. -/
def lexStringLiteral (cs : Charset) : Bytes → Option (Bytes × Bytes)
  | 0x27 :: rest => lexQuoted cs (.text 0) rest
  | _ => none

/-- Under a quote-safe character set, a quote or a backslash starts no multi-byte character. -/
theorem Charset.QuoteSafe.ismbchar_eq_zero {cs : Charset} (hcs : cs.QuoteSafe) {c : UInt8} (rest : Bytes)
    (hc : c = 0x27 ∨ c = 0x5C) : cs.ismbchar (c :: rest) = 0 := by
  by_contra h
  obtain ⟨l, hl⟩ := Nat.exists_eq_add_one_of_ne_zero h
  have := hcs (c :: rest) c (by rw [hl]; simp)
  rcases hc with rfl | rfl <;> simp at this

theorem mysqlUnescape_of_lookup {b e : UInt8} (h : encodeRef.lookup b = some e) : mysqlUnescape e = [b] := by
  have := lookup_mem h
  simp only [encodeRef, List.mem_cons, Prod.mk.injEq, List.mem_nil_iff, or_false] at this
  rcases this with h | h | h | h | h | h | h | h | h <;> obtain ⟨rfl, rfl⟩ := h <;> rfl

/-! ## The encoding as chunks -/

/-- A piece of the body of a quoted literal: a byte copied as it is, or a
backslash followed by an escape letter. -/
inductive SqlChunk
  | plain (b : UInt8)
  | pair (e : UInt8)
deriving DecidableEq, Repr

namespace SqlChunk

def bytes : SqlChunk → Bytes
  | plain b => [b]
  | pair e => [0x5C, e]

/-- A chunk that cannot end the literal or start another escape by itself. -/
def Safe : SqlChunk → Prop
  | plain b => b ≠ 0x27 ∧ b ≠ 0x5C
  | pair _ => True

/-- The byte a chunk stands for, by the encoder's own table. -/
def decode : SqlChunk → UInt8
  | plain b => b
  | pair e => SQLDecodeMap e

end SqlChunk

/-- The chunk that one turn of the loop in `encodeBytesSQL` writes for `ch`. -/
def sqlChunk (ch : UInt8) : SqlChunk :=
  if SQLEncodeMap ch = DontEscape then .plain ch else .pair (SQLEncodeMap ch)

theorem encodeBytesSQL_eq_chunks (val : Bytes) :
    encodeBytesSQL val = [0x27] ++ (val.map sqlChunk).flatMap SqlChunk.bytes ++ [0x27] := by
  simp only [encodeBytesSQL, List.flatMap_map]
  congr 2; congr 1; funext ch
  unfold sqlChunk; split_ifs <;> rfl

theorem sqlChunk_cases (ch : UInt8) : sqlChunk ch = .plain ch ∨ sqlChunk ch = .pair (SQLEncodeMap ch) := by
  unfold sqlChunk; split_ifs <;> simp

theorem sqlChunk_safe (ch : UInt8) : (sqlChunk ch).Safe := by
  unfold sqlChunk; split_ifs with h
  · exact ne_quote_of_SQLEncodeMap h
  · trivial

theorem decode_sqlChunk (ch : UInt8) : (sqlChunk ch).decode = ch := by
  unfold sqlChunk; split_ifs with h
  · rfl
  · exact SQLDecodeMap_of_lookup (lookup_SQLEncodeMap h)

/-- Every pair the encoder writes means to MySQL what `SQLDecodeMap` says. -/
theorem mysqlUnescape_of_sqlChunk {ch e : UInt8} (h : sqlChunk ch = .pair e) :
    mysqlUnescape e = [SQLDecodeMap e] := by
  unfold sqlChunk at h
  split_ifs at h with hd
  cases h
  have hl := lookup_SQLEncodeMap hd
  rw [mysqlUnescape_of_lookup hl, SQLDecodeMap_of_lookup hl]

/-- Safe chunks are read back from their bytes in one way only. -/
theorem SqlChunk.eq_of_flatMap_bytes : ∀ {cs ds : List SqlChunk}, (∀ c ∈ cs, c.Safe) →
    (∀ d ∈ ds, d.Safe) → cs.flatMap SqlChunk.bytes = ds.flatMap SqlChunk.bytes → cs = ds
  | [], [], _, _, _ => rfl
  | [], d :: _, _, _, h => by cases d <;> simp [bytes] at h
  | c :: _, [], _, _, h => by cases c <;> simp [bytes] at h
  | c :: cs, d :: ds, hc, hd, h => by
    have ih := @eq_of_flatMap_bytes cs ds (fun x hx => hc x (List.mem_cons_of_mem _ hx))
      (fun x hx => hd x (List.mem_cons_of_mem _ hx))
    have hc := hc c (List.mem_cons_self _ _)
    have hd := hd d (List.mem_cons_self _ _)
    cases c <;> cases d <;> simp only [bytes, Safe, List.flatMap_cons, List.singleton_append,
      List.cons_append, List.cons.injEq, plain.injEq, pair.injEq] at h hc hd ⊢
    case plain.plain => exact ⟨h.1, ih h.2⟩
    case plain.pair => exact absurd h.1 hc.2
    case pair.plain => exact absurd h.1.symm hd.2
    case pair.pair => exact ⟨h.2.1, ih h.2.2⟩

/-- The lexer reads the chunks of `val` and a closing quote as `val`, from within
`skip` bytes of a multi-byte character that hold no quote or backslash, when no
second quote follows (two quotes would stand for one quote inside the literal). -/
theorem lexQuoted_chunks {cs : Charset} (hcs : cs.QuoteSafe) (val rest : Bytes) (hr : rest.head? ≠ some 0x27) :
    ∀ skip, (∀ b ∈ ((val.map sqlChunk).flatMap SqlChunk.bytes ++ 0x27 :: rest).take skip, b ≠ 0x27 ∧ b ≠ 0x5C) →
      lexQuoted cs (.text skip) ((val.map sqlChunk).flatMap SqlChunk.bytes ++ 0x27 :: rest) = some (val, rest) := by
  induction val with
  | nil =>
    rintro (_ | skip) hs
    · rw [List.map_nil, List.flatMap_nil, List.nil_append, lexQuoted,
        if_neg (by simp [hcs.ismbchar_eq_zero rest (.inl rfl)]), if_neg (by decide), if_pos rfl]
      cases rest with
      | nil => rfl
      | cons c r => rw [lexQuoted, if_neg fun h => hr (by rw [h]; rfl)]
    · simp at hs
  | cons ch val ih =>
    intro skip hs
    by_cases h : SQLEncodeMap ch = DontEscape
    · obtain ⟨hq, hb⟩ := ne_quote_of_SQLEncodeMap h
      simp only [List.map_cons, List.flatMap_cons, sqlChunk, if_pos h, SqlChunk.bytes, List.singleton_append,
        List.cons_append, List.nil_append] at hs ⊢
      rcases skip with _ | skip
      · by_cases hm : 0 < cs.ismbchar (ch :: ((val.map sqlChunk).flatMap SqlChunk.bytes ++ 0x27 :: rest))
        · rw [lexQuoted, if_pos hm, ih]
          · rfl
          · obtain ⟨l, hl⟩ := Nat.exists_eq_add_one_of_ne_zero (Nat.pos_iff_ne_zero.mp hm)
            intro b hb
            exact hcs _ b (by rw [hl, List.take_succ_cons]; exact List.mem_cons_of_mem _ (by simpa [hl] using hb))
        · rw [lexQuoted, if_neg hm, if_neg hb, if_neg hq, ih 0 (by simp)]
          rfl
      · rw [lexQuoted, ih skip fun b hb => hs b (List.mem_cons_of_mem _ hb)]
        rfl
    · simp only [List.map_cons, List.flatMap_cons, sqlChunk, if_neg h, SqlChunk.bytes, List.cons_append,
        List.nil_append] at hs ⊢
      rcases skip with _ | skip
      · rw [lexQuoted, if_neg (by simp [hcs.ismbchar_eq_zero _ (.inr rfl)]), if_pos rfl, lexQuoted,
          ih 0 (by simp), mysqlUnescape_of_lookup (lookup_SQLEncodeMap h)]
        rfl
      · simp at hs

/-- The body of the encoding splits, in one way only, into safe chunks, each
standing for one byte of `val` by the encoder's tables and by MySQL's; the lexer
reads the whole encoding as one literal holding `val`; and it is what
`EncodeSQL` writes for a quoted value. -/
theorem encodeBytesSQL_single_literal (val : Bytes) :
    (∃ chunks : List SqlChunk,
      encodeBytesSQL val = [0x27] ++ chunks.flatMap SqlChunk.bytes ++ [0x27] ∧
      (∀ c ∈ chunks, c.Safe) ∧
      (∀ chunks' : List SqlChunk, (∀ c ∈ chunks', c.Safe) →
        chunks'.flatMap SqlChunk.bytes = chunks.flatMap SqlChunk.bytes → chunks' = chunks) ∧
      List.Forall₂ (fun c b => (c = .plain b ∨ c = .pair (SQLEncodeMap b)) ∧ c.decode = b) chunks val ∧
      (∀ e, SqlChunk.pair e ∈ chunks → mysqlUnescape e = [SQLDecodeMap e])) ∧
    (∀ cs : Charset, cs.QuoteSafe → lexStringLiteral cs (encodeBytesSQL val) = some (val, [])) ∧
    ∀ v : Value, v.IsQuoted → v.EncodeSQL = encodeBytesSQL v.Value := by
  have hsafe : ∀ c ∈ val.map sqlChunk, c.Safe := List.forall_mem_map.mpr fun ch _ => sqlChunk_safe ch
  refine ⟨⟨val.map sqlChunk, encodeBytesSQL_eq_chunks val, hsafe,
      fun cs hc h => SqlChunk.eq_of_flatMap_bytes hc hsafe h,
      List.forall₂_map_left_iff.mpr (List.forall₂_same.mpr fun ch _ => ⟨sqlChunk_cases ch, decode_sqlChunk ch⟩),
      fun e he => ?_⟩, fun cs hcs => ?_, fun v => Value.EncodeSQL_of_IsQuoted⟩
  · obtain ⟨ch, -, hch⟩ := List.mem_map.mp he
    exact mysqlUnescape_of_sqlChunk hch
  · rw [encodeBytesSQL_eq_chunks]
    exact lexQuoted_chunks hcs val [] (by simp) 0 (by simp)

/-- Under `gbk` the value `0xBF '` followed by SQL breaks out of its literal: the
encoder writes `0xBF \'`, `gbk` reads `0xBF \` as one character, and the quote
then ends the literal, leaving the rest of the value to be read as SQL. -/
theorem encodeBytesSQL_gbk_breakout :
    encodeBytesSQL (0xBF :: 0x27 :: ascii " OR 1=1 -- ") = [0x27, 0xBF, 0x5C, 0x27] ++ ascii " OR 1=1 -- " ++ [0x27] ∧
      lexStringLiteral gbk (encodeBytesSQL (0xBF :: 0x27 :: ascii " OR 1=1 -- ")) =
        some ([0xBF, 0x5C], ascii " OR 1=1 -- " ++ [0x27]) := by
  have henc : encodeBytesSQL (0xBF :: 0x27 :: ascii " OR 1=1 -- ") =
      [0x27, 0xBF, 0x5C, 0x27] ++ ascii " OR 1=1 -- " ++ [0x27] := by
    simp only [encodeBytesSQL, SQLEncodeMap_eq]
    decide
  exact ⟨henc, by rw [henc]; decide⟩

theorem encodeBytesSQL_single_literal_latin1 :
    latin1.QuoteSafe ∧ lexStringLiteral latin1 (encodeBytesSQL (0xBF :: 0x27 :: ascii " OR 1=1 -- ")) =
      some (0xBF :: 0x27 :: ascii " OR 1=1 -- ", []) :=
  have hsafe : latin1.QuoteSafe := fun _ b hb => by simp [latin1] at hb
  ⟨hsafe, (encodeBytesSQL_single_literal _).2.1 latin1 hsafe⟩

/-! ## Bit literals -/

/-- A character `0` or `1`. -/
def IsBinaryDigit (d : UInt8) : Prop := d = '0'.toUInt8 ∨ d = '1'.toUInt8

instance (d : UInt8) : Decidable (IsBinaryDigit d) := inferInstanceAs (Decidable (_ ∨ _))

/-- The number a run of binary digits stands for, most significant first. -/
def bitsValue (ds : Bytes) : Nat :=
  ds.foldl (fun acc d => 2 * acc + if d = '1'.toUInt8 then 1 else 0) 0

/-- How a reader of a bit literal's body splits it: eight digits a byte. -/
def readBitGroups : Bytes → Option Bytes
  | [] => some []
  | d0 :: d1 :: d2 :: d3 :: d4 :: d5 :: d6 :: d7 :: rest =>
    (readBitGroups rest).map fun bs => (bitsValue [d0, d1, d2, d3, d4, d5, d6, d7]).toUInt8 :: bs
  | _ => none

theorem bitsValue_append_digit (ds : Bytes) (d : UInt8) :
    bitsValue (ds ++ [d]) = 2 * bitsValue ds + if d = '1'.toUInt8 then 1 else 0 := by
  simp [bitsValue, List.foldl_append]

theorem bitsValue_zeros (m : Nat) (ds : Bytes) : bitsValue (List.replicate m '0'.toUInt8 ++ ds) = bitsValue ds := by
  have hz : ∀ m, (List.replicate m '0'.toUInt8).foldl (fun acc d => 2 * acc + if d = '1'.toUInt8 then 1 else 0) 0 = 0 := by
    intro m; induction m with
    | zero => rfl
    | succ m ih => rw [List.replicate_succ', List.foldl_append, ih]; decide
  simp only [bitsValue, List.foldl_append, hz]

theorem binaryDigits_digit (n : Nat) : ∀ d ∈ binaryDigits n, IsBinaryDigit d := by
  induction n using binaryDigits.induct with
  | case1 n h => rw [binaryDigits, if_pos h]; intro d hd; simp at hd; split_ifs at hd <;> simp [hd, IsBinaryDigit]
  | case2 n h ih =>
    rw [binaryDigits, if_neg h]; intro d hd
    rcases List.mem_append.mp hd with hd | hd
    · exact ih d hd
    · simp at hd; split_ifs at hd <;> simp [hd, IsBinaryDigit]

theorem bitsValue_binaryDigits (n : Nat) : bitsValue (binaryDigits n) = n := by
  induction n using binaryDigits.induct with
  | case1 n h => rw [binaryDigits, if_pos h]; rcases (by omega : n = 0 ∨ n = 1) with rfl | rfl <;> decide
  | case2 n h ih =>
    rw [binaryDigits, if_neg h, bitsValue_append_digit, ih]
    split_ifs with h0 h1 h1 <;> first | omega | exact absurd h1 (by decide)

theorem length_binaryDigits_le (n k : Nat) (hk : 0 < k) (hn : n < 2 ^ k) : (binaryDigits n).length ≤ k := by
  induction n using binaryDigits.induct generalizing k with
  | case1 n h => rw [binaryDigits, if_pos h]; simpa using hk
  | case2 n h ih =>
    obtain ⟨k, rfl⟩ : ∃ j, k = j + 1 := ⟨k - 1, by omega⟩
    have hk' : 0 < k := by
      rcases Nat.eq_zero_or_pos k with rfl | hk'
      · simp at hn; omega
      · exact hk'
    have := ih k hk' (by rw [Nat.pow_succ] at hn; omega)
    rw [binaryDigits, if_neg h, List.length_append]; simp; omega

theorem length_fmt08b {n : Nat} (hn : n < 256) : (fmt08b n).length = 8 := by
  have := length_binaryDigits_le n 8 (by decide) hn
  simp [fmt08b]; omega

theorem bitsValue_fmt08b (n : Nat) : bitsValue (fmt08b n) = n := by
  rw [fmt08b, bitsValue_zeros, bitsValue_binaryDigits]

theorem fmt08b_digit (n : Nat) : ∀ d ∈ fmt08b n, IsBinaryDigit d := by
  intro d hd
  rcases List.mem_append.mp hd with hd | hd
  · rw [List.eq_of_mem_replicate hd]; simp [IsBinaryDigit]
  · exact binaryDigits_digit n d hd

theorem readBitGroups_append (g rest : Bytes) (hg : g.length = 8) :
    readBitGroups (g ++ rest) = (readBitGroups rest).map fun bs => (bitsValue g).toUInt8 :: bs := by
  match g, hg with
  | [_, _, _, _, _, _, _, _], _ => rfl

theorem readBitGroups_fmt08b (val : Bytes) : readBitGroups (val.flatMap fun ch => fmt08b ch.toNat) = some val := by
  induction val with
  | nil => rfl
  | cons ch val ih =>
    rw [List.flatMap_cons, readBitGroups_append _ _ (length_fmt08b ch.toNat_lt_size), ih, bitsValue_fmt08b,
      toUInt8_toNat]
    rfl

/-- The bit literal of `val` is `b'`, eight binary digits for each byte, and a
quote; read eight at a time the digits give `val` again. It is what `EncodeSQL`
writes for a `Bit` value. -/
theorem encodeBytesSQLBits_groups (val : Bytes) :
    (∃ digits : Bytes, encodeBytesSQLBits val = ascii "b'" ++ digits ++ ascii "'" ∧
      digits.length = 8 * val.length ∧ (∀ d ∈ digits, IsBinaryDigit d) ∧ readBitGroups digits = some val) ∧
    ∀ v : Value, v.ValueType = .Bit → v.EncodeSQL = encodeBytesSQLBits v.Value := by
  refine ⟨⟨val.flatMap fun ch => fmt08b ch.toNat, rfl, ?_, ?_, readBitGroups_fmt08b val⟩,
    fun v => Value.EncodeSQL_of_Bit⟩
  · induction val with
    | nil => rfl
    | cons ch val ih => rw [List.flatMap_cons, List.length_append, length_fmt08b ch.toNat_lt_size, ih]; simp; omega
  · intro d hd
    obtain ⟨ch, -, hd⟩ := List.mem_flatMap.mp hd
    exact fmt08b_digit ch.toNat d hd

end GoSharding
