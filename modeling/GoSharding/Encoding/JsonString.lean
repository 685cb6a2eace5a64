import GoSharding.Encoding.Utf8

/-!
# JSON strings in Go's `encoding/json`

`json.Marshal` of a Go string writes it between quotes with `appendString`: the ASCII
bytes outside `htmlSafeSet` as escapes, each byte that starts no valid UTF-8 sequence as
`\ufffd`, U+2028 and U+2029 as `\u2028` and `\u2029`, and every other rune as its bytes.
`unquoteBytes` reads a quoted string back: a first loop finds how much needs no unquoting,
and a second loop unquotes the rest.

What `unquoteBytes` reads back from what `Marshal` writes is the string with each byte
that starts no valid sequence replaced by U+FFFD (`unquoteBytes_Marshal`).
-/

namespace GoSharding

/-! ## Writing -/

/-- `hex`, the digits of the escapes. -/
def hex : Bytes := ascii "0123456789abcdef"

/-- `htmlSafeSet[b]` for an ASCII byte `b`: printable, and none of `"`, `\`, `<`, `>`, `&`. -/
def htmlSafe (b : UInt8) : Bool :=
  0x20 ≤ b && b != '"'.toUInt8 && b != '\\'.toUInt8 && b != '<'.toUInt8 && b != '>'.toUInt8 &&
    b != '&'.toUInt8

/-- The escape `appendString` writes for an ASCII byte outside `htmlSafeSet`. -/
def escapeASCII (b : UInt8) : Bytes :=
  if b = '\\'.toUInt8 ∨ b = '"'.toUInt8 then ['\\'.toUInt8, b]
  else if b = 0x08 then ['\\'.toUInt8, 'b'.toUInt8]
  else if b = 0x0C then ['\\'.toUInt8, 'f'.toUInt8]
  else if b = '\n'.toUInt8 then ['\\'.toUInt8, 'n'.toUInt8]
  else if b = '\r'.toUInt8 then ['\\'.toUInt8, 'r'.toUInt8]
  else if b = '\t'.toUInt8 then ['\\'.toUInt8, 't'.toUInt8]
  else ['\\'.toUInt8, 'u'.toUInt8, '0'.toUInt8, '0'.toUInt8, hex.getD (b.toNat / 16) 0, hex.getD (b.toNat % 16) 0]

/-- The loop of `appendString(dst, src, true)`: an ASCII byte at a time, and otherwise a
rune at a time as `DecodeRuneInString(src[i:i+4])` reads it. The code copies each run of
bytes that need no escape at once; here each byte or rune is written as it is met. -/
def stringBody : Bytes → Bytes
  | [] => []
  | b :: src =>
    if b < 0x80 then (if htmlSafe b then [b] else escapeASCII b) ++ stringBody src
    else
      let d := DecodeRune ((b :: src).take 4)
      if d.1 = RuneError ∧ d.2 = 1 then ascii "\\ufffd" ++ stringBody ((b :: src).drop d.2)
      else if d.1 = 0x2028 ∨ d.1 = 0x2029 then
        ascii "\\u202" ++ [hex.getD (d.1 % 16) 0] ++ stringBody ((b :: src).drop d.2)
      else (b :: src).take d.2 ++ stringBody ((b :: src).drop d.2)
termination_by src => src.length
decreasing_by
  all_goals first
    | exact length_drop_DecodeRune_take _ _
    | (simp only [List.length_cons]; omega)

/-- `appendString` with `escapeHTML` set, as `json.Marshal` calls it. -/
def appendString (dst src : Bytes) : Bytes := dst ++ ['"'.toUInt8] ++ stringBody src ++ ['"'.toUInt8]

/-- `json.Marshal(s)` for a Go string `s`: the string encoder, with HTML escaping. -/
def Marshal (s : Bytes) : Bytes := appendString [] s

/-! ## Reading -/

/-- The value of a hex digit, as the loop of `getu4` reads it. -/
def hexValue (c : UInt8) : Option Nat :=
  if '0'.toUInt8 ≤ c ∧ c ≤ '9'.toUInt8 then some (c.toNat - 48)
  else if 'a'.toUInt8 ≤ c ∧ c ≤ 'f'.toUInt8 then some (c.toNat - 87)
  else if 'A'.toUInt8 ≤ c ∧ c ≤ 'F'.toUInt8 then some (c.toNat - 55)
  else none

/-- `getu4(s)`: the value of the `\uXXXX` at the start of `s`, `none` for the code's `-1`. -/
def getu4 : Bytes → Option Nat
  | b :: u :: c1 :: c2 :: c3 :: c4 :: _ =>
    if b = '\\'.toUInt8 ∧ u = 'u'.toUInt8 then [c1, c2, c3, c4].foldlM (fun r c => (hexValue c).map (r * 16 + ·)) 0
    else none
  | _ => none

namespace Utf16

def IsSurrogate (r : Nat) : Bool := 0xD800 ≤ r && r < 0xE000

/-- `utf16.DecodeRune(r1, r2)`: the rune of a surrogate pair, `RuneError` for anything else.
The fields of the code's `|` are disjoint, so it is a sum. -/
def DecodeRune (r1 r2 : Nat) : Nat :=
  if 0xD800 ≤ r1 ∧ r1 < 0xDC00 ∧ 0xDC00 ≤ r2 ∧ r2 < 0xE000 then (r1 - 0xD800) * 1024 + (r2 - 0xDC00) + 0x10000
  else RuneError

end Utf16

/-- The second loop of `unquote`, from where the first stopped; `none` where the code
returns with `ok` false. The buffer grows as needed, so only what is written is kept. -/
def unquoteLoop : Bytes → Option Bytes
  | [] => some []
  | c :: s =>
    if c = '\\'.toUInt8 then
      match s with
      | [] => none
      | e :: s' =>
        if e = '"'.toUInt8 ∨ e = '\\'.toUInt8 ∨ e = '/'.toUInt8 ∨ e = '\''.toUInt8 then (e :: ·) <$> unquoteLoop s'
        else if e = 'b'.toUInt8 then (0x08 :: ·) <$> unquoteLoop s'
        else if e = 'f'.toUInt8 then (0x0C :: ·) <$> unquoteLoop s'
        else if e = 'n'.toUInt8 then ('\n'.toUInt8 :: ·) <$> unquoteLoop s'
        else if e = 'r'.toUInt8 then ('\r'.toUInt8 :: ·) <$> unquoteLoop s'
        else if e = 't'.toUInt8 then ('\t'.toUInt8 :: ·) <$> unquoteLoop s'
        else if e = 'u'.toUInt8 then
          match getu4 (c :: e :: s') with
          | none => none
          | some rr =>
            if Utf16.IsSurrogate rr then
              let dec := match getu4 ((c :: e :: s').drop 6) with
                | some rr1 => Utf16.DecodeRune rr rr1
                | none => RuneError
              if dec ≠ RuneError then (EncodeRune dec ++ ·) <$> unquoteLoop ((c :: e :: s').drop 12)
              else (EncodeRune RuneError ++ ·) <$> unquoteLoop ((c :: e :: s').drop 6)
            else (EncodeRune rr ++ ·) <$> unquoteLoop ((c :: e :: s').drop 6)
        else none
    else if c = '"'.toUInt8 ∨ c < 0x20 then none
    else if c < 0x80 then (c :: ·) <$> unquoteLoop s
    else (EncodeRune (DecodeRune (c :: s)).1 ++ ·) <$> unquoteLoop ((c :: s).drop (DecodeRune (c :: s)).2)
termination_by s => s.length
decreasing_by
  all_goals first
    | exact length_drop_DecodeRune _ _
    | (simp only [List.length_cons, List.length_drop]; omega)

/-- The first loop of `unquote`: how many bytes at the start of `s` need no unquoting, an
ASCII byte or a valid rune at a time. -/
def plainLength : Bytes → Nat
  | [] => 0
  | c :: s =>
    if c = '\\'.toUInt8 ∨ c = '"'.toUInt8 ∨ c < 0x20 then 0
    else if c < 0x80 then plainLength s + 1
    else if (DecodeRune (c :: s)).1 = RuneError ∧ (DecodeRune (c :: s)).2 = 1 then 0
    else (DecodeRune (c :: s)).2 + plainLength ((c :: s).drop (DecodeRune (c :: s)).2)
termination_by s => s.length
decreasing_by
  all_goals first
    | exact length_drop_DecodeRune _ _
    | (simp only [List.length_cons, List.length_drop]; omega)

/-- `unquoteBytes(s)`: the contents of the quoted string `s`, `none` for `ok` false. When
the first loop reaches the end, the contents are returned as they are; otherwise what it
passed is copied and the second loop reads the rest. -/
def unquoteBytes (s : Bytes) : Option Bytes :=
  if s.length < 2 ∨ s.head? ≠ some '"'.toUInt8 ∨ s.getLast? ≠ some '"'.toUInt8 then none
  else
    let t := (s.drop 1).take (s.length - 2)
    if plainLength t = t.length then some t
    else (t.take (plainLength t) ++ ·) <$> unquoteLoop (t.drop (plainLength t))

/-! ## Reading back what is written -/

theorem hexValue_hex : ∀ k < 16, hexValue (hex.getD k 0) = some k := by decide

/-- The second loop at a byte other than a backslash. -/
theorem unquoteLoop_of_ne {c : UInt8} (h : c ≠ '\\'.toUInt8) (s : Bytes) :
    unquoteLoop (c :: s) = if c = '"'.toUInt8 ∨ c < 0x20 then none else if c < 0x80 then (c :: ·) <$> unquoteLoop s
      else (EncodeRune (DecodeRune (c :: s)).1 ++ ·) <$> unquoteLoop ((c :: s).drop (DecodeRune (c :: s)).2) := by
  cases s with
  | nil => rw [unquoteLoop.eq_2, if_neg h]
  | cons e s => rw [unquoteLoop.eq_3, if_neg h]

/-- A byte that needs no unquoting is copied. -/
theorem unquoteLoop_plain {c : UInt8} (h1 : c ≠ '\\'.toUInt8) (h2 : c ≠ '"'.toUInt8) (h3 : ¬c < 0x20)
    (h4 : c < 0x80) (s : Bytes) : unquoteLoop (c :: s) = (c :: ·) <$> unquoteLoop s := by
  rw [unquoteLoop_of_ne h1, if_neg (by tauto), if_pos h4]

/-- A rune of two to four bytes is copied. -/
theorem unquoteLoop_multi {c : UInt8} {p : Bytes} {r n : Nat} (hm : MultiByte (c :: p) r n) (q : Bytes) :
    unquoteLoop ((c :: p).take n ++ q) = ((c :: p).take n ++ ·) <$> unquoteLoop q := by
  have hc : 0x80 ≤ c.toNat := hm.high c (by rw [List.take_cons (by have := hm.two_le; omega)]; exact List.mem_cons_self _ _)
  have hlen : ((c :: p).take n).length = n := List.length_take_of_le hm.le_length
  obtain ⟨t, ht⟩ : ∃ t, (c :: p).take n = c :: t := ⟨_, List.take_cons (by have := hm.two_le; omega)⟩
  have hd := hm.decode q
  have he := hm.encode
  rw [ht] at hd he hlen ⊢
  have hne : ∀ x : UInt8, x.toNat < 0x80 → c ≠ x := fun x hx h => by subst h; omega
  rw [List.cons_append, unquoteLoop_of_ne (hne _ (by decide)),
    if_neg (by rintro (h | h); exact hne _ (by decide) h; exact absurd (show c.toNat < 0x20 from h) (by omega)),
    if_neg (by show ¬c.toNat < 0x80; omega), ← List.cons_append, hd, he, List.drop_left' hlen]

/-- A `\uXXXX` that is no surrogate is read as the rune it names. -/
theorem unquoteLoop_u {s : Bytes} {v : Nat} (h : getu4 s = some v) (hv : Utf16.IsSurrogate v = false) :
    unquoteLoop s = (EncodeRune v ++ ·) <$> unquoteLoop (s.drop 6) := by
  match s, h with
  | b :: u :: c1 :: c2 :: c3 :: c4 :: t, h =>
    have hbu : b = '\\'.toUInt8 ∧ u = 'u'.toUInt8 := by
      by_contra hn
      simp only [getu4, if_neg hn] at h
      cases h
    obtain ⟨rfl, rfl⟩ := hbu
    rw [unquoteLoop.eq_3]
    simp only [h, hv]
    rfl

/-- An escape is a backslash and one letter of a short escape, or `\u00` and two hex digits. -/
theorem escapeASCII_cases (b : UInt8) :
    (∃ x ∈ ['\\'.toUInt8, '"'.toUInt8, 'b'.toUInt8, 'f'.toUInt8, 'n'.toUInt8, 'r'.toUInt8, 't'.toUInt8],
      escapeASCII b = ['\\'.toUInt8, x]) ∨
    escapeASCII b = ['\\'.toUInt8, 'u'.toUInt8, '0'.toUInt8, '0'.toUInt8, hex.getD (b.toNat / 16) 0,
      hex.getD (b.toNat % 16) 0] := by
  unfold escapeASCII
  by_cases hc : b = '\\'.toUInt8 ∨ b = '"'.toUInt8 ∨ b = 0x08 ∨ b = 0x0C ∨ b = '\n'.toUInt8 ∨ b = '\r'.toUInt8 ∨
      b = '\t'.toUInt8
  · refine .inl ?_
    rcases hc with rfl | rfl | rfl | rfl | rfl | rfl | rfl <;> exact ⟨_, by decide, rfl⟩
  simp only [not_or] at hc
  obtain ⟨h1, h2, h3, h4, h5, h6, h7⟩ := hc
  rw [if_neg (by rintro (h | h) <;> contradiction), if_neg h3, if_neg h4, if_neg h5, if_neg h6, if_neg h7]
  exact .inr rfl

/-- Each escape `appendString` writes for an ASCII byte reads back as that byte. -/
theorem unquoteLoop_escapeASCII {b : UInt8} (hb : b < 0x80) (s : Bytes) :
    unquoteLoop (escapeASCII b ++ s) = (b :: ·) <$> unquoteLoop s := by
  unfold escapeASCII
  by_cases hc : b = '\\'.toUInt8 ∨ b = '"'.toUInt8 ∨ b = 0x08 ∨ b = 0x0C ∨ b = '\n'.toUInt8 ∨ b = '\r'.toUInt8 ∨
      b = '\t'.toUInt8
  · rcases hc with rfl | rfl | rfl | rfl | rfl | rfl | rfl <;>
      simp (disch := decide) only [List.cons_append, List.nil_append, unquoteLoop.eq_3, if_pos, if_neg]
  simp only [not_or] at hc
  obtain ⟨h1, h2, h3, h4, h5, h6, h7⟩ := hc
  rw [if_neg (by rintro (h | h) <;> contradiction), if_neg h3, if_neg h4, if_neg h5, if_neg h6, if_neg h7]
  have hb' : b.toNat < 128 := hb
  have hg : getu4 (['\\'.toUInt8, 'u'.toUInt8, '0'.toUInt8, '0'.toUInt8, hex.getD (b.toNat / 16) 0,
      hex.getD (b.toNat % 16) 0] ++ s) = some b.toNat := by
    have h0 : hexValue '0'.toUInt8 = some 0 := by decide
    simp only [getu4, List.cons_append, List.nil_append, if_pos (And.intro rfl rfl), List.foldlM, h0,
      hexValue_hex (b.toNat / 16) (by omega), hexValue_hex (b.toNat % 16) (by omega), and_self, if_true,
      Option.map_some', Option.bind_eq_bind, Option.some_bind, Option.pure_def, Option.some.injEq]
    omega
  rw [unquoteLoop_u hg (by simp [Utf16.IsSurrogate]; omega), EncodeRune_of_lt hb', toUInt8_toNat]
  rfl

theorem htmlSafe_spec {b : UInt8} (h : htmlSafe b) : b ≠ '\\'.toUInt8 ∧ b ≠ '"'.toUInt8 ∧ ¬b < 0x20 := by
  simp only [htmlSafe, Bool.and_eq_true, bne_iff_ne, ne_eq, decide_eq_true_eq] at h
  obtain ⟨⟨⟨⟨⟨h0, h1⟩, h2⟩, -⟩, -⟩, -⟩ := h
  exact ⟨h2, h1, UInt8.not_lt.2 h0⟩

theorem getu4_ufffd (s : Bytes) : getu4 (ascii "\\ufffd" ++ s) = some RuneError := rfl

theorem getu4_u202 {k : Nat} (hk : k < 16) (s : Bytes) :
    getu4 (ascii "\\u202" ++ [hex.getD k 0] ++ s) = some (0x2020 + k) := by
  have h0 : hexValue '0'.toUInt8 = some 0 := by decide
  have h2 : hexValue '2'.toUInt8 = some 2 := by decide
  show getu4 ('\\'.toUInt8 :: 'u'.toUInt8 :: '2'.toUInt8 :: '0'.toUInt8 :: '2'.toUInt8 :: hex.getD k 0 :: s) = _
  simp only [getu4, if_pos (And.intro rfl rfl), List.foldlM, h0, h2, hexValue_hex k hk, Option.map_some',
    Option.bind_eq_bind, Option.some_bind, Option.pure_def, and_self, if_true, Option.some.injEq]

/-- The bytes `u` that `appendString` writes for the byte or rune at the start of `p0 :: p`:
an HTML-safe ASCII byte as itself, another ASCII byte as its escape, `\ufffd` for a byte
that starts no valid sequence, `\u2028` or `\u2029` for those two runes, and any other rune
as its bytes. -/
inductive IsUnit (p0 : UInt8) (p : Bytes) : Bytes → Prop
  | safe : p0 < 0x80 → htmlSafe p0 → IsUnit p0 p [p0]
  | escape : p0 < 0x80 → htmlSafe p0 = false → IsUnit p0 p (escapeASCII p0)
  | invalid : DecodeRune (p0 :: p) = (RuneError, 1) → IsUnit p0 p (ascii "\\ufffd")
  | separator : MultiByte (p0 :: p) (DecodeRune (p0 :: p)).1 (DecodeRune (p0 :: p)).2 →
      (DecodeRune (p0 :: p)).1 = 0x2028 ∨ (DecodeRune (p0 :: p)).1 = 0x2029 →
      IsUnit p0 p (ascii "\\u202" ++ [hex.getD ((DecodeRune (p0 :: p)).1 % 16) 0])
  | rune : MultiByte (p0 :: p) (DecodeRune (p0 :: p)).1 (DecodeRune (p0 :: p)).2 →
      ¬((DecodeRune (p0 :: p)).1 = 0x2028 ∨ (DecodeRune (p0 :: p)).1 = 0x2029) →
      IsUnit p0 p ((p0 :: p).take (DecodeRune (p0 :: p)).2)

/-- **One step of `appendString`**: it writes a unit for the byte or rune at the start and
goes on after it. -/
theorem stringBody_cons (p0 : UInt8) (p : Bytes) :
    ∃ u, IsUnit p0 p u ∧ stringBody (p0 :: p) = u ++ stringBody ((p0 :: p).drop (DecodeRune (p0 :: p)).2) := by
  rw [stringBody]
  rcases DecodeRune_cases p0 p with ⟨h0, hd⟩ | ⟨h0, hd⟩ | hm
  · rw [if_pos h0, hd]
    cases hs : htmlSafe p0
    · exact ⟨_, .escape h0 hs, rfl⟩
    · exact ⟨_, .safe h0 hs, rfl⟩
  · rw [if_neg h0]
    simp only [DecodeRune_take_four, hd, and_self, if_true]
    exact ⟨_, .invalid hd, rfl⟩
  · have hn1 : ¬((DecodeRune (p0 :: p)).1 = RuneError ∧ (DecodeRune (p0 :: p)).2 = 1) := fun h => by
      have := hm.two_le
      omega
    have h0 : ¬p0 < 0x80 := fun h => by
      have := hm.two_le
      rw [DecodeRune_of_lt h] at this
      simp at this
    rw [if_neg h0]
    simp only [DecodeRune_take_four, if_neg hn1]
    split
    · exact ⟨_, .separator hm ‹_›, rfl⟩
    · exact ⟨_, .rune hm ‹_›, rfl⟩

/-- Each unit reads back as the rune it stands for, which is the byte for ASCII and
`RuneError` for a byte that starts no valid sequence. -/
theorem unquoteLoop_unit {p0 : UInt8} {p u : Bytes} (hu : IsUnit p0 p u) (rest : Bytes) :
    unquoteLoop (u ++ rest) = (EncodeRune (DecodeRune (p0 :: p)).1 ++ ·) <$> unquoteLoop rest := by
  cases hu with
  | safe h0 hs =>
    obtain ⟨h1, h2, h3⟩ := htmlSafe_spec hs
    rw [DecodeRune_of_lt h0, EncodeRune_of_lt (show p0.toNat < 0x80 from h0), toUInt8_toNat, List.singleton_append,
      unquoteLoop_plain h1 h2 h3 h0]
    rfl
  | escape h0 _ =>
    rw [DecodeRune_of_lt h0, EncodeRune_of_lt (show p0.toNat < 0x80 from h0), toUInt8_toNat, unquoteLoop_escapeASCII h0]
    rfl
  | invalid hd =>
    rw [hd, unquoteLoop_u (getu4_ufffd _) rfl, List.drop_left' (show (ascii "\\ufffd").length = 6 from rfl)]
  | separator hm h28 =>
    have hg := getu4_u202 (show (DecodeRune (p0 :: p)).1 % 16 < 16 by omega) rest
    rw [show 0x2020 + (DecodeRune (p0 :: p)).1 % 16 = (DecodeRune (p0 :: p)).1 by omega] at hg
    rw [unquoteLoop_u hg (by simp [Utf16.IsSurrogate]; omega),
      List.drop_left' (show (ascii "\\u202" ++ [hex.getD ((DecodeRune (p0 :: p)).1 % 16) 0]).length = 6 from rfl)]
  | rune hm _ => rw [unquoteLoop_multi hm, hm.encode]

/-- **What `unquote` reads back from `appendString`**: the string, with each byte that starts
no valid UTF-8 sequence replaced by U+FFFD. -/
theorem unquoteLoop_stringBody (b : Bytes) : unquoteLoop (stringBody b) = some (coerceUTF8 b) := by
  induction b using coerceUTF8.induct with
  | case1 => rw [stringBody, coerceUTF8, unquoteLoop.eq_1]
  | case2 p0 p ih =>
    obtain ⟨u, hu, hs⟩ := stringBody_cons p0 p
    rw [hs, coerceUTF8, unquoteLoop_unit hu, ih]
    rfl

/-- The bytes the first loop of `unquote` passes over are the bytes the second loop would
copy, so copying them and unquoting the rest unquotes the whole. -/
theorem unquoteLoop_plainLength (s : Bytes) :
    unquoteLoop s = (s.take (plainLength s) ++ ·) <$> unquoteLoop (s.drop (plainLength s)) := by
  induction s using plainLength.induct with
  | case1 => simp
  | case2 c s h => rw [plainLength, if_pos h]; simp
  | case3 c s h h4 ih =>
    rw [plainLength, if_neg h, if_pos h4, unquoteLoop_plain (by tauto) (by tauto) (by tauto) h4, ih,
      Functor.map_map]
    rfl
  | case4 c s h h4 hd => rw [plainLength, if_neg h, if_neg h4, if_pos hd]; simp
  | case5 c s h h4 hd ih =>
    rw [plainLength, if_neg h, if_neg h4, if_neg hd]
    rcases DecodeRune_cases c s with ⟨h0, -⟩ | ⟨-, he⟩ | hm
    · exact absurd h0 h4
    · exact absurd he (by simpa [Prod.ext_iff] using hd)
    · have := unquoteLoop_multi hm ((c :: s).drop (DecodeRune (c :: s)).2)
      rw [List.take_append_drop] at this
      rw [this, ih, Functor.map_map, List.drop_drop, List.take_add]
      simp only [Function.comp_def, List.append_assoc]

/-- `unquoteBytes` of a quoted string unquotes what stands between the quotes. -/
theorem unquoteBytes_quoted (t : Bytes) : unquoteBytes ('"'.toUInt8 :: (t ++ ['"'.toUInt8])) = unquoteLoop t := by
  have ht : (('"'.toUInt8 :: (t ++ ['"'.toUInt8])).drop 1).take ((t.length + 2) - 2) = t := by simp
  have hl : ('"'.toUInt8 :: (t ++ ['"'.toUInt8])).getLast? = some '"'.toUInt8 := by
    rw [← List.cons_append, List.getLast?_concat]
  rw [unquoteBytes, if_neg (by simp [hl]), List.length_cons, List.length_append, List.length_singleton]
  simp only [ht]
  split
  · rename_i hp
    rw [unquoteLoop_plainLength t, hp, List.take_length, List.drop_length, unquoteLoop.eq_1]
    simp
  · rw [← unquoteLoop_plainLength]

/-- **`json.Marshal` of a string, read back**: `unquoteBytes` of what `Marshal` writes is the
string with each byte that starts no valid UTF-8 sequence replaced by U+FFFD. -/
theorem unquoteBytes_Marshal (b : Bytes) : unquoteBytes (Marshal b) = some (coerceUTF8 b) := by
  rw [Marshal, appendString, List.nil_append, List.singleton_append, List.cons_append, unquoteBytes_quoted,
    unquoteLoop_stringBody]

end GoSharding
