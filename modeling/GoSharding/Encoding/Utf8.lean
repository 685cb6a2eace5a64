import GoSharding.Go.Bytes

/-!
# Go's `unicode/utf8`

`encoding/json` reads a string rune by rune with `DecodeRune` and writes runes with
`EncodeRune`. `DecodeRune` returns `(RuneError, 1)` at a byte that starts no valid
sequence; a valid sequence of two to four bytes decodes to a rune that `EncodeRune`
writes back as the same bytes, and the bytes after it do not change how it decodes
(`DecodeRune_cases`). Decoding a byte string rune by rune and encoding each rune again
replaces each byte that starts no valid sequence by the bytes of U+FFFD and keeps every
other byte (`coerceUTF8`); on ASCII it changes nothing (`coerceUTF8_eq_of_ascii`).
-/

namespace GoSharding

theorem byte_lt_iff {a b : UInt8} : a < b ↔ a.toNat < b.toNat := Iff.rfl

/-- `RuneError`, U+FFFD. -/
def RuneError : Nat := 0xFFFD

/-- `first[p0]` for a byte that starts a sequence of two to four bytes: its size and
`acceptRanges[x>>4]`, the range of the byte after it. ASCII (`as`) and the bytes that
start no sequence (`xx`) are `none`; the table is written by its ranges. -/
def first (p0 : UInt8) : Option (Nat × UInt8 × UInt8) :=
  if p0 < 0xC2 then none
  else if p0 ≤ 0xDF then some (2, 0x80, 0xBF)
  else if p0 = 0xE0 then some (3, 0xA0, 0xBF)
  else if p0 = 0xED then some (3, 0x80, 0x9F)
  else if p0 ≤ 0xEF then some (3, 0x80, 0xBF)
  else if p0 = 0xF0 then some (4, 0x90, 0xBF)
  else if p0 ≤ 0xF3 then some (4, 0x80, 0xBF)
  else if p0 = 0xF4 then some (4, 0x80, 0x8F)
  else none

/-- `DecodeRune(p)`: the rune at the start of `p` and its size. The masks `p0&mask2` and
`b&maskx` are `% 32` and `% 64`, and the shifted fields are disjoint, so the `|` of the
code is a sum. The cases `[]` after the length check are unreachable. -/
def DecodeRune : Bytes → Nat × Nat
  | [] => (RuneError, 0)
  | p0 :: p =>
    if p0 < 0x80 then (p0.toNat, 1) else
    match first p0 with
    | none => (RuneError, 1)
    | some (sz, lo, hi) =>
      if p.length + 1 < sz then (RuneError, 1) else
      match p with
      | [] => (RuneError, 1)
      | b1 :: p =>
        if b1 < lo || hi < b1 then (RuneError, 1)
        else if sz ≤ 2 then (p0.toNat % 32 * 64 + b1.toNat % 64, 2) else
        match p with
        | [] => (RuneError, 1)
        | b2 :: p =>
          if b2 < 0x80 || 0xBF < b2 then (RuneError, 1)
          else if sz ≤ 3 then (p0.toNat % 16 * 4096 + b1.toNat % 64 * 64 + b2.toNat % 64, 3) else
          match p with
          | [] => (RuneError, 1)
          | b3 :: _ =>
            if b3 < 0x80 || 0xBF < b3 then (RuneError, 1)
            else (p0.toNat % 8 * 262144 + b1.toNat % 64 * 4096 + b2.toNat % 64 * 64 + b3.toNat % 64, 4)

/-- `EncodeRune(p, r)`: the bytes it writes. A surrogate or a rune past U+10FFFF becomes
`RuneError` and falls through to the three-byte case. -/
def EncodeRune (r : Nat) : Bytes :=
  if r ≤ 0x7F then [r.toUInt8]
  else if r ≤ 0x7FF then [(0xC0 + r / 64).toUInt8, (0x80 + r % 64).toUInt8]
  else
    let r := if 0x10FFFF < r ∨ (0xD800 ≤ r ∧ r ≤ 0xDFFF) then RuneError else r
    if r ≤ 0xFFFF then [(0xE0 + r / 4096).toUInt8, (0x80 + r / 64 % 64).toUInt8, (0x80 + r % 64).toUInt8]
    else [(0xF0 + r / 262144).toUInt8, (0x80 + r / 4096 % 64).toUInt8, (0x80 + r / 64 % 64).toUInt8,
      (0x80 + r % 64).toUInt8]

/-! ## Decoding one rune -/

/-- The table `first` and `acceptRanges`, checked at every byte. -/
theorem first_table : ∀ n < 256, (match first n.toUInt8 with
    | some (sz, lo, hi) => decide (0xC2 ≤ n ∧ n ≤ 0xF4 ∧ 0x80 ≤ lo.toNat ∧ hi.toNat ≤ 0xBF ∧
      (sz = 2 ∧ n ≤ 0xDF ∨ sz = 3 ∧ 0xE0 ≤ n ∧ n ≤ 0xEF ∨ sz = 4 ∧ 0xF0 ≤ n) ∧
      (n = 0xE0 → 0xA0 ≤ lo.toNat) ∧ (n = 0xED → hi.toNat ≤ 0x9F) ∧
      (n = 0xF0 → 0x90 ≤ lo.toNat) ∧ (n = 0xF4 → hi.toNat ≤ 0x8F))
    | none => true) = true := by
  set_option maxRecDepth 4000 in decide

theorem first_spec {p0 lo hi : UInt8} {sz : Nat} (h : first p0 = some (sz, lo, hi)) :
    0xC2 ≤ p0.toNat ∧ p0.toNat ≤ 0xF4 ∧ 0x80 ≤ lo.toNat ∧ hi.toNat ≤ 0xBF ∧
    (sz = 2 ∧ p0.toNat ≤ 0xDF ∨ sz = 3 ∧ 0xE0 ≤ p0.toNat ∧ p0.toNat ≤ 0xEF ∨ sz = 4 ∧ 0xF0 ≤ p0.toNat) ∧
    (p0.toNat = 0xE0 → 0xA0 ≤ lo.toNat) ∧ (p0.toNat = 0xED → hi.toNat ≤ 0x9F) ∧
    (p0.toNat = 0xF0 → 0x90 ≤ lo.toNat) ∧ (p0.toNat = 0xF4 → hi.toNat ≤ 0x8F) := by
  have := first_table p0.toNat p0.toNat_lt_size
  rw [toUInt8_toNat, h] at this
  exact of_decide_eq_true this

theorem DecodeRune_of_lt {p0 : UInt8} (h : p0 < 0x80) (p : Bytes) : DecodeRune (p0 :: p) = (p0.toNat, 1) := by
  rw [DecodeRune, if_pos h]

section Multi

variable {p0 b1 b2 b3 lo hi : UInt8} {sz : Nat}

theorem DecodeRune_two (hf : first p0 = some (sz, lo, hi)) (h0 : ¬p0 < 0x80) (h1 : ¬(b1 < lo || hi < b1))
    (hsz : sz = 2) (q : Bytes) : DecodeRune (p0 :: b1 :: q) = (p0.toNat % 32 * 64 + b1.toNat % 64, 2) := by
  simp only [DecodeRune, if_neg h0, hf, if_neg h1, List.length_cons, hsz]
  simp

theorem DecodeRune_three (hf : first p0 = some (sz, lo, hi)) (h0 : ¬p0 < 0x80) (h1 : ¬(b1 < lo || hi < b1))
    (h2 : ¬(b2 < 0x80 || 0xBF < b2)) (hsz : sz = 3) (q : Bytes) :
    DecodeRune (p0 :: b1 :: b2 :: q) = (p0.toNat % 16 * 4096 + b1.toNat % 64 * 64 + b2.toNat % 64, 3) := by
  simp only [DecodeRune, if_neg h0, hf, if_neg h1, if_neg h2, List.length_cons, hsz]
  simp

theorem DecodeRune_four (hf : first p0 = some (sz, lo, hi)) (h0 : ¬p0 < 0x80) (h1 : ¬(b1 < lo || hi < b1))
    (h2 : ¬(b2 < 0x80 || 0xBF < b2)) (h3 : ¬(b3 < 0x80 || 0xBF < b3)) (hsz : sz = 4) (q : Bytes) :
    DecodeRune (p0 :: b1 :: b2 :: b3 :: q) =
      (p0.toNat % 8 * 262144 + b1.toNat % 64 * 4096 + b2.toNat % 64 * 64 + b3.toNat % 64, 4) := by
  simp only [DecodeRune, if_neg h0, hf, if_neg h1, if_neg h2, if_neg h3, List.length_cons, hsz]
  simp

end Multi

theorem EncodeRune_of_lt {r : Nat} (h : r < 0x80) : EncodeRune r = [r.toUInt8] := by
  rw [EncodeRune, if_pos (by omega)]

/-! Each field of a rune of two to four bytes comes out of the arithmetic of `EncodeRune`
as it went in; the lemmas are stated over the fields, so that `omega` sees no byte. -/

theorem EncodeRune_two_fields {a b : Nat} (hb : b < 64) (hlo : 2 ≤ a) (hhi : a < 32) :
    EncodeRune (a * 64 + b) = [(0xC0 + a).toUInt8, (0x80 + b).toUInt8] := by
  rw [EncodeRune, if_neg (by omega), if_pos (by omega)]
  have e1 : (a * 64 + b) / 64 = a := by omega
  have e2 : (a * 64 + b) % 64 = b := by omega
  rw [e1, e2]

theorem EncodeRune_two {p0 b1 : UInt8} (h0 : 0xC2 ≤ p0.toNat ∧ p0.toNat ≤ 0xDF)
    (h1 : 0x80 ≤ b1.toNat ∧ b1.toNat ≤ 0xBF) :
    EncodeRune (p0.toNat % 32 * 64 + b1.toNat % 64) = [p0, b1] := by
  rw [EncodeRune_two_fields (Nat.mod_lt _ (by decide)) (by omega) (Nat.mod_lt _ (by decide))]
  simp only [List.cons.injEq, byte_eq_iff, toNat_toUInt8, and_true]
  omega

/-- A rune of three bytes that is no surrogate is written as itself. -/
theorem EncodeRune_of_le_FFFF {r : Nat} (h1 : 0x7FF < r) (h2 : r ≤ 0xFFFF) (hs : r < 0xD800 ∨ 0xDFFF < r) :
    EncodeRune r = [(0xE0 + r / 4096).toUInt8, (0x80 + r / 64 % 64).toUInt8, (0x80 + r % 64).toUInt8] := by
  have hc : ¬(0x10FFFF < r ∨ (0xD800 ≤ r ∧ r ≤ 0xDFFF)) := by omega
  unfold EncodeRune
  dsimp only
  rw [if_neg (show ¬r ≤ 0x7F by omega), if_neg (show ¬r ≤ 0x7FF by omega), if_neg hc, if_pos h2]

theorem EncodeRune_RuneError : EncodeRune RuneError = [0xEF, 0xBF, 0xBD] := by
  rw [EncodeRune_of_le_FFFF (by decide) (by decide) (by decide)]
  rfl

theorem EncodeRune_three_fields {a b c : Nat} (hb : b < 64) (hc : c < 64) (hhi : a < 16)
    (hlo : 0x800 ≤ a * 4096 + b * 64) (hs : a * 4096 + b * 64 < 0xD800 ∨ 0xE000 ≤ a * 4096 + b * 64) :
    EncodeRune (a * 4096 + b * 64 + c) = [(0xE0 + a).toUInt8, (0x80 + b).toUInt8, (0x80 + c).toUInt8] := by
  rw [EncodeRune_of_le_FFFF (by omega) (by omega) (by omega)]
  have e1 : (a * 4096 + b * 64 + c) / 4096 = a := by omega
  have e2 : (a * 4096 + b * 64 + c) / 64 % 64 = b := by omega
  have e3 : (a * 4096 + b * 64 + c) % 64 = c := by omega
  rw [e1, e2, e3]

theorem EncodeRune_three {p0 b1 b2 : UInt8} (h0 : 0xE0 ≤ p0.toNat ∧ p0.toNat ≤ 0xEF)
    (h1 : 0x80 ≤ b1.toNat ∧ b1.toNat ≤ 0xBF) (h2 : 0x80 ≤ b2.toNat ∧ b2.toNat ≤ 0xBF)
    (hlo : p0.toNat = 0xE0 → 0xA0 ≤ b1.toNat) (hhi : p0.toNat = 0xED → b1.toNat ≤ 0x9F) :
    EncodeRune (p0.toNat % 16 * 4096 + b1.toNat % 64 * 64 + b2.toNat % 64) = [p0, b1, b2] := by
  rw [EncodeRune_three_fields (Nat.mod_lt _ (by decide)) (Nat.mod_lt _ (by decide)) (Nat.mod_lt _ (by decide))
    (by omega) (by omega)]
  simp only [List.cons.injEq, byte_eq_iff, toNat_toUInt8, and_true]
  omega

theorem EncodeRune_four_fields {a b c d : Nat} (hb : b < 64) (hc : c < 64) (hd : d < 64)
    (hlo : 0x10000 ≤ a * 262144 + b * 4096) (hhi : a * 262144 + b * 4096 < 0x110000) :
    EncodeRune (a * 262144 + b * 4096 + c * 64 + d) =
      [(0xF0 + a).toUInt8, (0x80 + b).toUInt8, (0x80 + c).toUInt8, (0x80 + d).toUInt8] := by
  have hs : ¬(0x10FFFF < a * 262144 + b * 4096 + c * 64 + d ∨
      (0xD800 ≤ a * 262144 + b * 4096 + c * 64 + d ∧ a * 262144 + b * 4096 + c * 64 + d ≤ 0xDFFF)) := by
    omega
  unfold EncodeRune
  dsimp only
  rw [if_neg (by omega), if_neg (by omega), if_neg hs, if_neg (by omega)]
  have e1 : (a * 262144 + b * 4096 + c * 64 + d) / 262144 = a := by omega
  have e2 : (a * 262144 + b * 4096 + c * 64 + d) / 4096 % 64 = b := by omega
  have e3 : (a * 262144 + b * 4096 + c * 64 + d) / 64 % 64 = c := by omega
  have e4 : (a * 262144 + b * 4096 + c * 64 + d) % 64 = d := by omega
  rw [e1, e2, e3, e4]

theorem EncodeRune_four {p0 b1 b2 b3 : UInt8} (h0 : 0xF0 ≤ p0.toNat ∧ p0.toNat ≤ 0xF4)
    (h1 : 0x80 ≤ b1.toNat ∧ b1.toNat ≤ 0xBF) (h2 : 0x80 ≤ b2.toNat ∧ b2.toNat ≤ 0xBF)
    (h3 : 0x80 ≤ b3.toNat ∧ b3.toNat ≤ 0xBF)
    (hlo : p0.toNat = 0xF0 → 0x90 ≤ b1.toNat) (hhi : p0.toNat = 0xF4 → b1.toNat ≤ 0x8F) :
    EncodeRune (p0.toNat % 8 * 262144 + b1.toNat % 64 * 4096 + b2.toNat % 64 * 64 + b3.toNat % 64) =
      [p0, b1, b2, b3] := by
  rw [EncodeRune_four_fields (Nat.mod_lt _ (by decide)) (Nat.mod_lt _ (by decide)) (Nat.mod_lt _ (by decide))
    (by omega) (by omega)]
  simp only [List.cons.injEq, byte_eq_iff, toNat_toUInt8, and_true]
  omega

/-- A rune of `n` bytes, two to four, at the start of `p`: `EncodeRune` writes it back as
those bytes, each of them at least `0x80`, and what follows them does not change how they
decode. -/
structure MultiByte (p : Bytes) (r n : Nat) : Prop where
  two_le : 2 ≤ n
  le_four : n ≤ 4
  le_length : n ≤ p.length
  encode : EncodeRune r = p.take n
  high : ∀ c ∈ p.take n, 0x80 ≤ c.toNat
  decode : ∀ q, DecodeRune (p.take n ++ q) = (r, n)

/-- **What `DecodeRune` can return**: an ASCII byte as itself, `RuneError` of size 1 at a
byte that starts no valid sequence, or a rune of two to four bytes. -/
theorem DecodeRune_cases (p0 : UInt8) (p : Bytes) :
    (p0 < 0x80 ∧ DecodeRune (p0 :: p) = (p0.toNat, 1)) ∨
    (¬p0 < 0x80 ∧ DecodeRune (p0 :: p) = (RuneError, 1)) ∨
    MultiByte (p0 :: p) (DecodeRune (p0 :: p)).1 (DecodeRune (p0 :: p)).2 := by
  by_cases h0 : p0 < 0x80
  · exact .inl ⟨h0, DecodeRune_of_lt h0 p⟩
  rcases hf : first p0 with _ | ⟨sz, lo, hi⟩
  · exact .inr (.inl ⟨h0, by simp only [DecodeRune, if_neg h0, hf]⟩)
  obtain ⟨hp0, hp0', hlo, hhi, hsz, hE0, hED, hF0, hF4⟩ := first_spec hf
  by_cases hl : p.length + 1 < sz
  · exact .inr (.inl ⟨h0, by simp only [DecodeRune, if_neg h0, hf, if_pos hl]⟩)
  have htwo : 2 ≤ sz := by rcases hsz with ⟨rfl, -⟩ | ⟨rfl, -⟩ | ⟨rfl, -⟩ <;> decide
  rcases p with _ | ⟨b1, p⟩
  · exact absurd (Nat.lt_of_lt_of_le (by decide) htwo) hl
  by_cases h1 : (b1 < lo || hi < b1)
  · exact .inr (.inl ⟨h0, by simp only [DecodeRune, if_neg h0, hf, if_neg hl, if_pos h1]⟩)
  have hb1 : lo.toNat ≤ b1.toNat ∧ b1.toNat ≤ hi.toNat := by simpa using h1
  rcases hsz with ⟨rfl, hr⟩ | hsz
  · rw [DecodeRune_two hf h0 h1 rfl]
    refine .inr (.inr ⟨le_refl _, by omega, by simp, ?_, by simp; omega, DecodeRune_two hf h0 h1 rfl⟩)
    exact EncodeRune_two (by omega) (by omega)
  have hsz2 : ¬sz ≤ 2 := by omega
  rcases p with _ | ⟨b2, p⟩
  · exact absurd (Nat.lt_of_not_le hsz2) hl
  by_cases h2 : (b2 < 0x80 || 0xBF < b2)
  · exact .inr (.inl ⟨h0, by simp only [DecodeRune, if_neg h0, hf, if_neg hl, if_neg h1, if_neg hsz2, if_pos h2]⟩)
  have hb2 : 0x80 ≤ b2.toNat ∧ b2.toNat ≤ 0xBF := by simpa using h2
  rcases hsz with ⟨rfl, hr⟩ | ⟨rfl, hr⟩
  · rw [DecodeRune_three hf h0 h1 h2 rfl]
    refine .inr (.inr ⟨by omega, by omega, by simp, ?_, by simp; omega, DecodeRune_three hf h0 h1 h2 rfl⟩)
    exact EncodeRune_three (by omega) (by omega) (by omega) (by omega) (by omega)
  rcases p with _ | ⟨b3, p⟩
  · exact absurd (Nat.lt_succ_self 3) hl
  by_cases h3 : (b3 < 0x80 || 0xBF < b3)
  · refine .inr (.inl ⟨h0, ?_⟩)
    simp only [DecodeRune, if_neg h0, hf, if_neg hl, if_neg h1, if_neg hsz2, if_neg h2, if_pos h3]
    simp
  have hb3 : 0x80 ≤ b3.toNat ∧ b3.toNat ≤ 0xBF := by simpa using h3
  rw [DecodeRune_four hf h0 h1 h2 h3 rfl]
  refine .inr (.inr ⟨by omega, le_refl _, by simp, ?_, by simp; omega, DecodeRune_four hf h0 h1 h2 h3 rfl⟩)
  exact EncodeRune_four (by omega) (by omega) (by omega) (by omega) (by omega) (by omega)

theorem DecodeRune_size (p0 : UInt8) (p : Bytes) :
    1 ≤ (DecodeRune (p0 :: p)).2 ∧ (DecodeRune (p0 :: p)).2 ≤ p.length + 1 := by
  rcases DecodeRune_cases p0 p with ⟨-, h⟩ | ⟨-, h⟩ | h
  · simp [h]
  · simp [h]
  · have := h.le_length
    simp only [List.length_cons] at this
    exact ⟨by have := h.two_le; omega, this⟩

theorem length_drop_DecodeRune (p0 : UInt8) (p : Bytes) :
    ((p0 :: p).drop (DecodeRune (p0 :: p)).2).length < p.length + 1 := by
  have := DecodeRune_size p0 p
  simp only [List.length_drop, List.length_cons]
  omega

/-- `DecodeRune` reads at most four bytes, so `DecodeRuneInString(src[i:i+4])` reads what
decoding the whole rest would. -/
theorem DecodeRune_take_four (p0 : UInt8) (p : Bytes) : DecodeRune ((p0 :: p).take 4) = DecodeRune (p0 :: p) := by
  rcases DecodeRune_cases p0 p with ⟨h0, h⟩ | ⟨h0, h⟩ | h
  · rw [h, List.take_succ_cons, DecodeRune_of_lt h0]
  · rw [h, List.take_succ_cons]
    rcases DecodeRune_cases p0 (p.take 3) with ⟨h0', -⟩ | ⟨-, h'⟩ | h'
    · exact absurd h0' h0
    · exact h'
    · have htake : ∀ n ≤ 4, (p0 :: p.take 3).take n = (p0 :: p).take n := fun n hn => by
        rw [show p0 :: p.take 3 = (p0 :: p).take 4 from rfl, List.take_take, Nat.min_eq_left hn]
      have := h'.decode ((p0 :: p).drop (DecodeRune (p0 :: p.take 3)).2)
      rw [htake _ h'.le_four, List.take_append_drop, h] at this
      have h1 := congrArg Prod.snd this
      have := h'.two_le
      simp only at h1
      omega
  · have h4 : (p0 :: p).take 4 = (p0 :: p).take (DecodeRune (p0 :: p)).2 ++
        ((p0 :: p).drop (DecodeRune (p0 :: p)).2).take (4 - (DecodeRune (p0 :: p)).2) := by
      rw [← List.take_add, Nat.add_sub_cancel' h.le_four]
    rw [h4, h.decode]

theorem length_drop_DecodeRune_take (p0 : UInt8) (p : Bytes) :
    ((p0 :: p).drop (DecodeRune ((p0 :: p).take 4)).2).length < p.length + 1 := by
  rw [DecodeRune_take_four]
  exact length_drop_DecodeRune p0 p

/-! ## Coercing to valid UTF-8 -/

/-- The bytes `p` decoded rune by rune and each rune encoded again: each byte that starts
no valid sequence becomes the bytes of `RuneError`, every other byte stays. -/
def coerceUTF8 : Bytes → Bytes
  | [] => []
  | p0 :: p => EncodeRune (DecodeRune (p0 :: p)).1 ++ coerceUTF8 ((p0 :: p).drop (DecodeRune (p0 :: p)).2)
termination_by p => p.length
decreasing_by exact length_drop_DecodeRune _ _

/-- ASCII stays as it is. -/
theorem coerceUTF8_of_ascii (p : Bytes) (h : ∀ c ∈ p, c.toNat < 0x80) : coerceUTF8 p = p := by
  induction p with
  | nil => rw [coerceUTF8]
  | cons p0 p ih =>
    have h0 : p0 < 0x80 := h p0 (List.mem_cons_self _ _)
    rw [coerceUTF8, DecodeRune_of_lt h0, EncodeRune_of_lt (show p0.toNat < 0x80 from h0), toUInt8_toNat]
    simp only [List.drop_one, List.tail_cons, List.singleton_append]
    rw [ih fun c hc => h c (List.mem_cons_of_mem _ hc)]

/-- On bytes that it leaves ASCII, the coercion changes nothing. -/
theorem coerceUTF8_eq_of_ascii (p : Bytes) (h : ∀ c ∈ coerceUTF8 p, c.toNat < 0x80) : coerceUTF8 p = p := by
  induction p using coerceUTF8.induct with
  | case1 => rw [coerceUTF8]
  | case2 p0 p ih =>
    rw [coerceUTF8] at h ⊢
    rcases DecodeRune_cases p0 p with ⟨h0, hd⟩ | ⟨h0, hd⟩ | hm
    · have he : EncodeRune p0.toNat = [p0] := by
        rw [EncodeRune_of_lt (show p0.toNat < 0x80 from h0), toUInt8_toNat]
      simp only [hd, he, List.drop_one, List.tail_cons, List.singleton_append, List.mem_cons,
        forall_eq_or_imp] at h ih ⊢
      rw [ih h.2]
    · rw [hd, EncodeRune_RuneError] at h
      exact absurd (h _ (List.mem_cons_self _ _)) (by decide)
    · rw [hm.encode] at h
      have hp0 : p0 ∈ (p0 :: p).take (DecodeRune (p0 :: p)).2 := by
        rw [List.take_cons (by have := hm.two_le; omega)]
        exact List.mem_cons_self _ _
      have := hm.high p0 hp0
      have := h p0 (List.mem_append_left _ hp0)
      omega

end GoSharding
