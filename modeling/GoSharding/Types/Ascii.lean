import GoSharding.Types.Numeric
import GoSharding.Encoding.Base64

/-!
# The 7-bit-clean encoding

`EncodeASCII` writes `null`, a quoted or bit value's bytes in base64 between
single quotes, or a numeric value's bytes as they are. The first two are ASCII
by construction; the third is ASCII because every byte string Go's parsers
accept is (`ParseInt_ascii`, `ParseUint_ascii`, `ParseFloat_ascii`), and
`NewValue` admits numeric bytes only through them.
-/

namespace GoSharding

/-! ## What the parsers read -/

/-- `s` is `t` after a run of ASCII bytes. -/
def AsciiBefore (s t : Bytes) : Prop := ∃ pre, s = pre ++ t ∧ ∀ c ∈ pre, c.toNat < 0x80

theorem AsciiBefore.refl (s : Bytes) : AsciiBefore s s := ⟨[], rfl, by simp⟩

theorem AsciiBefore.trans {s t u : Bytes} (h1 : AsciiBefore s t) (h2 : AsciiBefore t u) : AsciiBefore s u := by
  obtain ⟨p, rfl, hp⟩ := h1
  obtain ⟨q, rfl, hq⟩ := h2
  exact ⟨p ++ q, (List.append_assoc _ _ _).symm, by simpa using fun c hc => hc.elim (hp c) (hq c)⟩

theorem AsciiBefore.cons {c : UInt8} (hc : c.toNat < 0x80) {s t : Bytes} (h : AsciiBefore s t) :
    AsciiBefore (c :: s) t :=
  AsciiBefore.trans ⟨[c], rfl, by simpa using hc⟩ h

theorem AsciiBefore.take {s t : Bytes} (h : AsciiBefore s t) : ∀ c ∈ s.take (s.length - t.length), c.toNat < 0x80 := by
  obtain ⟨p, rfl, hp⟩ := h
  simpa using hp

/-- `lower` only sets a bit, so a byte is at most its lower case. -/
theorem toNat_le_lower (c : UInt8) : c.toNat ≤ (lower c).toNat := by
  have h : ∀ n < 256, n ≤ (lower n.toUInt8).toNat := by
    set_option maxRecDepth 2000 in decide
  simpa [toUInt8_toNat] using h c.toNat c.toNat_lt_size

theorem ascii_of_lower_le {c b : UInt8} (h : lower c ≤ b) (hb : b.toNat < 0x80) : c.toNat < 0x80 := by
  have h' : (lower c).toNat ≤ b.toNat := h
  have := toNat_le_lower c
  omega

theorem ascii_of_lower_eq {c b : UInt8} (h : lower c = b) (hb : b.toNat < 0x80) : c.toNat < 0x80 :=
  ascii_of_lower_le (h ▸ UInt8.le_refl _) hb

theorem ascii_of_isDigit {c : UInt8} (h : isDigit c) : c.toNat < 0x80 := by
  have := toNat_of_isDigit h
  omega

theorem digitVal_ascii {c : UInt8} {d : Nat} (h : digitVal c = some d) : c.toNat < 0x80 := by
  unfold digitVal at h
  split_ifs at h with h1 h2
  · exact ascii_of_isDigit h1
  · simp only [Bool.and_eq_true, decide_eq_true_eq] at h2
    exact ascii_of_lower_le h2.2 (by decide)

/-! ### Integers -/

theorem parseUintLoop_ascii {base maxVal acc : Nat} {base0 u : Bool} {s : Bytes} {r : Nat × Bool}
    (h : parseUintLoop base base0 maxVal acc u s = .ok r) : ∀ c ∈ s, c.toNat < 0x80 := by
  induction s generalizing acc u with
  | nil => simp
  | cons c s ih =>
    rw [parseUintLoop] at h
    rw [List.forall_mem_cons]
    split at h
    · rename_i hc
      exact ⟨by rw [hc.1]; decide, ih h⟩
    · split at h
      · cases h
      · rename_i hd
        split_ifs at h
        exact ⟨digitVal_ascii hd, ih h⟩

/-- A successful `ParseUint` ran its digit loop over `s` after a base prefix of
`0` and a prefix letter. -/
theorem ParseUint_inv {s : Bytes} {base bitSize n : Nat} (h : ParseUint s base bitSize = .ok n) :
    ∃ pre digits b maxVal u, s = pre ++ digits ∧
      (∀ c ∈ pre, c = '0'.toUInt8 ∨ lower c = 'b'.toUInt8 ∨ lower c = 'o'.toUInt8 ∨ lower c = 'x'.toUInt8) ∧
      parseUintLoop b (decide (base = 0)) maxVal 0 false digits = .ok (n, u) := by
  unfold ParseUint at h
  by_cases hs : s = []
  · simp [hs] at h
  rw [if_neg hs] at h
  dsimp only at h
  split at h
  · cases h
  rename_i b digits hp
  generalize (if bitSize = 0 then 64 else bitSize) = bs at h
  split at h
  · cases h
  split at h
  · cases h
  rename_i m u hl
  split at h
  · cases h
  cases h
  suffices hpre : ∃ pre, s = pre ++ digits ∧
      ∀ c ∈ pre, c = '0'.toUInt8 ∨ lower c = 'b'.toUInt8 ∨ lower c = 'o'.toUInt8 ∨ lower c = 'x'.toUInt8 by
    obtain ⟨pre, hs, hpre⟩ := hpre
    exact ⟨pre, digits, b, _, u, hs, hpre, hl⟩
  by_cases hr : 2 ≤ base ∧ base ≤ 36
  · rw [if_pos hr] at hp; cases hp; exact ⟨[], rfl, by simp⟩
  rw [if_neg hr] at hp
  by_cases hb : base = 0
  · rw [if_pos hb] at hp
    rcases s with _ | ⟨c0, _ | ⟨c1, _ | ⟨c2, rest⟩⟩⟩
    · exact absurd rfl hs
    rotate_right
    · by_cases h0 : c0 = '0'.toUInt8
      · simp only [if_pos h0] at hp
        by_cases h1 : lower c1 = 'b'.toUInt8
        · rw [if_pos h1] at hp; cases hp; exact ⟨[_, _], rfl, by simp [h0, h1]⟩
        by_cases h2 : lower c1 = 'o'.toUInt8
        · rw [if_neg h1, if_pos h2] at hp; cases hp; exact ⟨[_, _], rfl, by simp [h0, h2]⟩
        by_cases h3 : lower c1 = 'x'.toUInt8
        · rw [if_neg h1, if_neg h2, if_pos h3] at hp; cases hp; exact ⟨[_, _], rfl, by simp [h0, h3]⟩
        rw [if_neg h1, if_neg h2, if_neg h3] at hp; cases hp; exact ⟨[_], rfl, by simp [h0]⟩
      · simp only [if_neg h0] at hp; cases hp; exact ⟨[], rfl, by simp⟩
    -- one or two bytes: a leading `0` alone is the octal prefix
    all_goals
      by_cases h0 : c0 = '0'.toUInt8 <;> simp only [h0, ↓reduceIte, Option.some.injEq, Prod.mk.injEq] at hp
        <;> obtain ⟨rfl, rfl⟩ := hp
      · exact ⟨[_], rfl, by simp [h0]⟩
      · exact ⟨[], rfl, by simp⟩
  · rw [if_neg hb] at hp; cases hp

theorem ParseUint_ascii {s : Bytes} {base bitSize n : Nat} (h : ParseUint s base bitSize = .ok n) :
    ∀ c ∈ s, c.toNat < 0x80 := by
  obtain ⟨pre, digits, b, maxVal, u, rfl, hpre, hl⟩ := ParseUint_inv h
  intro c hc
  rcases List.mem_append.1 hc with hc | hc
  · rcases hpre c hc with rfl | h | h | h
    · decide
    all_goals exact ascii_of_lower_eq h (by decide)
  · exact parseUintLoop_ascii hl c hc

theorem ParseInt_ascii {s : Bytes} {base bitSize : Nat} {n : Int} (h : ParseInt s base bitSize = .ok n) :
    ∀ c ∈ s, c.toNat < 0x80 := by
  match s with
  | [] => cases h
  | c :: rest =>
    simp only [ParseInt] at h
    split at h
    · cases h
    · cases h
    · rename_i un hu
      have hd := ParseUint_ascii hu
      intro x hx
      split_ifs at hd with h1 h2
      · rcases List.mem_cons.1 hx with rfl | hx
        · rw [h1]; decide
        · exact hd x hx
      · rcases List.mem_cons.1 hx with rfl | hx
        · rw [h2]; decide
        · exact hd x hx
      · exact hd x hx

/-! ### Floats -/

theorem mem_take_of_le {l : Bytes} {m k : Nat} (hmk : m ≤ k) {c : UInt8} (hc : c ∈ l.take m) : c ∈ l.take k :=
  List.mem_of_mem_take (by rwa [List.take_take, Nat.min_eq_left hmk])

theorem commonPrefixLenIgnoreCase_ascii (s p : Bytes) (hp : ∀ c ∈ p, c.toNat < 0x80) :
    ∀ c ∈ s.take (commonPrefixLenIgnoreCase s p), c.toNat < 0x80 := by
  induction s generalizing p with
  | nil => simp
  | cons c s ih =>
    match p, hp with
    | [], _ => simp [commonPrefixLenIgnoreCase]
    | q :: ps, hp =>
      rw [List.forall_mem_cons] at hp
      simp only [commonPrefixLenIgnoreCase]
      split_ifs with hf hq hq
      · rw [List.take_succ_cons, List.forall_mem_cons]
        exact ⟨by have : c.toNat ≤ 90 := hf.2; omega, ih ps hp.2⟩
      · simp
      · rw [List.take_succ_cons, List.forall_mem_cons]
        exact ⟨hq ▸ hp.1, ih ps hp.2⟩
      · simp

theorem special_ascii {s : Bytes} {n : Nat} (h : special s = some n) : ∀ c ∈ s.take n, c.toNat < 0x80 := by
  have hinf : ∀ nsign t k, (let n := commonPrefixLenIgnoreCase t (ascii "infinity")
      let n := if 3 < n ∧ n < 8 then 3 else n
      if n = 3 ∨ n = 8 then some (nsign + n) else none) = some k →
      ∃ m ≤ commonPrefixLenIgnoreCase t (ascii "infinity"), k = nsign + m := by
    intro nsign t k hk
    dsimp only at hk
    split_ifs at hk with h1 h2 <;> cases hk <;> first | exact ⟨_, le_refl _, rfl⟩ | exact ⟨3, by omega, rfl⟩
  have hcp := fun t => commonPrefixLenIgnoreCase_ascii t (ascii "infinity") (by decide)
  match s with
  | [] => cases h
  | c :: rest =>
    unfold special at h
    dsimp only at h
    by_cases h1 : c = '+'.toUInt8 ∨ c = '-'.toUInt8
    · rw [if_pos h1] at h
      obtain ⟨m, hm, rfl⟩ := hinf _ _ _ h
      rw [Nat.add_comm, List.take_succ_cons, List.forall_mem_cons]
      exact ⟨by rcases h1 with rfl | rfl <;> decide, fun x hx => hcp rest x (mem_take_of_le hm hx)⟩
    rw [if_neg h1] at h
    by_cases h2 : c = 'i'.toUInt8 ∨ c = 'I'.toUInt8
    · rw [if_pos h2] at h
      obtain ⟨m, hm, rfl⟩ := hinf _ _ _ h
      exact fun x hx => hcp _ x (mem_take_of_le hm (by simpa using hx))
    rw [if_neg h2] at h
    split_ifs at h with h3 h4
    cases h
    rw [← h4]
    exact commonPrefixLenIgnoreCase_ascii _ _ (by decide)

theorem readSign_asciiBefore (s : Bytes) : AsciiBefore s (readSign s).2 := by
  match s with
  | [] => exact .refl _
  | c :: rest =>
    simp only [readSign]
    split_ifs with h1 h2
    · exact .cons (by rw [h1]; decide) (.refl _)
    · exact .cons (by rw [h2]; decide) (.refl _)
    · exact .refl _

theorem hexPrefix_asciiBefore (t : Bytes) : AsciiBefore t (hexPrefix t).2 := by
  match t with
  | c0 :: c1 :: c2 :: rest =>
    simp only [hexPrefix]
    split_ifs with h
    · exact .cons (by rw [h.1]; decide) (.cons (ascii_of_lower_eq h.2 (by decide)) (.refl _))
    · exact .refl _
  | [] | [_] | [_, _] => exact .refl _

theorem mantissaLoop_asciiBefore (base : Nat) (m : Mantissa) (t : Bytes) :
    AsciiBefore t (mantissaLoop base m t).2 := by
  induction t generalizing m with
  | nil => exact .refl _
  | cons c cs ih =>
    rw [mantissaLoop]
    by_cases h1 : c = '_'.toUInt8
    · rw [if_pos h1]
      exact .cons (by rw [h1]; decide) (ih _)
    rw [if_neg h1]
    by_cases h2 : c = '.'.toUInt8
    · rw [if_pos h2]
      split_ifs
      · exact .refl _
      · exact .cons (by rw [h2]; decide) (ih _)
    rw [if_neg h2]
    dsimp only
    by_cases hd : isDigit c ∨ (base = 16 ∧ 'a'.toUInt8 ≤ lower c ∧ lower c ≤ 'f'.toUInt8)
    · have hc := hd.elim ascii_of_isDigit fun h => ascii_of_lower_le h.2.2 (by decide)
      split <;> (try split_ifs) <;> first | exact .refl _ | exact .cons hc (ih _)
    · rw [if_neg fun h => hd (.inl h), if_neg fun h => hd (.inr h)]
      exact .refl _

theorem exponentLoop_asciiBefore (e : Nat) (u : Bool) (t : Bytes) : AsciiBefore t (exponentLoop e u t).2.2 := by
  induction t generalizing e u with
  | nil => exact .refl _
  | cons c cs ih =>
    rw [exponentLoop]
    by_cases h1 : isDigit c
    · rw [if_pos h1]
      exact .cons (ascii_of_isDigit h1) (ih _ _)
    rw [if_neg h1]
    split_ifs with h2
    · exact .cons (by rw [h2]; decide) (ih _ _)
    · exact .refl _

theorem readExponent_asciiBefore {hex : Bool} {dp dp' : Int} {u u' : Bool} {t rest : Bytes}
    (h : readExponent hex dp u t = some (dp', u', rest)) : AsciiBefore t rest := by
  match t with
  | [] =>
    simp only [readExponent] at h
    split_ifs at h
    cases h
    exact .refl _
  | c :: cs =>
    rw [readExponent] at h
    by_cases h1 : lower c = (if hex then 'p' else 'e').toUInt8
    · rw [if_pos h1] at h
      have hc : c.toNat < 0x80 := ascii_of_lower_eq h1 (by cases hex <;> decide)
      rcases hs : readSign cs with ⟨eneg, cs'⟩
      have hsign : AsciiBefore cs cs' := by simpa [hs] using readSign_asciiBefore cs
      rw [hs] at h
      dsimp only at h
      rcases cs' with _ | ⟨c', tail⟩
      · cases h
      · rcases he : exponentLoop 0 false (c' :: tail) with ⟨e, u1, rest'⟩
        have hexp : AsciiBefore (c' :: tail) rest' := by
          simpa [he] using exponentLoop_asciiBefore 0 false (c' :: tail)
        rw [he] at h
        dsimp only at h
        split_ifs at h
        all_goals
          obtain ⟨-, -, rfl⟩ := Prod.mk.inj_iff.1 (Option.some.inj h) |>.imp_right Prod.mk.inj_iff.1
          exact .cons hc (hsign.trans hexp)
    · rw [if_neg h1] at h
      split_ifs at h
      cases h
      exact .refl _

theorem readFloat_ascii {s : Bytes} {lit : FloatLit} {n : Nat} (h : readFloat s = some (lit, n)) :
    ∀ c ∈ s.take n, c.toNat < 0x80 := by
  rcases h1 : readSign s with ⟨neg, t⟩
  rcases h2 : hexPrefix t with ⟨hex, t1⟩
  rcases h3 : mantissaLoop (if hex then 16 else 10) {} t1 with ⟨m, t'⟩
  have hc : AsciiBefore s t' := by
    have a := readSign_asciiBefore s
    have b := hexPrefix_asciiBefore t
    have c := mantissaLoop_asciiBefore (if hex then 16 else 10) {} t1
    rw [h1] at a; rw [h2] at b; rw [h3] at c
    exact (a.trans b).trans c
  simp only [readFloat, h1, h2, h3, Option.pure_def, Option.bind_eq_bind, Option.some_bind, Option.none_bind] at h
  by_cases hs : s = []
  · rw [if_pos hs] at h; cases h
  by_cases hd : (!m.sawdigits) = true
  · rw [if_neg hs, if_pos hd] at h; cases h
  rw [if_neg hs, if_neg hd] at h
  obtain ⟨⟨dp, u, rest⟩, hr, h⟩ := Option.bind_eq_some.1 h
  split at h
  · cases h
  obtain ⟨-, rfl⟩ := Prod.mk.inj_iff.1 (Option.some.inj h)
  exact (hc.trans (readExponent_asciiBefore hr)).take

theorem ParseFloat_ascii {s : Bytes} {bitSize : Nat} (h : ParseFloat s bitSize = .ok ()) :
    ∀ c ∈ s, c.toNat < 0x80 := by
  unfold ParseFloat at h
  split at h
  · rename_i n hn
    split_ifs at h with he
    simpa [he] using special_ascii hn
  · split at h
    · cases h
    · rename_i lit n hr
      split_ifs at h with he h'
      simpa [not_not.1 he] using readFloat_ascii hr

/-! ## `EncodeASCII` -/

/-- `encodeBytesASCII`: a quote, the bytes in standard base64, a quote. The
streaming encoder of the code writes what `Encode` writes for the whole input. -/
def encodeBytesASCII (val : Bytes) : Bytes := ['\''.toUInt8] ++ Encode val ++ ['\''.toUInt8]

/-- `Value.EncodeASCII`: `null`, a quoted or bit value in base64, or the raw bytes. -/
def Value.EncodeASCII (v : GoSharding.Value) : Bytes :=
  if v.ValueType = .Null then nullstr
  else if v.IsQuoted || v.ValueType = .Bit then encodeBytesASCII v.Value
  else v.Value

/-- The types `NewValue` accepts: numeric, quoted, bit and NULL. -/
theorem NewValue_accepts {typ : MySqlType} {val : Bytes} {v : Value} (h : NewValue typ val = .ok v) :
    (IsIntegral typ ∨ IsFloat typ ∨ typ = .Decimal) ∨ IsQuoted typ ∨ typ = .Bit ∨ typ = .Null := by
  unfold NewValue at h
  split_ifs at h with h1 h2 h3 h4
  · exact .inl (.inl (by simp [IsIntegral, h1]))
  · exact .inl (.inl (by simp [IsIntegral, h2]))
  · exact .inl (.inr (by simpa using h3))
  · exact .inr (by simpa [or_assoc] using h4)

/-- The bytes `NewValue` accepts for a numeric type are ASCII. -/
theorem NewValue_numeric_ascii {typ : MySqlType} {val : Bytes} {v : Value} (h : NewValue typ val = .ok v)
    (hnum : IsIntegral typ ∨ IsFloat typ ∨ typ = .Decimal) : ∀ c ∈ val, c.toNat < 0x80 := by
  obtain ⟨hs, hu, hf⟩ := NewValue_checks h
  rcases hnum with hi | hnum
  · rcases Bool.or_eq_true_iff.1 hi with hi | hi
    · obtain ⟨n, hn⟩ := hs hi
      exact ParseInt_ascii hn
    · obtain ⟨n, hn⟩ := hu hi
      exact ParseUint_ascii hn
  · exact ParseFloat_ascii (hf hnum)

/-- `EncodeASCII` of every value `NewValue` builds is 7-bit clean: base64 between
quotes for quoted and bit values, `null` for NULL, and for numbers the bytes
themselves, which the parsers admitted only as ASCII. -/
theorem EncodeASCII_sevenBit {typ : MySqlType} {val : Bytes} {v : Value} (h : NewValue typ val = .ok v) :
    (∀ c ∈ v.EncodeASCII, c.toNat < 0x80) ∧
    (IsQuoted typ ∨ typ = .Bit → v.EncodeASCII = ['\''.toUInt8] ++ Encode val ++ ['\''.toUInt8]) ∧
    (typ = .Null → v.EncodeASCII = ascii "null") ∧
    (IsIntegral typ ∨ IsFloat typ ∨ typ = .Decimal → v.EncodeASCII = val ∧ ∀ c ∈ val, c.toNat < 0x80) := by
  obtain rfl := NewValue_ok h
  by_cases hn : typ = .Null
  · subst hn
    have hnull : Value.EncodeASCII (MakeTrusted .Null val) = ascii "null" := rfl
    exact ⟨by rw [hnull]; decide, fun h => by simp [IsQuoted] at h, fun _ => hnull,
      fun h => by simp [IsIntegral, IsSigned, IsUnsigned, IsFloat] at h⟩
  rw [MakeTrusted_of_ne hn]
  by_cases hq : IsQuoted typ ∨ typ = .Bit
  · have henc : Value.EncodeASCII ⟨typ, val⟩ = ['\''.toUInt8] ++ Encode val ++ ['\''.toUInt8] := by
      simp [Value.EncodeASCII, hn, Value.IsQuoted, hq, encodeBytesASCII]
    have hnum : ¬(IsIntegral typ ∨ IsFloat typ ∨ typ = .Decimal) := by
      cases typ <;> simp_all [IsQuoted, IsIntegral, IsSigned, IsUnsigned, IsFloat]
    refine ⟨?_, fun _ => henc, fun h => absurd h hn, fun h => absurd h hnum⟩
    rw [henc]
    intro c hc
    simp only [List.mem_append, List.mem_singleton] at hc
    rcases hc with (rfl | hc) | rfl
    · decide
    · exact Encode_ascii val c hc
    · decide
  · have hnum : IsIntegral typ ∨ IsFloat typ ∨ typ = .Decimal := by
      simpa [hq, hn] using NewValue_accepts h
    have henc : Value.EncodeASCII ⟨typ, val⟩ = val := by
      simp [Value.EncodeASCII, hn, Value.IsQuoted, hq]
    have hasc := NewValue_numeric_ascii h hnum
    exact ⟨by rw [henc]; exact hasc, fun h => absurd h hq, fun h => absurd h hn, fun _ => ⟨henc, hasc⟩⟩

/-- A byte beyond ASCII in a binary value comes out as base64. -/
theorem EncodeASCII_sevenBit_binary :
    NewValue .VarBinary [0xFF] = .ok ⟨.VarBinary, [0xFF]⟩ ∧ Value.EncodeASCII ⟨.VarBinary, [0xFF]⟩ = ascii "'/w=='" :=
  ⟨rfl, (EncodeASCII_sevenBit (show NewValue .VarBinary [0xFF] = .ok ⟨.VarBinary, [0xFF]⟩ from rfl)).2.1 (.inl rfl)⟩

/-- **`EncodeASCII` loses nothing of a quoted or bit value**: it writes the bytes in standard
base64 between two quotes, and decoding what stands between the quotes gives the bytes back. -/
theorem EncodeASCII_base64 {v : Value} (hv : v.IsQuoted ∨ v.ValueType = .Bit) :
    ∃ body, v.EncodeASCII = '\''.toUInt8 :: (body ++ ['\''.toUInt8]) ∧ Decode body = .ok v.Value := by
  obtain ⟨hqb, hn, -⟩ := Value.quotedOrBit_spec hv
  refine ⟨Encode v.Value, ?_, Decode_Encode v.Value⟩
  rw [Value.EncodeASCII, if_neg hn, if_pos hqb, encodeBytesASCII]
  rfl

/-- A bit value of one byte is written as the base64 of that byte. -/
theorem EncodeASCII_base64_bit :
    (Value.IsQuoted ⟨.Bit, [0x80]⟩ ∨ (⟨.Bit, [0x80]⟩ : Value).ValueType = .Bit) ∧
    ∃ body, Value.EncodeASCII ⟨.Bit, [0x80]⟩ = '\''.toUInt8 :: (body ++ ['\''.toUInt8]) ∧
      Decode body = .ok [0x80] :=
  ⟨.inr rfl, EncodeASCII_base64 (.inr rfl)⟩

end GoSharding
