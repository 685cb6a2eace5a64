import GoSharding.Types.Value
import Mathlib.Algebra.Field.Rat

/-!
# Numeric values and MySQL's number literals

`NewValue` checks integer bytes with Go's base-0 parsers and float bytes with
`ParseFloat`, and `EncodeSQL` then writes the bytes as they are. MySQL reads a
number literal in decimal only (`mysqlNumeral`), and `ToInt64`/`ToUint64` parse
in base 10. Base 0 reads the digits after a leading `0` in octal, which agrees
with decimal only when they are zeros and at most one more digit, a number
below 8. So on the bytes `NewValue` accepts, MySQL, the check and the
conversions all read one number exactly when the bytes are, after an optional
sign, decimal digits that do not start with `0` or read below 8
(`ReadsAsDecimal`). Go reads `010` as 8, MySQL and `ToInt64` as 10.

For floats the check is `readFloat` followed by rounding. The exponent loop
multiplies only while the exponent is below 10000, so it reads every exponent
below 100000 exactly and stops short of any larger one. On a MySQL decimal
literal `readFloat` reads MySQL's sign, significant digits and power of ten
exactly when the exponent is below 100000 (`readFloat_mysqlNumeral`). Go also
accepts what MySQL does not read as that number: `010`, the `0b`, `0o` and `0x`
prefixes, underscores, hex floats, `inf` and `nan`.
-/

namespace GoSharding

/-! ## Decimal digits -/

/-- The number the decimal digits `ds` stand for, read after `acc`. -/
def digitsValueFrom (acc : Nat) (ds : Bytes) : Nat :=
  ds.foldl (fun acc c => 10 * acc + (c - '0'.toUInt8).toNat) acc

/-- The number the decimal digits `ds` stand for. -/
def digitsValue (ds : Bytes) : Nat := digitsValueFrom 0 ds

theorem digitsValueFrom_append (acc : Nat) (xs ys : Bytes) :
    digitsValueFrom acc (xs ++ ys) = digitsValueFrom (digitsValueFrom acc xs) ys := by
  simp [digitsValueFrom, List.foldl_append]

theorem digitsValueFrom_cons (acc : Nat) (c : UInt8) (ds : Bytes) :
    digitsValueFrom acc (c :: ds) = digitsValueFrom (10 * acc + (c - '0'.toUInt8).toNat) ds := rfl

theorem le_digitsValueFrom (acc : Nat) (ds : Bytes) : acc ≤ digitsValueFrom acc ds := by
  induction ds generalizing acc with
  | nil => exact le_refl _
  | cons c ds ih => rw [digitsValueFrom_cons]; exact le_trans (by omega) (ih _)

theorem toNat_of_isDigit {c : UInt8} (hc : isDigit c) : 48 ≤ c.toNat ∧ c.toNat ≤ 57 := by
  simpa [isDigit, UInt8.le_def] using hc

/-- A property of the ten digit bytes holds of every byte `isDigit` accepts. -/
theorem digit_forall {P : UInt8 → Prop} (hP : ∀ n < 10, P (48 + n).toUInt8) {c : UInt8} (hc : isDigit c) : P c := by
  have hr := toNat_of_isDigit hc
  have := hP (c.toNat - 48) (by omega)
  rwa [show 48 + (c.toNat - 48) = c.toNat by omega, toUInt8_toNat] at this

theorem digit_sub_lt {c : UInt8} (hc : isDigit c) : (c - '0'.toUInt8).toNat < 10 :=
  digit_forall (P := fun c => (c - '0'.toUInt8).toNat < 10) (by decide) hc

theorem readSign_of_digit {c : UInt8} (hc : isDigit c) (r : Bytes) : readSign (c :: r) = (false, c :: r) := by
  obtain ⟨h1, h2⟩ := digit_forall (P := fun c => c ≠ '+'.toUInt8 ∧ c ≠ '-'.toUInt8) (by decide) hc
  simp [readSign, h1, h2]

/-- The run of decimal digits at the front of `s`, and the bytes after it. -/
def digitRun : Bytes → Bytes × Bytes
  | [] => ([], [])
  | c :: s => if isDigit c then ((digitRun s).1.cons c, (digitRun s).2) else ([], c :: s)

/-- `r` does not start with a decimal digit. -/
def NoDigitHead (r : Bytes) : Prop := ∀ c ∈ r.head?, isDigit c = false

theorem digitRun_append {ds r : Bytes} (hds : ∀ c ∈ ds, isDigit c) (hr : NoDigitHead r) :
    digitRun (ds ++ r) = (ds, r) := by
  induction ds with
  | nil =>
    cases r with
    | nil => rfl
    | cons c r => simp [digitRun, hr c (by simp)]
  | cons c ds ih =>
    simp only [List.mem_cons, forall_eq_or_imp] at hds
    simp [digitRun, hds.1, ih hds.2]

theorem digitRun_spec {s ds r : Bytes} (h : digitRun s = (ds, r)) :
    s = ds ++ r ∧ (∀ c ∈ ds, isDigit c) ∧ NoDigitHead r := by
  induction s generalizing ds r with
  | nil =>
    simp only [digitRun, Prod.mk.injEq] at h
    obtain ⟨rfl, rfl⟩ := h
    simp [NoDigitHead]
  | cons c s ih =>
    by_cases hc : isDigit c
    · simp only [digitRun, hc, if_true, Prod.mk.injEq] at h
      obtain ⟨rfl, rfl⟩ := h
      obtain ⟨hs, hds, hr⟩ := ih rfl
      exact ⟨congrArg (List.cons c) hs, by simpa [hc] using hds, hr⟩
    · simp only [digitRun, hc, Prod.mk.injEq] at h
      obtain ⟨rfl, rfl⟩ := h
      exact ⟨rfl, by simp, by simpa [NoDigitHead] using hc⟩

/-! ## The digit loop -/

/-- One step of a successful loop without underscores: a digit below the base,
and the loop goes on from the number with it. -/
theorem parseUintLoop_cons_ok {base maxVal n m : Nat} {u u' : Bool} {c : UInt8} {ds : Bytes}
    (h : parseUintLoop base false maxVal n u (c :: ds) = .ok (m, u')) :
    ∃ d, digitVal c = some d ∧ d < base ∧ parseUintLoop base false maxVal (n * base + d) u ds = .ok (m, u') := by
  simp only [parseUintLoop, Bool.false_eq_true, and_false, if_false] at h
  rcases hdv : digitVal c with _ | d <;> rw [hdv] at h
  · cases h
  · simp only at h
    split_ifs at h with h1 h2 h3
    exact ⟨d, rfl, by omega, h⟩

theorem digitVal_lt_ten {c : UInt8} {d : Nat} (h : digitVal c = some d) (hd : d < 10) :
    isDigit c ∧ d = (c - '0'.toUInt8).toNat := by
  unfold digitVal at h
  split_ifs at h with h1 h2
  · exact ⟨h1, (Option.some.inj h).symm⟩
  · cases h; omega

/-- A successful loop in base 10 or below reads only digits and underscores. -/
theorem parseUintLoop_mem {base maxVal n m : Nat} {base0 u u' : Bool} {s : Bytes} (hb : base ≤ 10)
    (h : parseUintLoop base base0 maxVal n u s = .ok (m, u')) : ∀ x ∈ s, isDigit x ∨ x = '_'.toUInt8 := by
  induction s generalizing n u with
  | nil => simp
  | cons c s ih =>
    unfold parseUintLoop at h
    by_cases hu : c = '_'.toUInt8 ∧ base0 = true
    · rw [if_pos hu] at h
      exact List.forall_mem_cons.mpr ⟨.inr hu.1, ih h⟩
    · rw [if_neg hu] at h
      rcases hdv : digitVal c with _ | d <;> rw [hdv] at h
      · cases h
      · simp only at h
        split_ifs at h with h1 h2 h3
        exact List.forall_mem_cons.mpr ⟨.inl (digitVal_lt_ten hdv (by omega)).1, ih h⟩

/-- A base-10 digit loop that succeeds read only digits, and reads their value. -/
theorem parseUintLoop_ten {maxVal acc n : Nat} {u u' : Bool} {s : Bytes}
    (h : parseUintLoop 10 false maxVal acc u s = .ok (n, u')) : (∀ c ∈ s, isDigit c) ∧ n = digitsValueFrom acc s := by
  induction s generalizing acc with
  | nil => cases h; exact ⟨by simp, rfl⟩
  | cons c s ih =>
    obtain ⟨d, hdv, hd, h⟩ := parseUintLoop_cons_ok h
    obtain ⟨hc, rfl⟩ := digitVal_lt_ten hdv hd
    obtain ⟨hs, rfl⟩ := ih h
    exact ⟨by simpa [hc] using hs, by rw [digitsValueFrom_cons, Nat.mul_comm]⟩

/-- A successful parse in an explicit base is a successful digit loop from 0. -/
theorem ParseUint_loop {s : Bytes} {base n : Nat} (h : ParseUint s base 64 = .ok n) (hb : 2 ≤ base ∧ base ≤ 36) :
    ∃ u, parseUintLoop base false (2 ^ 64 - 1) 0 false s = .ok (n, u) := by
  by_cases hs : s = []
  · subst hs; simp [ParseUint] at h
  have hb0 : base ≠ 0 := by omega
  simp only [ParseUint, hs, if_false, hb, and_self, if_true, hb0, decide_False, ite_self, lt_self_iff_false] at h
  split at h
  · cases h
  · split_ifs at h
    cases h
    exact ⟨_, ‹_›⟩

theorem ParseUint_ten {s : Bytes} {n : Nat} (h : ParseUint s 10 64 = .ok n) :
    s ≠ [] ∧ (∀ c ∈ s, isDigit c) ∧ n = digitsValue s := by
  refine ⟨fun hs => by subst hs; simp [ParseUint] at h, ?_⟩
  obtain ⟨u, hl⟩ := ParseUint_loop h (by decide)
  exact parseUintLoop_ten hl

/-- `ParseInt` is `ParseUint` of the digits after the sign, with the sign applied. -/
theorem ParseInt_ok {s : Bytes} {base : Nat} {n : Int} (h : ParseInt s base 64 = .ok n) :
    ∃ un : Nat, ParseUint (readSign s).2 base 64 = .ok un ∧ n = if (readSign s).1 then -(un : Int) else un := by
  match s with
  | [] => cases h
  | c :: rest =>
    simp only [ParseInt, ite_self] at h
    rw [show (if c = '+'.toUInt8 then (false, rest) else if c = '-'.toUInt8 then (true, rest) else (false, c :: rest)) =
      readSign (c :: rest) from rfl] at h
    generalize readSign (c :: rest) = p at h ⊢
    obtain ⟨neg, digits⟩ := p
    simp only at h
    split at h
    · cases h
    · cases h
    · refine ⟨_, ‹_›, ?_⟩
      split_ifs at h with h1 h2 h3 <;> cases h <;> simp [h3]

theorem ParseInt_ten {s : Bytes} {n : Int} (h : ParseInt s 10 64 = .ok n) :
    (readSign s).2 ≠ [] ∧ (∀ c ∈ (readSign s).2, isDigit c) ∧
      n = if (readSign s).1 then -(digitsValue (readSign s).2 : Int) else digitsValue (readSign s).2 := by
  obtain ⟨un, hun, rfl⟩ := ParseInt_ok h
  obtain ⟨hne, hd, rfl⟩ := ParseUint_ten hun
  exact ⟨hne, hd, rfl⟩

/-! ## Base 0 against base 10 -/

/-- Bytes that Go reads the same in base 0 as in base 10, and MySQL as the same
decimal integer: after an optional sign, decimal digits only, reading below 8
when they start with `0`. -/
def ReadsAsDecimal (val : Bytes) : Prop :=
  (∀ c ∈ (readSign val).2, isDigit c) ∧
    ((readSign val).2.head? = some '0'.toUInt8 → digitsValue (readSign val).2 < 8)

instance (val : Bytes) : Decidable (ReadsAsDecimal val) := inferInstanceAs (Decidable (_ ∧ _))

theorem parseUintLoop_base0 (base maxVal n : Nat) (u : Bool) {s : Bytes} (hs : '_'.toUInt8 ∉ s) :
    parseUintLoop base true maxVal n u s = parseUintLoop base false maxVal n u s := by
  induction s generalizing n with
  | nil => rfl
  | cons c s ih =>
    simp only [List.mem_cons, not_or] at hs
    have hc : ¬(c = '_'.toUInt8) := fun h => hs.1 h.symm
    simp only [parseUintLoop, hc, false_and, if_false]
    split
    · rfl
    · split_ifs <;> first | rfl | exact ih _ hs.2

/-- A leading zero leaves the loop where it was. -/
theorem parseUintLoop_zero_digit {base : Nat} (hb : 0 < base) (base0 : Bool) (maxVal : Nat) (u : Bool) (rest : Bytes) :
    parseUintLoop base base0 maxVal 0 u ('0'.toUInt8 :: rest) = parseUintLoop base base0 maxVal 0 u rest := by
  rw [parseUintLoop, if_neg fun h => absurd h.1 (by decide), show digitVal '0'.toUInt8 = some 0 from rfl]
  simp [Nat.pos_iff_ne_zero.mp hb]

/-- Digits reading below 8 are zeros and at most one more digit, which base 8
and base 10 read alike. -/
theorem parseUintLoop_octal_of_lt {maxVal : Nat} (u : Bool) {ds : Bytes} (hds : ∀ c ∈ ds, isDigit c)
    (h8 : digitsValue ds < 8) : parseUintLoop 8 false maxVal 0 u ds = parseUintLoop 10 false maxVal 0 u ds := by
  induction ds with
  | nil => rfl
  | cons c ds ih =>
    simp only [List.mem_cons, forall_eq_or_imp] at hds
    have hdv : digitVal c = some (c - '0'.toUInt8).toNat := by simp [digitVal, hds.1]
    rw [digitsValue, digitsValueFrom_cons, Nat.mul_zero, Nat.zero_add] at h8
    have hle := le_digitsValueFrom (c - '0'.toUInt8).toNat ds
    have h8' : ¬(8 ≤ (c - '0'.toUInt8).toNat) := by omega
    have h10 : ¬(10 ≤ (c - '0'.toUInt8).toNat) := by omega
    simp only [parseUintLoop, Bool.false_eq_true, and_false, if_false, hdv, if_neg h8', if_neg h10, Nat.zero_mul,
      Nat.zero_add, Nat.le_zero, Nat.add_one_ne_zero]
    rcases Nat.eq_zero_or_pos (c - '0'.toUInt8).toNat with h0 | hpos
    · rw [h0] at h8 ⊢
      simp only [Nat.not_lt_zero, if_false]
      exact ih hds.2 h8
    · cases ds with
      | cons x ds =>
        rw [digitsValueFrom_cons] at h8
        have := le_digitsValueFrom (10 * (c - '0'.toUInt8).toNat + (x - '0'.toUInt8).toNat) ds
        omega
      | nil => split_ifs <;> rfl

/-- From a start below the decimal one, or a positive decimal start with a digit
to come, octal reading gives less than decimal. -/
theorem parseUintLoop_octal_lt {maxVal a b n : Nat} {u u' : Bool} {ds : Bytes}
    (h : parseUintLoop 8 false maxVal a u ds = .ok (n, u')) (hab : a ≤ b) (hlt : a < b ∨ 0 < b ∧ ds ≠ []) :
    n < digitsValueFrom b ds := by
  induction ds generalizing a b with
  | nil => cases h; simpa using hlt
  | cons c ds ih =>
    obtain ⟨d, hdv, hd, h⟩ := parseUintLoop_cons_ok h
    obtain ⟨-, rfl⟩ := digitVal_lt_ten hdv (by omega)
    have : a < b ∨ 0 < b := hlt.imp id (·.1)
    rw [digitsValueFrom_cons]
    exact ih h (by omega) (.inl (by omega))

/-- Decimal digits reading 8 or more give less read in octal. -/
theorem parseUintLoop_octal_lt_digitsValue {maxVal n : Nat} {u u' : Bool} {ds : Bytes}
    (h : parseUintLoop 8 false maxVal 0 u ds = .ok (n, u')) (h8 : 8 ≤ digitsValue ds) : n < digitsValue ds := by
  induction ds with
  | nil => exact absurd h8 (by decide)
  | cons c ds ih =>
    obtain ⟨d, hdv, hd, h⟩ := parseUintLoop_cons_ok h
    obtain ⟨-, rfl⟩ := digitVal_lt_ten hdv (by omega)
    rw [digitsValue, digitsValueFrom_cons, Nat.mul_zero, Nat.zero_add] at h8 ⊢
    rw [Nat.zero_mul, Nat.zero_add] at h
    rcases Nat.eq_zero_or_pos (c - '0'.toUInt8).toNat with h0 | hpos
    · rw [h0] at h h8 ⊢
      exact ih h h8
    · cases ds with
      | nil => simp [digitsValueFrom] at h8; omega
      | cons x ds => exact parseUintLoop_octal_lt h le_rfl (.inr ⟨hpos, List.cons_ne_nil _ _⟩)

theorem ParseUint_octal_of_lt {s : Bytes} (hds : ∀ c ∈ s, isDigit c) (h8 : digitsValue s < 8) (bitSize : Nat) :
    ParseUint s 8 bitSize = ParseUint s 10 bitSize := by
  simp [ParseUint, parseUintLoop_octal_of_lt _ hds h8]

/-- Base 0 reads the digits after a leading `0` in octal, as base 8 reads them all. -/
theorem ParseUint_base0_octal {rest : Bytes} (hds : ∀ c ∈ rest, isDigit c) (bitSize : Nat) :
    ParseUint ('0'.toUInt8 :: rest) 0 bitSize = ParseUint ('0'.toUInt8 :: rest) 8 bitSize := by
  have hu : '_'.toUInt8 ∉ rest := fun h => absurd (hds _ h) (by decide)
  have hz := parseUintLoop_zero_digit (by decide : 0 < 8) false
  rcases rest with _ | ⟨c1, _ | ⟨c2, rest⟩⟩
  · rfl
  · simp [ParseUint, parseUintLoop_base0 _ _ _ _ hu, hz]
  · obtain ⟨h1, h2, h3⟩ := digit_forall
      (P := fun c => lower c ≠ 'b'.toUInt8 ∧ lower c ≠ 'o'.toUInt8 ∧ lower c ≠ 'x'.toUInt8) (by decide)
      (hds c1 (List.mem_cons_self _ _))
    simp [ParseUint, parseUintLoop_base0 _ _ _ _ hu, hz, h1, h2, h3]

/-- Without underscores, base 0 and base 10 agree on bytes that, when they start
with `0`, are digits reading below 8. -/
theorem ParseUint_base0_eq {s : Bytes} (hs : '_'.toUInt8 ∉ s)
    (hz : s.head? = some '0'.toUInt8 → (∀ c ∈ s, isDigit c) ∧ digitsValue s < 8) (bitSize : Nat) :
    ParseUint s 0 bitSize = ParseUint s 10 bitSize := by
  match s, hz with
  | [], _ => rfl
  | c :: rest, hz =>
    by_cases hc : c = '0'.toUInt8
    · subst hc
      obtain ⟨hd, h8⟩ := hz rfl
      rw [ParseUint_base0_octal (fun x hx => hd x (List.mem_cons_of_mem _ hx)), ParseUint_octal_of_lt hd h8]
    · rcases rest with _ | ⟨c1, _ | ⟨c2, rest⟩⟩ <;>
        simp [ParseUint, hc, parseUintLoop_base0 _ _ _ _ hs]

theorem readSign_cases (s : Bytes) :
    readSign s = (false, s) ∨ ∃ c t, s = c :: t ∧ (c = '+'.toUInt8 ∨ c = '-'.toUInt8) ∧ (readSign s).2 = t := by
  match s with
  | [] => exact .inl rfl
  | c :: t =>
    simp only [readSign]
    split_ifs with h1 h2
    exacts [.inr ⟨c, t, rfl, .inl h1, rfl⟩, .inr ⟨c, t, rfl, .inr h2, rfl⟩, .inl rfl]

theorem ParseUint_base0_eq_of_readsAsDecimal {s : Bytes} (h : ReadsAsDecimal s) (bitSize : Nat) :
    ParseUint s 0 bitSize = ParseUint s 10 bitSize := by
  obtain ⟨hd, hz⟩ := h
  rcases readSign_cases s with hs | ⟨c, t, rfl, hc, ht⟩
  · rw [hs] at hd hz
    exact ParseUint_base0_eq (fun h => absurd (hd _ h) (by decide)) (fun h0 => ⟨hd, hz h0⟩) bitSize
  · rw [ht] at hd
    have hc' : c ≠ '_'.toUInt8 ∧ c ≠ '0'.toUInt8 := by rcases hc with rfl | rfl <;> decide
    refine ParseUint_base0_eq (fun h => ?_) (fun h0 => absurd (by simpa using h0) hc'.2) bitSize
    rcases List.mem_cons.mp h with h | h
    · exact hc'.1 h.symm
    · exact absurd (hd _ h) (by decide)

/-- `ParseInt` reads bytes that read as decimal the same in base 0 as in base 10. -/
theorem ParseInt_base0_eq {s : Bytes} (h : ReadsAsDecimal s) : ParseInt s 0 64 = ParseInt s 10 64 := by
  obtain ⟨hd, hz⟩ := h
  match s, hd, hz with
  | [], _, _ => rfl
  | c :: rest, hd, hz =>
    have hdigits : ∀ t : Bytes, t = (readSign (c :: rest)).2 → ParseUint t 0 64 = ParseUint t 10 64 := by
      intro t ht
      subst ht
      exact ParseUint_base0_eq (fun hm => absurd (hd _ hm) (by decide)) (fun h0 => ⟨hd, hz h0⟩) 64
    unfold ParseInt
    by_cases h1 : c = '+'.toUInt8
    · simp only [if_pos h1, ite_self, hdigits rest (by rw [readSign, if_pos h1])]
    · by_cases h2 : c = '-'.toUInt8
      · simp only [if_neg h1, if_pos h2, ite_self, hdigits rest (by rw [readSign, if_neg h1, if_pos h2])]
      · simp only [if_neg h1, if_neg h2, ite_self, hdigits (c :: rest) (by rw [readSign, if_neg h1, if_neg h2])]

/-- Decimal digits that base 0 reads as their decimal value read as decimal. -/
theorem readsAsDecimal_of_base0 {s : Bytes} {un : Nat} (hd : ∀ c ∈ (readSign s).2, isDigit c)
    (h0 : ParseUint (readSign s).2 0 64 = .ok un) (heq : un = digitsValue (readSign s).2) : ReadsAsDecimal s := by
  refine ⟨hd, fun hz => ?_⟩
  generalize (readSign s).2 = ds at hd h0 heq hz
  obtain ⟨rest, rfl⟩ : ∃ rest, ds = '0'.toUInt8 :: rest := by
    cases ds with
    | nil => cases hz
    | cons c rest => exact ⟨rest, by simpa using hz⟩
  by_contra h8
  rw [ParseUint_base0_octal (fun x hx => hd x (List.mem_cons_of_mem _ hx))] at h0
  obtain ⟨u, hl⟩ := ParseUint_loop h0 (by decide)
  exact absurd heq (Nat.ne_of_lt (parseUintLoop_octal_lt_digitsValue hl (by omega)))

/-- What base 0 accepts from a first byte other than `0` on: digits and underscores. -/
theorem ParseUint_base0_mem_of_ne {s : Bytes} {n : Nat} (h : ParseUint s 0 64 = .ok n)
    (hs : s.head? ≠ some '0'.toUInt8) : ∀ x ∈ s, isDigit x ∨ x = '_'.toUInt8 := by
  match s, hs with
  | [], _ => cases h
  | c :: rest, hs =>
    have hc : c ≠ '0'.toUInt8 := fun h => hs (by simp [h])
    have hl : ∃ m u, parseUintLoop 10 true (2 ^ 64 - 1) 0 false (c :: rest) = .ok (m, u) := by
      rcases rest with _ | ⟨c1, _ | ⟨c2, rest⟩⟩ <;> simp [ParseUint, hc] at h <;>
        (split at h <;> [cases h; exact ⟨_, _, ‹_›⟩])
    obtain ⟨m, u, hl⟩ := hl
    exact parseUintLoop_mem (by decide) hl

/-- What base 0 accepts after a leading `0` that no base letter follows: digits
and underscores. -/
theorem ParseUint_base0_mem_zero {rest : Bytes} {n : Nat} (h : ParseUint ('0'.toUInt8 :: rest) 0 64 = .ok n)
    (hp : ∀ c ∈ rest.head?, lower c ≠ 'b'.toUInt8 ∧ lower c ≠ 'o'.toUInt8 ∧ lower c ≠ 'x'.toUInt8) :
    ∀ x ∈ rest, isDigit x ∨ x = '_'.toUInt8 := by
  have hl : ∃ m u, parseUintLoop 8 true (2 ^ 64 - 1) 0 false rest = .ok (m, u) := by
    rcases rest with _ | ⟨c1, _ | ⟨c2, rest⟩⟩
    · exact ⟨0, false, rfl⟩
    · simp [ParseUint] at h
      split at h <;> [cases h; exact ⟨_, _, ‹_›⟩]
    · obtain ⟨h1, h2, h3⟩ := hp c1 rfl
      simp [ParseUint, h1, h2, h3] at h
      split at h <;> [cases h; exact ⟨_, _, ‹_›⟩]
  obtain ⟨m, u, hl⟩ := hl
  exact parseUintLoop_mem (by decide) hl

/-! ## MySQL's decimal literals -/

/-- A number as MySQL reads it from a decimal literal: the sign, all its digits
as one number, how many of them follow the point, and the exponent. -/
structure DecimalNumber where
  neg : Bool
  mantissa : Nat
  fracDigits : Nat
  expNeg : Bool
  expValue : Nat
deriving DecidableEq, Repr

/-- The power of ten the digits are scaled by. -/
def DecimalNumber.exp10 (d : DecimalNumber) : Int :=
  (if d.expNeg then -(d.expValue : Int) else d.expValue) - d.fracDigits

/-- The number, `±mantissa · 10 ^ exp10`. -/
def DecimalNumber.value (d : DecimalNumber) : ℚ :=
  (if d.neg then -1 else 1) * d.mantissa * (10 : ℚ) ^ d.exp10

/-- MySQL's optional exponent of a decimal literal, to the end of the bytes:
`e` or `E`, an optional sign and digits. Its sign and value. -/
def mysqlExponent : Bytes → Option (Bool × Nat)
  | [] => some (false, 0)
  | c :: r =>
    if lower c = 'e'.toUInt8 then
      match digitRun (readSign r).2 with
      | (ed, []) => if ed = [] then none else some ((readSign r).1, digitsValue ed)
      | _ => none
    else none

/-- MySQL's optional fraction: a point and the digits after it. -/
def mysqlFraction : Bytes → Bytes × Bytes
  | c :: r => if c = '.'.toUInt8 then digitRun r else ([], c :: r)
  | [] => ([], [])

/-- Modelled from the spec: how MySQL reads a decimal number literal, an
optional sign, decimal digits, an optional fraction, an optional exponent.
`none` for anything else. -/
def mysqlNumeral (s : Bytes) : Option DecimalNumber :=
  let (ip, t) := digitRun (readSign s).2
  if ip = [] then none else
  let (fp, t) := mysqlFraction t
  (mysqlExponent t).map fun (eneg, e) => ⟨(readSign s).1, digitsValue (ip ++ fp), fp.length, eneg, e⟩

/-- What `mysqlExponent` accepts: nothing, or a mark, a sign and digits. -/
def ExponentTail (t : Bytes) (eneg : Bool) (e : Nat) : Prop :=
  t = [] ∧ eneg = false ∧ e = 0 ∨
  ∃ c r ed, t = c :: r ∧ lower c = 'e'.toUInt8 ∧ readSign r = (eneg, ed) ∧ ed ≠ [] ∧ (∀ x ∈ ed, isDigit x) ∧
    e = digitsValue ed

theorem mysqlExponent_spec {t : Bytes} {eneg : Bool} {e : Nat} (h : mysqlExponent t = some (eneg, e)) :
    ExponentTail t eneg e := by
  match t with
  | [] =>
    obtain ⟨rfl, rfl⟩ : false = eneg ∧ 0 = e := by simpa [mysqlExponent] using h
    exact .inl ⟨rfl, rfl, rfl⟩
  | c :: r =>
    simp only [mysqlExponent] at h
    split_ifs at h with hc
    rcases hd : digitRun (readSign r).2 with ⟨ed, _ | ⟨x, t'⟩⟩ <;> rw [hd] at h
    · obtain ⟨hs, hed, -⟩ := digitRun_spec hd
      simp only at h
      split_ifs at h with hne
      obtain ⟨rfl, rfl⟩ := Prod.mk.inj (Option.some.inj h)
      exact .inr ⟨c, r, ed, rfl, hc, by rw [← List.append_nil ed, ← hs], hne, hed, rfl⟩
    · cases h

theorem mysqlFraction_spec {t fp t' : Bytes} (h : mysqlFraction t = (fp, t')) :
    (∀ c ∈ fp, isDigit c) ∧ (t = t' ∧ fp = [] ∨ t = '.'.toUInt8 :: fp ++ t') := by
  match t with
  | [] =>
    obtain ⟨rfl, rfl⟩ := Prod.mk.inj h.symm
    exact ⟨by simp, .inl ⟨rfl, rfl⟩⟩
  | c :: r =>
    simp only [mysqlFraction] at h
    split_ifs at h with hc
    · obtain ⟨hr, hfp, -⟩ := digitRun_spec h
      exact ⟨hfp, .inr (by rw [hc, hr, List.cons_append])⟩
    · obtain ⟨rfl, rfl⟩ := Prod.mk.inj h.symm
      exact ⟨by simp, .inl ⟨rfl, rfl⟩⟩

/-- The shape of a decimal literal MySQL reads, and the number it reads. -/
theorem mysqlNumeral_spec {s : Bytes} {d : DecimalNumber} (h : mysqlNumeral s = some d) :
    ∃ ip fp frac t, (readSign s).2 = ip ++ frac ++ t ∧ ip ≠ [] ∧ (∀ c ∈ ip, isDigit c) ∧
      (∀ c ∈ fp, isDigit c) ∧ (frac = [] ∧ fp = [] ∨ frac = '.'.toUInt8 :: fp) ∧
      ExponentTail t d.expNeg d.expValue ∧
      d.neg = (readSign s).1 ∧ d.mantissa = digitsValue (ip ++ fp) ∧ d.fracDigits = fp.length := by
  unfold mysqlNumeral at h
  rcases hr : digitRun (readSign s).2 with ⟨ip, t⟩
  obtain ⟨hs, hip, -⟩ := digitRun_spec hr
  rw [hr] at h
  simp only at h
  split_ifs at h with hne
  rcases hf : mysqlFraction t with ⟨fp, t'⟩
  obtain ⟨hfp, hshape⟩ := mysqlFraction_spec hf
  rw [hf] at h
  simp only at h
  rcases hx : mysqlExponent t' with _ | ⟨eneg, e⟩ <;> rw [hx] at h
  · cases h
  · cases h
    refine ⟨ip, fp, ?_⟩
    rcases hshape with ⟨rfl, rfl⟩ | rfl
    · exact ⟨[], t, by simp [hs], hne, hip, hfp, .inl ⟨rfl, rfl⟩, mysqlExponent_spec hx, rfl, rfl, rfl⟩
    · exact ⟨_, t', by simp [hs], hne, hip, hfp, .inr rfl, mysqlExponent_spec hx, rfl, rfl, rfl⟩

theorem mysqlNumeral_digits {s : Bytes} (hne : (readSign s).2 ≠ []) (hd : ∀ c ∈ (readSign s).2, isDigit c) :
    mysqlNumeral s = some ⟨(readSign s).1, digitsValue (readSign s).2, 0, false, 0⟩ := by
  have hr := digitRun_append hd (r := []) (by simp [NoDigitHead])
  rw [List.append_nil] at hr
  simp [mysqlNumeral, hr, hne, mysqlFraction, mysqlExponent]

theorem value_of_digits (neg : Bool) (m : Nat) :
    (⟨neg, m, 0, false, 0⟩ : DecimalNumber).value = if neg then -(m : ℚ) else m := by
  cases neg <;> simp [DecimalNumber.value, DecimalNumber.exp10]

/-! ## What `readFloat` makes of a decimal literal -/

theorem ne_of_isDigit {c x : UInt8} (hc : isDigit c) (hx : isDigit x = false) : c ≠ x := by
  rintro rfl; simp [hc] at hx

/-- One digit of `readFloat`'s decimal loop: a leading zero moves the point,
any other digit joins the significant ones. -/
def digitStep (m : Mantissa) (c : UInt8) : Mantissa :=
  if (c - '0'.toUInt8).toNat = 0 ∧ m.nd = 0 then { m with sawdigits := true, dp := m.dp - 1 }
  else { m with sawdigits := true, nd := m.nd + 1, value := m.value * 10 + (c - '0'.toUInt8).toNat }

theorem mantissaLoop_digits (m : Mantissa) {ds : Bytes} (rest : Bytes) (hds : ∀ c ∈ ds, isDigit c) :
    mantissaLoop 10 m (ds ++ rest) = mantissaLoop 10 (ds.foldl digitStep m) rest := by
  induction ds generalizing m with
  | nil => rfl
  | cons c ds ih =>
    simp only [List.mem_cons, forall_eq_or_imp] at hds
    have h1 := ne_of_isDigit hds.1 (x := '_'.toUInt8) rfl
    have h2 := ne_of_isDigit hds.1 (x := '.'.toUInt8) rfl
    rw [List.cons_append, mantissaLoop, if_neg h1, if_neg h2, List.foldl_cons, ← ih _ hds.2]
    simp only [hds.1, if_true]
    rcases hd : (c - '0'.toUInt8).toNat with _ | d
    · by_cases hnd : m.nd = 0 <;> simp [digitStep, hd, hnd]
    · simp [digitStep, hd]

theorem mantissaLoop_stop (m : Mantissa) {c : UInt8} (cs : Bytes) (h1 : c ≠ '_'.toUInt8) (h2 : c ≠ '.'.toUInt8)
    (hc : isDigit c = false) : mantissaLoop 10 m (c :: cs) = (m, c :: cs) := by
  rw [mantissaLoop, if_neg h1, if_neg h2]
  simp [hc]

/-- What the decimal loop knows after a run of digits: their value, the point
moved back by one per digit, and the other flags as they were. -/
theorem foldl_digitStep (m : Mantissa) (ds : Bytes) (hm : m.nd = 0 → m.value = 0) :
    (ds.foldl digitStep m).value = digitsValueFrom m.value ds ∧
      (ds.foldl digitStep m).dp - (ds.foldl digitStep m).nd = m.dp - m.nd - ds.length ∧
      (ds.foldl digitStep m).sawdot = m.sawdot ∧ (ds.foldl digitStep m).underscores = m.underscores ∧
      (ds.foldl digitStep m).sawdigits = (m.sawdigits || ds ≠ []) ∧
      ((ds.foldl digitStep m).nd = 0 → (ds.foldl digitStep m).value = 0) := by
  induction ds generalizing m with
  | nil => exact ⟨rfl, by simp, rfl, rfl, by simp, hm⟩
  | cons c ds ih =>
    have hstep : (digitStep m c).value = 10 * m.value + (c - '0'.toUInt8).toNat ∧
        (digitStep m c).dp - (digitStep m c).nd = m.dp - m.nd - 1 ∧ (digitStep m c).sawdot = m.sawdot ∧
        (digitStep m c).underscores = m.underscores ∧ (digitStep m c).sawdigits = true ∧
        ((digitStep m c).nd = 0 → (digitStep m c).value = 0) := by
      unfold digitStep
      split_ifs with h
      · exact ⟨by simp [h.1, hm h.2], by simp only; omega, rfl, rfl, rfl, fun _ => hm h.2⟩
      · exact ⟨by simp only; omega, by simp only; push_cast; omega, rfl, rfl, rfl, fun h => absurd h (Nat.succ_ne_zero _)⟩
    obtain ⟨hv, hd, hs, hu, hg, hz⟩ := ih (digitStep m c) hstep.2.2.2.2.2
    simp only [List.foldl_cons]
    refine ⟨by rw [hv, hstep.1, digitsValueFrom_cons], by rw [hd, hstep.2.1]; simp; omega, by rw [hs, hstep.2.2.1],
      by rw [hu, hstep.2.2.2.1], by rw [hg, hstep.2.2.2.2.1]; simp, hz⟩

/-- The exponent loop multiplies only below 10000: from below 100000 it stays
below 100000, and it reads every exponent below 100000 exactly. -/
theorem exponentLoop_digits (e : Nat) (u : Bool) {ds : Bytes} (hds : ∀ c ∈ ds, isDigit c) (he : e < 100000) :
    ∃ e', exponentLoop e u ds = (e', u, []) ∧ e' < 100000 ∧
      (digitsValueFrom e ds < 100000 → e' = digitsValueFrom e ds) := by
  induction ds generalizing e with
  | nil => exact ⟨e, rfl, he, fun _ => rfl⟩
  | cons c ds ih =>
    simp only [List.mem_cons, forall_eq_or_imp] at hds
    have hd := digit_sub_lt hds.1
    rw [exponentLoop, if_pos hds.1, digitsValueFrom_cons]
    obtain ⟨e', h, hlt, heq⟩ :=
      ih (if e < 10000 then e * 10 + (c - '0'.toUInt8).toNat else e) hds.2 (by split_ifs <;> omega)
    refine ⟨e', h, hlt, fun hv => ?_⟩
    have := le_digitsValueFrom (10 * e + (c - '0'.toUInt8).toNat) ds
    rw [if_pos (by omega), Nat.mul_comm] at heq
    exact heq hv

/-- The exponent mark of a decimal literal is no underscore, point or digit. -/
theorem mark_of_lower_e {c : UInt8} (h : lower c = 'e'.toUInt8) :
    c ≠ '_'.toUInt8 ∧ c ≠ '.'.toUInt8 ∧ isDigit c = false := by
  refine ⟨?_, ?_, ?_⟩
  · rintro rfl; exact absurd h (by decide)
  · rintro rfl; exact absurd h (by decide)
  · cases hc : isDigit c
    · rfl
    · exact absurd h (digit_forall (P := fun c => lower c ≠ 'e'.toUInt8) (by decide) hc)

theorem mantissaLoop_mark (m : Mantissa) {t : Bytes} (ht : ∀ c ∈ t.head?, lower c = 'e'.toUInt8) :
    mantissaLoop 10 m t = (m, t) := by
  match t with
  | [] => rfl
  | c :: r =>
    obtain ⟨h1, h2, h3⟩ := mark_of_lower_e (ht c rfl)
    exact mantissaLoop_stop m r h1 h2 h3

/-- `readFloat`'s digit loop over a decimal literal's digits and optional
fraction: it reads all the digits as one number and puts the point before the
fraction's digits. -/
theorem mantissaLoop_decimal {ip fp frac t : Bytes} (hne : ip ≠ []) (hip : ∀ c ∈ ip, isDigit c)
    (hfp : ∀ c ∈ fp, isDigit c) (hfrac : frac = [] ∧ fp = [] ∨ frac = '.'.toUInt8 :: fp)
    (ht : ∀ c ∈ t.head?, lower c = 'e'.toUInt8) :
    ∃ m : Mantissa, mantissaLoop 10 {} (ip ++ frac ++ t) = (m, t) ∧ m.value = digitsValue (ip ++ fp) ∧
      m.sawdigits = true ∧ m.underscores = false ∧ (if m.sawdot then m.dp else m.nd) - m.nd = -fp.length := by
  obtain ⟨hv1, hd1, hs1, hu1, hg1, hz1⟩ := foldl_digitStep {} ip (fun _ => rfl)
  rw [List.append_assoc, mantissaLoop_digits _ _ hip]
  generalize ip.foldl digitStep {} = m1 at *
  simp only [Bool.false_or, ne_eq, hne, not_false_eq_true, decide_True] at hv1 hd1 hs1 hu1 hg1
  rcases hfrac with ⟨rfl, rfl⟩ | rfl
  · refine ⟨_, mantissaLoop_mark _ ht, by simpa using hv1, hg1, hu1, ?_⟩
    simp [hs1]
  · obtain ⟨hv2, hd2, hs2, hu2, hg2, -⟩ := foldl_digitStep { m1 with sawdot := true, dp := m1.nd } fp hz1
    rw [List.cons_append, mantissaLoop, if_neg (by decide), if_pos rfl, if_neg (by simp [hs1]),
      mantissaLoop_digits _ _ hfp, mantissaLoop_mark _ ht]
    refine ⟨_, rfl, by
      rw [hv2]; exact hv1 ▸ (digitsValueFrom_append 0 ip fp).symm, by rw [hg2]; simp [hg1],
      by rw [hu2, hu1], ?_⟩
    rw [hs2, if_pos rfl, hd2]
    simp

theorem readExponent_tail {t : Bytes} {eneg : Bool} {e : Nat} (ht : ExponentTail t eneg e) :
    ∃ e', e' < 100000 ∧ (e < 100000 → e' = e) ∧
      ∀ dp : Int, readExponent false dp false t = some (if eneg then dp - e' else dp + e', false, []) := by
  rcases ht with ⟨rfl, rfl, rfl⟩ | ⟨c, r, ed, rfl, hc, hr, hne, hed, rfl⟩
  · exact ⟨0, by decide, fun _ => rfl, fun dp => by simp [readExponent]⟩
  · obtain ⟨x, xs, rfl⟩ := List.exists_cons_of_ne_nil hne
    obtain ⟨e', hl, hlt, heq⟩ := exponentLoop_digits 0 false hed (by decide)
    refine ⟨e', hlt, heq, fun dp => ?_⟩
    simp only [readExponent, Bool.false_eq_true, if_false, hc, if_true, hr, hed x (List.mem_cons_self _ _)]
    rw [hl]
    rfl

/-- A digit after an optional sign starts neither an infinity nor a NaN. -/
theorem special_of_digit {s : Bytes} {c : UInt8} (hc : isDigit c) (h : (readSign s).2.head? = some c) :
    special s = none := by
  have hP := digit_forall (P := fun c => c ≠ '+'.toUInt8 ∧ c ≠ '-'.toUInt8 ∧ c ≠ 'i'.toUInt8 ∧ c ≠ 'I'.toUInt8 ∧
    c ≠ 'n'.toUInt8 ∧ c ≠ 'N'.toUInt8 ∧ (if 'A'.toUInt8 ≤ c ∧ c ≤ 'Z'.toUInt8 then c + 32 else c) ≠ 'i'.toUInt8)
    (by decide) hc
  obtain ⟨h1, h2, h3, h4, h5, h6, h7⟩ := hP
  have hinf : ∀ r, commonPrefixLenIgnoreCase (c :: r) (ascii "infinity") = 0 := fun r => by
    simp [commonPrefixLenIgnoreCase, ascii, h7]
  match s with
  | [] => cases h
  | c0 :: rest =>
    simp only [readSign] at h
    split_ifs at h with hp hm
    · obtain ⟨r, rfl⟩ := List.head?_eq_some_iff.1 h
      simp [special, hp, hinf]
    · obtain ⟨r, rfl⟩ := List.head?_eq_some_iff.1 h
      simp [special, hm, hinf]
    · obtain rfl : c0 = c := by simpa using h
      simp [special, h1, h2, h3, h4, h5, h6]

theorem hexPrefix_eq {t : Bytes} (h : ∀ c ∈ t.tail.head?, lower c ≠ 'x'.toUInt8) : hexPrefix t = (false, t) := by
  match t with
  | c0 :: c1 :: c2 :: rest => simp [hexPrefix, h c1 rfl]
  | [] | [_] | [_, _] => rfl

/-- On a MySQL decimal literal `readFloat` takes every byte and reads MySQL's sign
and digits, and an exponent below 100000 that is MySQL's when MySQL's is. -/
theorem readFloat_mysqlNumeral {s : Bytes} {d : DecimalNumber} (h : mysqlNumeral s = some d) :
    special s = none ∧ ∃ e', e' < 100000 ∧ (d.expValue < 100000 → e' = d.expValue) ∧
      readFloat s = some (⟨d.neg, d.mantissa, 10, (if d.expNeg then -(e' : Int) else e') - d.fracDigits⟩, s.length) := by
  obtain ⟨ip, fp, frac, t, hs, hne, hip, hfp, hfrac, ht, hneg, hman, hfd⟩ := mysqlNumeral_spec h
  have hmark : ∀ c ∈ t.head?, lower c = 'e'.toUInt8 := by
    rcases ht with ⟨rfl, -⟩ | ⟨c, r, ed, rfl, hc, -⟩ <;> simp [*]
  obtain ⟨m, hm, hv, hg, hu, hdp⟩ := mantissaLoop_decimal hne hip hfp hfrac hmark
  obtain ⟨e', hlt, heq, hx⟩ := readExponent_tail ht
  obtain ⟨c, ip', rfl⟩ := List.exists_cons_of_ne_nil hne
  have hc := hip c (List.mem_cons_self _ _)
  have hhex : hexPrefix (c :: ip' ++ frac ++ t) = (false, c :: ip' ++ frac ++ t) := by
    refine hexPrefix_eq fun c1 hc1 => ?_
    rcases ip' with _ | ⟨c2, ip'⟩
    · rcases hfrac with ⟨rfl, -⟩ | rfl
      · rw [hmark c1 (by simpa using hc1)]; decide
      · obtain rfl : '.'.toUInt8 = c1 := by simpa using hc1
        decide
    · obtain rfl : c2 = c1 := by simpa using hc1
      exact digit_forall (P := fun c => lower c ≠ 'x'.toUInt8) (by decide) (hip c2 (by simp))
  have hnil : s ≠ [] := by rintro rfl; cases hs
  refine ⟨special_of_digit hc (by simp [hs]), e', hlt, heq, ?_⟩
  unfold readFloat
  simp only [hnil, hhex, Bool.false_eq_true, if_false, hs, hm, hg, hu, hx]
  simp [hneg, hman, hv, hfd]
  split <;> omega

/-- `readFloat` reads MySQL's power of ten from a decimal literal exactly when the
exponent is below 100000. -/
theorem readFloat_exp10_iff {s : Bytes} {d : DecimalNumber} (h : mysqlNumeral s = some d) :
    readFloat s = some (⟨d.neg, d.mantissa, 10, d.exp10⟩, s.length) ↔ d.expValue < 100000 := by
  obtain ⟨-, e', hlt, heq, hr⟩ := readFloat_mysqlNumeral h
  rw [hr, Option.some.injEq, Prod.mk.injEq, FloatLit.mk.injEq, DecimalNumber.exp10]
  simp only [true_and, and_true]
  refine ⟨fun hx => ?_, fun hv => by rw [heq hv]⟩
  cases d.expNeg <;> simp only [Bool.false_eq_true, if_false, if_true] at hx <;> omega

/-- A MySQL numeral whose digits base 0 accepts has neither a fraction nor an
exponent: the point and the exponent mark are neither digits nor underscores. -/
theorem digits_of_base0_numeral {s : Bytes} {d : DecimalNumber} {n : Nat} (hm : mysqlNumeral s = some d)
    (h0 : ParseUint (readSign s).2 0 64 = .ok n) : (readSign s).2 ≠ [] ∧ ∀ c ∈ (readSign s).2, isDigit c := by
  obtain ⟨ip, fp, frac, t, hs, hne, hip, -, hfrac, ht, -⟩ := mysqlNumeral_spec hm
  obtain ⟨c, ip', rfl⟩ := List.exists_cons_of_ne_nil hne
  rw [hs] at h0 ⊢
  have hmark : ∀ x ∈ t.head?, lower x = 'e'.toUInt8 := by
    rcases ht with ⟨rfl, -⟩ | ⟨c, r, ed, rfl, hc, -⟩ <;> simp [*]
  have htail : ∀ x ∈ ip' ++ frac ++ t, isDigit x ∨ x = '_'.toUInt8 := by
    by_cases hc : c = '0'.toUInt8
    · subst hc
      refine ParseUint_base0_mem_zero h0 fun x hx => ?_
      have hnot : ∀ y, lower y = 'e'.toUInt8 ∨ y = '.'.toUInt8 ∨ isDigit y →
          lower y ≠ 'b'.toUInt8 ∧ lower y ≠ 'o'.toUInt8 ∧ lower y ≠ 'x'.toUInt8 := by
        rintro y (h | rfl | h)
        · rw [h]; decide
        · decide
        · exact digit_forall (P := fun c => lower c ≠ 'b'.toUInt8 ∧ lower c ≠ 'o'.toUInt8 ∧ lower c ≠ 'x'.toUInt8)
            (by decide) h
      apply hnot
      rcases ip' with _ | ⟨y, ip'⟩
      · rcases hfrac with ⟨rfl, -⟩ | rfl
        · exact .inl (hmark x (by simpa using hx))
        · exact .inr (.inl (by simpa using hx.symm))
      · obtain rfl : y = x := by simpa using hx
        exact .inr (.inr (hip y (by simp)))
    · exact fun x hx => ParseUint_base0_mem_of_ne h0 (by simpa using hc) x
        (List.mem_cons_of_mem _ (by simpa using hx))
  have hfrac' : frac = [] := by
    rcases hfrac with ⟨rfl, -⟩ | rfl
    · rfl
    · exact absurd (htail '.'.toUInt8 (by simp)) (by decide)
  have ht' : t = [] := by
    rcases ht with ⟨rfl, -⟩ | ⟨c', r, ed, rfl, hc', -⟩
    · rfl
    · obtain ⟨h1, -, h3⟩ := mark_of_lower_e hc'
      exact absurd (htail c' (by simp)) (by simp [h1, h3])
  subst hfrac' ht'
  exact ⟨List.cons_ne_nil _ _, by simpa using hip⟩

/-- Bytes whose digits base 0 reads as the number MySQL reads read as decimal. -/
theorem readsAsDecimal_of_numeral {s : Bytes} {un : Nat} (h0 : ParseUint (readSign s).2 0 64 = .ok un)
    (hv : (mysqlNumeral s).map DecimalNumber.value = some (if (readSign s).1 then -(un : ℚ) else un)) :
    ReadsAsDecimal s := by
  rcases hm : mysqlNumeral s with _ | d
  · rw [hm] at hv; cases hv
  obtain ⟨hne, hd⟩ := digits_of_base0_numeral hm h0
  rw [mysqlNumeral_digits hne hd, Option.map_some', value_of_digits, Option.some.injEq] at hv
  refine readsAsDecimal_of_base0 hd h0 ?_
  rcases hneg : (readSign s).1 <;> simp [hneg] at hv <;> exact_mod_cast hv.symm

/-! ## The conversions -/

theorem mapError_eq_ok {ε ε' α : Type} {f : ε → ε'} {x : Except ε α} {a : α} :
    x.mapError f = .ok a ↔ x = .ok a := by
  cases x <;> simp [Except.mapError]

/-- The conversions of an integer value parse its bytes in base 10. -/
theorem ToInt64_MakeTrusted {typ : MySqlType} (hi : IsIntegral typ) (val : Bytes) :
    (MakeTrusted typ val).ToInt64 = (ParseInt val 10 64).mapError .num := by
  have hx : typ ≠ .Null ∧ typ ≠ .Expression := by
    constructor <;> (rintro rfl; simp [IsIntegral, IsSigned, IsUnsigned] at hi)
  simp [MakeTrusted_of_ne hx.1, Value.ToInt64, Value.IsIntegral, hi, Value.ToString, hx.2]

theorem ToUint64_MakeTrusted {typ : MySqlType} (hi : IsIntegral typ) (val : Bytes) :
    (MakeTrusted typ val).ToUint64 = (ParseUint val 10 64).mapError .num := by
  have hx : typ ≠ .Null ∧ typ ≠ .Expression := by
    constructor <;> (rintro rfl; simp [IsIntegral, IsSigned, IsUnsigned] at hi)
  simp [MakeTrusted_of_ne hx.1, Value.ToUint64, Value.IsIntegral, hi, Value.ToString, hx.2]

/-- Bytes `ParseUint` accepts in base 0 carry no sign. -/
theorem readSign_of_ParseUint {s : Bytes} {n : Nat} (h : ParseUint s 0 64 = .ok n) : readSign s = (false, s) := by
  rcases readSign_cases s with hs | ⟨c, t, rfl, hc, -⟩
  · exact hs
  · have hne : (c :: t).head? ≠ some '0'.toUInt8 := by
      rw [List.head?_cons, ne_eq, Option.some.injEq]
      rcases hc with rfl | rfl <;> decide
    have := ParseUint_base0_mem_of_ne h hne c (List.mem_cons_self _ _)
    rcases hc with rfl | rfl <;> exact absurd this (by decide)

/-- `NewValue` accepts `010` as the signed integer 8 and `inf` as a float, and
`EncodeSQL` sends both as they are: MySQL reads the first as 10 and the second
as no number at all. -/
theorem EncodeSQL_misread_numerals :
    NewValue .Int64 (ascii "010") = .ok ⟨.Int64, ascii "010"⟩ ∧ ParseInt (ascii "010") 0 64 = .ok 8 ∧
      Value.EncodeSQL ⟨.Int64, ascii "010"⟩ = ascii "010" ∧
      (mysqlNumeral (ascii "010")).map DecimalNumber.value = some 10 ∧
      NewValue .Float64 (ascii "inf") = .ok ⟨.Float64, ascii "inf"⟩ ∧
      Value.EncodeSQL ⟨.Float64, ascii "inf"⟩ = ascii "inf" ∧ mysqlNumeral (ascii "inf") = none :=
  ⟨rfl, rfl, rfl, by rw [show mysqlNumeral (ascii "010") = some ⟨false, 10, 0, false, 0⟩ from rfl,
    Option.map_some', value_of_digits]; rfl, rfl, rfl, rfl⟩

/-- `EncodeSQL` writes the bytes of a numeric value as they are. On integer bytes
that `NewValue` accepts, MySQL reads the number the check parsed exactly when the
bytes read as decimal; on a decimal literal, `readFloat`, whose result
`ParseFloat` rounds, reads MySQL's sign, digits and power of ten exactly when the
exponent is below 100000. -/
theorem NewValue_EncodeSQL_numeral {typ : MySqlType} {val : Bytes} {v : Value} (hnew : NewValue typ val = .ok v)
    (hnum : IsIntegral typ ∨ IsFloat typ ∨ typ = .Decimal) :
    v.EncodeSQL = val ∧
    (IsSigned typ → ((∃ n : Int, ParseInt val 0 64 = .ok n ∧
      (mysqlNumeral val).map DecimalNumber.value = some (n : ℚ)) ↔ ReadsAsDecimal val)) ∧
    (IsUnsigned typ → ((∃ n : Nat, ParseUint val 0 64 = .ok n ∧
      (mysqlNumeral val).map DecimalNumber.value = some (n : ℚ)) ↔ ReadsAsDecimal val)) ∧
    (IsFloat typ ∨ typ = .Decimal → ParseFloat val 64 = .ok () ∧ ∀ d, mysqlNumeral val = some d →
      special val = none ∧
        (readFloat val = some (⟨d.neg, d.mantissa, 10, d.exp10⟩, val.length) ↔ d.expValue < 100000)) := by
  obtain ⟨hsigned, hunsigned, hfloat⟩ := NewValue_checks hnew
  refine ⟨by rw [NewValue_ok hnew, EncodeSQL_of_numeric hnum], fun hs => ⟨?_, fun hdec => ?_⟩,
    fun hu => ⟨?_, fun hdec => ?_⟩,
    fun hf => ⟨hfloat hf, fun d hd => ⟨(readFloat_mysqlNumeral hd).1, readFloat_exp10_iff hd⟩⟩⟩
  · rintro ⟨n, h0, hv⟩
    obtain ⟨un, hun, rfl⟩ := ParseInt_ok h0
    exact readsAsDecimal_of_numeral hun (by rw [hv]; split <;> simp)
  · obtain ⟨n, hn⟩ := hsigned hs
    obtain ⟨hne, hds, rfl⟩ := ParseInt_ten (ParseInt_base0_eq hdec ▸ hn)
    refine ⟨_, hn, ?_⟩
    rw [mysqlNumeral_digits hne hds, Option.map_some', value_of_digits]
    split <;> simp
  · rintro ⟨n, h0, hv⟩
    have hsign := readSign_of_ParseUint h0
    exact readsAsDecimal_of_numeral (by rwa [hsign]) (by rw [hv, hsign]; rfl)
  · obtain ⟨n, hn⟩ := hunsigned hu
    obtain ⟨hne, hds, rfl⟩ := ParseUint_ten (ParseUint_base0_eq_of_readsAsDecimal hdec 64 ▸ hn)
    obtain ⟨c, r, rfl⟩ := List.exists_cons_of_ne_nil hne
    have hsign := readSign_of_digit (hds c (List.mem_cons_self _ _)) r
    refine ⟨_, hn, ?_⟩
    rw [mysqlNumeral_digits (by simp [hsign]) (by simpa [hsign] using hds), Option.map_some', value_of_digits, hsign]
    rfl

theorem NewValue_EncodeSQL_numeral_leading_zero :
    NewValue .Int64 (ascii "-07") = .ok ⟨.Int64, ascii "-07"⟩ ∧ ReadsAsDecimal (ascii "-07") ∧
      Value.EncodeSQL ⟨.Int64, ascii "-07"⟩ = ascii "-07" ∧
      (mysqlNumeral (ascii "-07")).map DecimalNumber.value = some (-7) :=
  have hnew : NewValue .Int64 (ascii "-07") = .ok ⟨.Int64, ascii "-07"⟩ := rfl
  have hdec : ReadsAsDecimal (ascii "-07") := by decide
  have h := NewValue_EncodeSQL_numeral hnew (.inl rfl)
  ⟨hnew, hdec, h.1, by
    obtain ⟨n, hn, hv⟩ := (h.2.1 rfl).2 hdec
    obtain rfl : n = -7 := Except.ok.inj (hn.symm.trans (rfl : ParseInt (ascii "-07") 0 64 = .ok (-7)))
    simpa using hv⟩

/-- `ToInt64` reads `010` as 10 where `NewValue` validated it as 8. -/
theorem ToInt64_octal_literal :
    NewValue .Int64 (ascii "010") = .ok ⟨.Int64, ascii "010"⟩ ∧ ParseInt (ascii "010") 0 64 = .ok 8 ∧
      Value.ToInt64 ⟨.Int64, ascii "010"⟩ = .ok 10 :=
  ⟨rfl, rfl, rfl⟩

/-- On the bytes `NewValue` accepts, `ToInt64` and `ToUint64` return the number
the check validated exactly when the bytes read as decimal. -/
theorem NewValue_conversions_iff_decimal {typ : MySqlType} {val : Bytes} {v : Value}
    (hnew : NewValue typ val = .ok v) :
    (IsSigned typ → ((∃ n, ParseInt val 0 64 = .ok n ∧ v.ToInt64 = .ok n) ↔ ReadsAsDecimal val)) ∧
    (IsUnsigned typ → ((∃ n, ParseUint val 0 64 = .ok n ∧ v.ToUint64 = .ok n) ↔ ReadsAsDecimal val)) := by
  obtain ⟨hsigned, hunsigned, -⟩ := NewValue_checks hnew
  rw [NewValue_ok hnew]
  refine ⟨fun hs => ⟨?_, fun hdec => ?_⟩, fun hu => ⟨?_, fun hdec => ?_⟩⟩
  · rintro ⟨n, h0, h10⟩
    rw [ToInt64_MakeTrusted (by simp [IsIntegral, hs]), mapError_eq_ok] at h10
    obtain ⟨-, hd, rfl⟩ := ParseInt_ten h10
    obtain ⟨un, hun, hn⟩ := ParseInt_ok h0
    refine readsAsDecimal_of_base0 hd hun ?_
    rcases hneg : (readSign val).1 <;> simp [hneg] at hn <;> omega
  · obtain ⟨n, hn⟩ := hsigned hs
    refine ⟨n, hn, ?_⟩
    rw [ToInt64_MakeTrusted (by simp [IsIntegral, hs]), ← ParseInt_base0_eq hdec, hn]
    rfl
  · rintro ⟨n, h0, h10⟩
    rw [ToUint64_MakeTrusted (by simp [IsIntegral, hu]), mapError_eq_ok] at h10
    obtain ⟨-, hd, rfl⟩ := ParseUint_ten h10
    have hsign := readSign_of_ParseUint h0
    exact readsAsDecimal_of_base0 (by rwa [hsign]) (by rwa [hsign]) (by rw [hsign])
  · obtain ⟨n, hn⟩ := hunsigned hu
    refine ⟨n, hn, ?_⟩
    rw [ToUint64_MakeTrusted (by simp [IsIntegral, hu]), ← ParseUint_base0_eq_of_readsAsDecimal hdec, hn]
    rfl

theorem NewValue_conversions_iff_decimal_leading_zero :
    NewValue .Int64 (ascii "007") = .ok ⟨.Int64, ascii "007"⟩ ∧ ReadsAsDecimal (ascii "007") ∧
      ∃ n, ParseInt (ascii "007") 0 64 = .ok n ∧ Value.ToInt64 ⟨.Int64, ascii "007"⟩ = .ok n :=
  have hnew : NewValue .Int64 (ascii "007") = .ok ⟨.Int64, ascii "007"⟩ := rfl
  have hdec : ReadsAsDecimal (ascii "007") := by decide
  ⟨hnew, hdec, ((NewValue_conversions_iff_decimal hnew).1 rfl).2 hdec⟩

end GoSharding
