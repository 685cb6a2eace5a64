import GoSharding.Types.Numeric

/-!
# Integer constructors and `NewIntegral`

`NewInt64` and its siblings print a Go integer with `strconv.AppendInt` or
`AppendUint`; `ToInt64` and `ToUint64` parse the bytes back in base 10, and
`NewValue` checks them in base 0. The printed form has no sign but `-`, no
underscore and no leading zero, so every one of these parsers reads it as the
number printed (`ParseInt_AppendInt`, `ParseUint_AppendUint`). `NewIntegral`
tries `ParseInt` and then `ParseUint` in base 0 and prints the number it got.

A Go `intN` is a `BitVec N` read as a signed number, a `uintN` a `UIntN`.
-/

namespace GoSharding

/-! ## The printed digits -/

theorem digitByte_spec {k : Nat} (hk : k < 10) :
    isDigit (48 + k).toUInt8 ∧ ((48 + k).toUInt8 - '0'.toUInt8).toNat = k := by
  have : ∀ k < 10, isDigit (48 + k).toUInt8 ∧ ((48 + k).toUInt8 - '0'.toUInt8).toNat = k := by decide
  exact this k hk

theorem decimalDigits_of_lt {u : Nat} (h : u < 10) : decimalDigits u = [(48 + u).toUInt8] := by
  rw [decimalDigits, if_pos h]

theorem decimalDigits_of_ge {u : Nat} (h : ¬u < 10) :
    decimalDigits u = decimalDigits (u / 10) ++ [(48 + u % 10).toUInt8] := by
  rw [decimalDigits, if_neg h]

theorem decimalDigits_isDigit (u : Nat) : ∀ c ∈ decimalDigits u, isDigit c := by
  induction u using decimalDigits.induct with
  | case1 u h => simpa [decimalDigits_of_lt h] using (digitByte_spec h).1
  | case2 u h ih =>
    rw [decimalDigits_of_ge h]
    intro c hc
    rcases List.mem_append.1 hc with hc | hc
    · exact ih c hc
    · rw [List.mem_singleton.1 hc]; exact (digitByte_spec (Nat.mod_lt u (by omega))).1

theorem digitsValue_decimalDigits (u : Nat) : digitsValue (decimalDigits u) = u := by
  induction u using decimalDigits.induct with
  | case1 u h => simp [decimalDigits_of_lt h, digitsValue, digitsValueFrom, (digitByte_spec h).2]
  | case2 u h ih =>
    rw [decimalDigits_of_ge h, digitsValue, digitsValueFrom_append, ← digitsValue, ih]
    simp only [digitsValueFrom, List.foldl_cons, List.foldl_nil, (digitByte_spec (Nat.mod_lt u (by omega))).2]
    omega

theorem decimalDigits_ne_nil (u : Nat) : decimalDigits u ≠ [] := by
  induction u using decimalDigits.induct with
  | case1 u h => simp [decimalDigits_of_lt h]
  | case2 u h _ => simp [decimalDigits_of_ge h]

/-- Only the number 0 is printed with a leading `0`. -/
theorem decimalDigits_head {u : Nat} (h : (decimalDigits u).head? = some '0'.toUInt8) : u = 0 := by
  induction u using decimalDigits.induct with
  | case1 u hu =>
    rw [decimalDigits_of_lt hu, List.head?_cons, Option.some.injEq] at h
    have key : ∀ u < 10, (48 + u).toUInt8 = '0'.toUInt8 → u = 0 := by decide
    exact key u hu h
  | case2 u hu ih =>
    obtain ⟨c, cs, hcs⟩ := List.exists_cons_of_ne_nil (decimalDigits_ne_nil (u / 10))
    rw [decimalDigits_of_ge hu, hcs, List.cons_append, List.head?_cons] at h
    rw [hcs, List.head?_cons] at ih
    have := ih h
    omega

/-- The printed form of a number Go reads the same in every base these parsers use. -/
theorem formatBits_readsAsDecimal (u : Nat) (neg : Bool) : ReadsAsDecimal (formatBits u neg) := by
  have hd := decimalDigits_isDigit u
  have hsign : readSign (formatBits u neg) = (neg, decimalDigits u) := by
    obtain ⟨c, cs, hcs⟩ := List.exists_cons_of_ne_nil (decimalDigits_ne_nil u)
    cases neg
    · simpa [formatBits, hcs] using readSign_of_digit (hd c (by simp [hcs])) cs
    · simp [formatBits, readSign, show '-'.toUInt8 ≠ '+'.toUInt8 by decide]
  rw [ReadsAsDecimal, hsign]
  refine ⟨hd, fun h0 => ?_⟩
  rw [digitsValue_decimalDigits, decimalDigits_head h0]
  decide

/-! ## Parsing the printed form -/

/-- A base-10 digit loop over digits whose value fits reads that value. -/
theorem parseUintLoop_digits {maxVal acc : Nat} (base0 u : Bool) {ds : Bytes} (hds : ∀ c ∈ ds, isDigit c)
    (hmax : digitsValueFrom acc ds ≤ maxVal) (hmaxVal : maxVal < 2 ^ 64) :
    parseUintLoop 10 base0 maxVal acc u ds = .ok (digitsValueFrom acc ds, u) := by
  induction ds generalizing acc with
  | nil => rfl
  | cons c cs ih =>
    have hc := hds c (List.mem_cons_self _ _)
    have hlt := digit_sub_lt hc
    rw [digitsValueFrom_cons] at hmax ⊢
    have hle := le_trans (le_digitsValueFrom _ cs) hmax
    have hne : ¬(c = '_'.toUInt8 ∧ base0 = true) := fun h => absurd (h.1 ▸ hc) (by decide)
    have hcut : ¬((2 ^ 64 - 1) / 10 + 1 ≤ acc) := by omega
    have hover : ¬(maxVal < acc * 10 + (c - '0'.toUInt8).toNat) := by omega
    have hdv : digitVal c = some (c - '0'.toUInt8).toNat := by simp [digitVal, hc]
    rw [parseUintLoop, if_neg hne, hdv]
    simp only [if_neg (show ¬(10 ≤ (c - '0'.toUInt8).toNat) by omega), if_neg hcut, if_neg hover]
    rw [Nat.mul_comm]
    exact ih (fun x hx => hds x (List.mem_cons_of_mem _ hx)) hmax

/-- The converse of `ParseUint_ten`: digits whose value fits parse to it. -/
theorem ParseUint_of_digits {ds : Bytes} (hne : ds ≠ []) (hds : ∀ c ∈ ds, isDigit c) (hv : digitsValue ds < 2 ^ 64) :
    ParseUint ds 10 64 = .ok (digitsValue ds) := by
  have hloop : parseUintLoop 10 false (2 ^ 64 - 1) 0 false ds = .ok (digitsValueFrom 0 ds, false) :=
    parseUintLoop_digits false false hds (by unfold digitsValue at hv; omega) (by decide)
  simp only [Nat.reducePow, Nat.reduceSub] at hloop
  simp [ParseUint, hne, hloop, digitsValue]

theorem ParseUint_AppendUint {u : Nat} (hu : u < 2 ^ 64) : ParseUint (AppendUint [] u) 10 64 = .ok u := by
  have h := ParseUint_of_digits (decimalDigits_ne_nil u) (decimalDigits_isDigit u)
    (by rwa [digitsValue_decimalDigits])
  simpa [AppendUint, formatBits, digitsValue_decimalDigits] using h

theorem ParseInt_AppendInt {i : Int} (hlo : -2 ^ 63 ≤ i) (hhi : i < 2 ^ 63) : ParseInt (AppendInt [] i) 10 64 = .ok i := by
  have hu := ParseUint_of_digits (decimalDigits_ne_nil i.natAbs) (decimalDigits_isDigit i.natAbs)
    (by rw [digitsValue_decimalDigits]; omega)
  rw [digitsValue_decimalDigits] at hu
  by_cases hneg : i < 0
  · have h2 : ¬9223372036854775808 < i.natAbs := by omega
    simp [AppendInt, formatBits, hneg, ParseInt, hu, h2, abs_of_neg hneg, show '-'.toUInt8 ≠ '+'.toUInt8 by decide]
  · have h1 : ¬9223372036854775808 ≤ i.natAbs := by omega
    obtain ⟨c, cs, hcs⟩ := List.exists_cons_of_ne_nil (decimalDigits_ne_nil i.natAbs)
    obtain ⟨hp, hm⟩ := digit_forall (P := fun c => c ≠ '+'.toUInt8 ∧ c ≠ '-'.toUInt8) (by decide)
      (decimalDigits_isDigit i.natAbs c (by simp [hcs]))
    rw [hcs] at hu
    simp [AppendInt, formatBits, hneg, ParseInt, hcs, hp, hm, hu, h1, abs_of_nonneg (not_lt.1 hneg)]

/-- `ParseInt` in 64 bits returns an `int64`. -/
theorem ParseInt_range {s : Bytes} {base : Nat} {n : Int} (h : ParseInt s base 64 = .ok n) :
    -2 ^ 63 ≤ n ∧ n < 2 ^ 63 := by
  match s with
  | [] => cases h
  | c :: rest =>
    simp only [ParseInt] at h
    split at h
    · cases h
    · cases h
    · generalize (if c = '+'.toUInt8 then (false, rest) else if c = '-'.toUInt8 then (true, rest)
        else (false, c :: rest)).1 = neg at h
      rename_i un _
      rw [if_neg (by decide : (64 : Nat) ≠ 0)] at h
      by_cases h1 : (!neg && decide (2 ^ (64 - 1) ≤ un)) = true
      · rw [if_pos h1] at h; cases h
      by_cases h2 : (neg && decide (2 ^ (64 - 1) < un)) = true
      · rw [if_neg h1, if_pos h2] at h; cases h
      rw [if_neg h1, if_neg h2] at h
      cases h
      cases neg
      · simp only [Bool.not_false, Bool.true_and, decide_eq_true_eq, ↓reduceIte] at h1 ⊢
        omega
      · simp only [Bool.true_and, decide_eq_true_eq, ↓reduceIte] at h2 ⊢
        omega

/-- The digit loop never goes past `maxVal`. -/
theorem parseUintLoop_le {base maxVal acc n : Nat} {base0 u u' : Bool} {s : Bytes}
    (h : parseUintLoop base base0 maxVal acc u s = .ok (n, u')) (hacc : acc ≤ maxVal) : n ≤ maxVal := by
  induction s generalizing acc u with
  | nil => cases h; exact hacc
  | cons c s ih =>
    rw [parseUintLoop] at h
    split at h
    · exact ih h hacc
    · split at h
      · cases h
      · split_ifs at h
        exact ih h (by omega)

/-- `ParseUint` in 64 bits returns a `uint64`. -/
theorem ParseUint_lt {s : Bytes} {base n : Nat} (h : ParseUint s base 64 = .ok n) : n < 2 ^ 64 := by
  unfold ParseUint at h
  split at h
  · cases h
  dsimp only at h
  split at h
  · cases h
  rw [if_neg (by decide)] at h
  split at h
  · cases h
  split_ifs at h
  cases h
  have := parseUintLoop_le ‹_› (Nat.zero_le _)
  rw [ite_self] at this
  omega

/-! ## The constructors -/

/-- The signed constructors: `MakeTrusted(typ, strconv.AppendInt(nil, int64(v), 10))`. -/
def newSigned (typ : MySqlType) (v : Int) : Value := MakeTrusted typ (AppendInt [] v)

/-- The unsigned constructors: `MakeTrusted(typ, strconv.AppendUint(nil, uint64(v), 10))`. -/
def newUnsigned (typ : MySqlType) (v : Nat) : Value := MakeTrusted typ (AppendUint [] v)

def NewInt64 (v : BitVec 64) : Value := newSigned .Int64 v.toInt

/-- `NewInt8`: `int64(v)` is the number `v.toInt`. -/
def NewInt8 (v : BitVec 8) : Value := newSigned .Int8 v.toInt

def NewInt32 (v : BitVec 32) : Value := newSigned .Int32 v.toInt

def NewUint64 (v : UInt64) : Value := newUnsigned .Uint64 v.toNat

/-- `NewUint32`: `uint64(v)` is the number `v.toNat`. -/
def NewUint32 (v : UInt32) : Value := newUnsigned .Uint32 v.toNat

/-- `NewIntegral`: `Int64` when the bytes parse as an `int64` in base 0, else
`Uint64` when they parse as a `uint64`, printed back in decimal. -/
def NewIntegral (val : Bytes) : Except NumError Value :=
  match ParseInt val 0 64 with
  | .ok signed => .ok (MakeTrusted .Int64 (AppendInt [] signed))
  | .error _ =>
    match ParseUint val 0 64 with
    | .error err => .error err
    | .ok unsigned => .ok (MakeTrusted .Uint64 (AppendUint [] unsigned))

/-- A signed value of width at most 64 is an `int64`. -/
theorem toInt_range {w : Nat} (v : BitVec w) (hw : 0 < w) (hw64 : w ≤ 64) : -2 ^ 63 ≤ v.toInt ∧ v.toInt < 2 ^ 63 := by
  have hlt := v.isLt
  have hpow : 2 ^ w = 2 * 2 ^ (w - 1) := by rw [← Nat.pow_succ']; congr 1; omega
  have hle : 2 ^ (w - 1) ≤ 2 ^ 63 := Nat.pow_le_pow_right (by decide) (by omega)
  rw [BitVec.toInt_eq_toNat_cond]
  split_ifs <;> omega

theorem IsSigned_ne {typ : MySqlType} (h : IsSigned typ) : typ ≠ .Null ∧ typ ≠ .Expression ∧ IsIntegral typ := by
  cases typ <;> simp_all [IsSigned, IsIntegral]

theorem IsUnsigned_ne {typ : MySqlType} (h : IsUnsigned typ) :
    typ ≠ .Null ∧ typ ≠ .Expression ∧ IsIntegral typ ∧ IsSigned typ = false := by
  cases typ <;> simp_all [IsSigned, IsUnsigned, IsIntegral]

/-- Every signed constructor is read back by `ToInt64` and accepted by `NewValue` as it is. -/
theorem newSigned_roundTrip {typ : MySqlType} (ht : IsSigned typ) {i : Int} (hlo : -2 ^ 63 ≤ i) (hhi : i < 2 ^ 63) :
    (newSigned typ i).ToInt64 = .ok i ∧ NewValue typ (newSigned typ i).Value = .ok (newSigned typ i) := by
  obtain ⟨hn, he, hi⟩ := IsSigned_ne ht
  have hp := ParseInt_AppendInt hlo hhi
  have hp0 : ParseInt (AppendInt [] i) 0 64 = .ok i := by
    rw [ParseInt_base0_eq (by simpa [AppendInt] using formatBits_readsAsDecimal i.natAbs (decide (i < 0))), hp]
  simp [newSigned, MakeTrusted_of_ne hn, Value.ToInt64, Value.IsIntegral, hi, Value.ToString, he, hp, NewValue, ht,
    hp0, Except.mapError]

/-- Every unsigned constructor is read back by `ToUint64` and accepted by `NewValue` as it is. -/
theorem newUnsigned_roundTrip {typ : MySqlType} (ht : IsUnsigned typ) {u : Nat} (hu : u < 2 ^ 64) :
    (newUnsigned typ u).ToUint64 = .ok u ∧ NewValue typ (newUnsigned typ u).Value = .ok (newUnsigned typ u) := by
  obtain ⟨hn, he, hi, hs⟩ := IsUnsigned_ne ht
  have hp := ParseUint_AppendUint hu
  have hp0 : ParseUint (AppendUint [] u) 0 64 = .ok u := by
    rw [ParseUint_base0_eq_of_readsAsDecimal (by simpa [AppendUint] using formatBits_readsAsDecimal u false), hp]
  simp [newUnsigned, MakeTrusted_of_ne hn, Value.ToUint64, Value.IsIntegral, hi, Value.ToString, he, hp, NewValue, ht,
    hs, hp0, Except.mapError]

/-- `NewIntegral` prefers `Int64`, falls back to `Uint64`, and fails with
`ParseUint`'s error when neither parses; the value it returns reads back as the
number parsed. -/
theorem NewIntegral_spec (s : Bytes) :
    (∀ n, ParseInt s 0 64 = .ok n → ∃ v, NewIntegral s = .ok v ∧ v.ValueType = .Int64 ∧ v.ToInt64 = .ok n) ∧
    (∀ e n, ParseInt s 0 64 = .error e → ParseUint s 0 64 = .ok n →
      ∃ v, NewIntegral s = .ok v ∧ v.ValueType = .Uint64 ∧ v.ToUint64 = .ok n) ∧
    (∀ e e', ParseInt s 0 64 = .error e → ParseUint s 0 64 = .error e' → NewIntegral s = .error e') := by
  refine ⟨fun n h => ?_, fun e n h h' => ?_, fun e e' h h' => by simp [NewIntegral, h, h']⟩
  · obtain ⟨hlo, hhi⟩ := ParseInt_range h
    exact ⟨_, by simp [NewIntegral, h]; rfl, rfl, (newSigned_roundTrip (show IsSigned .Int64 from rfl) hlo hhi).1⟩
  · exact ⟨_, by simp [NewIntegral, h, h']; rfl, rfl,
      (newUnsigned_roundTrip (show IsUnsigned .Uint64 from rfl) (ParseUint_lt h')).1⟩

example : NewIntegral (ascii "-") = .error ⟨"ParseUint", ascii "-", .ErrSyntax⟩ := rfl

/-- Each constructor's bytes read back as its number and pass `NewValue`'s check
unchanged; `NewIntegral` returns `Int64` exactly when the bytes parse as an
`int64`, `Uint64` when only a `uint64` parse succeeds, and reads back as the
number parsed. -/
theorem integer_roundTrips :
    (∀ n : BitVec 64, (NewInt64 n).ToInt64 = .ok n.toInt ∧ NewValue .Int64 (NewInt64 n).Value = .ok (NewInt64 n)) ∧
    (∀ n : UInt64, (NewUint64 n).ToUint64 = .ok n.toNat ∧ NewValue .Uint64 (NewUint64 n).Value = .ok (NewUint64 n)) ∧
    (∀ n : BitVec 8, (NewInt8 n).ToInt64 = .ok n.toInt ∧ NewValue .Int8 (NewInt8 n).Value = .ok (NewInt8 n)) ∧
    (∀ n : BitVec 32, (NewInt32 n).ToInt64 = .ok n.toInt ∧ NewValue .Int32 (NewInt32 n).Value = .ok (NewInt32 n)) ∧
    (∀ n : UInt32, (NewUint32 n).ToUint64 = .ok n.toNat ∧ NewValue .Uint32 (NewUint32 n).Value = .ok (NewUint32 n)) ∧
    ∀ s : Bytes,
      (∀ n, ParseInt s 0 64 = .ok n → ∃ v, NewIntegral s = .ok v ∧ v.ValueType = .Int64 ∧ v.ToInt64 = .ok n) ∧
      (∀ e n, ParseInt s 0 64 = .error e → ParseUint s 0 64 = .ok n →
        ∃ v, NewIntegral s = .ok v ∧ v.ValueType = .Uint64 ∧ v.ToUint64 = .ok n) ∧
      (∀ e e', ParseInt s 0 64 = .error e → ParseUint s 0 64 = .error e' → NewIntegral s = .error e') := by
  refine ⟨fun n => ?_, fun n => ?_, fun n => ?_, fun n => ?_, fun n => ?_, NewIntegral_spec⟩
  · obtain ⟨hlo, hhi⟩ := toInt_range n (by decide) (by decide)
    exact newSigned_roundTrip (show IsSigned .Int64 from rfl) hlo hhi
  · exact newUnsigned_roundTrip (show IsUnsigned .Uint64 from rfl) n.toNat_lt_size
  · obtain ⟨hlo, hhi⟩ := toInt_range n (by decide) (by decide)
    exact newSigned_roundTrip (show IsSigned .Int8 from rfl) hlo hhi
  · obtain ⟨hlo, hhi⟩ := toInt_range n (by decide) (by decide)
    exact newSigned_roundTrip (show IsSigned .Int32 from rfl) hlo hhi
  · exact newUnsigned_roundTrip (show IsUnsigned .Uint32 from rfl) (lt_trans n.toNat_lt_size (by decide))

/-! ## Booleans -/

/-- `ParseInt` in base 10 reads what `AppendUint` writes as the number when it fits an
`int64`, and fails with `ErrRange` above. -/
theorem ParseInt_AppendUint {u : Nat} (hu : u < 2 ^ 64) :
    ParseInt (AppendUint [] u) 10 64 =
      if 2 ^ 63 ≤ u then .error ⟨"ParseInt", AppendUint [] u, .ErrRange⟩ else .ok u := by
  have hp := ParseUint_AppendUint hu
  obtain ⟨c, cs, hcs⟩ := List.exists_cons_of_ne_nil (decimalDigits_ne_nil u)
  obtain ⟨hplus, hminus⟩ := digit_forall (P := fun c => c ≠ '+'.toUInt8 ∧ c ≠ '-'.toUInt8) (by decide)
    (decimalDigits_isDigit u c (by simp [hcs]))
  have ha : AppendUint [] u = c :: cs := by simp [AppendUint, formatBits, hcs]
  rw [ha] at hp ⊢
  by_cases hr : 2 ^ 63 ≤ u <;> simp [ParseInt, hplus, hminus, hp, hr]

/-- **`ToBool` reads back the integers 0 and 1 and nothing else.** An `Int64` reads as false
for 0, true for 1 and fails the cast otherwise; a `Uint64` does the same below `2^63`, and
from `2^63` on fails with `ParseInt`'s range error, since `ToBool` reads through `ToInt64`. -/
theorem ToBool_integers :
    (∀ n : BitVec 64, (NewInt64 n).ToBool =
      if n.toInt = 0 then .ok false else if n.toInt = 1 then .ok true else .error .ErrIncompatibleTypeCast) ∧
    ∀ n : UInt64, (NewUint64 n).ToBool =
      if 2 ^ 63 ≤ n.toNat then .error (.num ⟨"ParseInt", AppendUint [] n.toNat, .ErrRange⟩)
      else if n.toNat = 0 then .ok false else if n.toNat = 1 then .ok true else .error .ErrIncompatibleTypeCast := by
  refine ⟨fun n => ?_, fun n => ?_⟩
  · obtain ⟨hlo, hhi⟩ := toInt_range n (by decide) (by decide)
    rw [Value.ToBool, NewInt64, (newSigned_roundTrip (show IsSigned .Int64 from rfl) hlo hhi).1]
  · have ht : (NewUint64 n).ToInt64 = (ParseInt (AppendUint [] n.toNat) 10 64).mapError .num := rfl
    rw [Value.ToBool, ht, ParseInt_AppendUint n.toNat_lt_size]
    by_cases hr : 2 ^ 63 ≤ n.toNat
    · rw [if_pos hr, if_pos hr]
      rfl
    · rw [if_neg hr, if_neg hr]
      simp [Except.mapError]

end GoSharding
