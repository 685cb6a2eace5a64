import GoSharding.Encoding.JsonDecode

/-!
# Values and JSON

`MarshalJSON` writes a quoted or bit value as a JSON string of its bytes, NULL as `null`
and any other value as its bytes. `UnmarshalJSON` picks the Go type to read into by the
first byte: an `int64` after `-`, a `[]byte` after `"`, nil after `n` and a `uint64`
otherwise, and builds the value with `InterfaceToValue`. The code comments both as meant
for tests only.

Reading back what `MarshalJSON` writes gives the value back for NULL, for every negative
`Int64`, for every `Uint64` and for the empty `VarBinary`. It turns `Int64` 0 into `Uint64`
0, and it never gives back a `VarBinary` with bytes, because a JSON string is read into a
`[]byte` as base64, which is shorter than what it encodes (`UnmarshalJSON_VarBinary`).
-/

namespace GoSharding

/-- The dynamic types `InterfaceToValue` switches on: nil, `[]byte`, `int64`, `uint64`,
`float64` (by the bytes `AppendFloat(nil, f, 'g', -1, 64)` writes for it), `string`, and any
other type. -/
inductive GoValue
  | nil
  | bytes (b : Bytes)
  | int64 (i : BitVec 64)
  | uint64 (u : UInt64)
  | float64 (g : Bytes)
  | string (s : Bytes)
  | other

/-- `NewFloat64`, given the bytes `strconv.AppendFloat(nil, v, 'g', -1, 64)` writes for `v`;
the shortest formatting itself is left out. -/
def NewFloat64 (g : Bytes) : Value := MakeTrusted .Float64 g

/-- `NewFloat32`, given the bytes `strconv.AppendFloat(nil, float64(v), 'g', -1, 32)` writes for
`v`. -/
def NewFloat32 (g : Bytes) : Value := MakeTrusted .Float32 g

def NewVarChar (v : Bytes) : Value := MakeTrusted .VarChar v

def NewVarBinary (v : Bytes) : Value := MakeTrusted .VarBinary v

/-- The errors `UnmarshalJSON` returns: `error unmarshaling empty bytes`, what
`json.Unmarshal` returns, and the `unexpected type` error of `InterfaceToValue`. -/
inductive UnmarshalError
  | emptyBytes
  | json (e : JsonError)
  | unexpectedType
  deriving DecidableEq, Repr

/-- `InterfaceToValue`; the NULL it returns beside its error is left out. -/
def InterfaceToValue : GoValue → Except UnmarshalError Value
  | .nil => .ok NULL
  | .bytes b => .ok (MakeTrusted .VarBinary b)
  | .int64 i => .ok (NewInt64 i)
  | .uint64 u => .ok (NewUint64 u)
  | .float64 g => .ok (NewFloat64 g)
  | .string s => .ok (NewVarChar s)
  | .other => .error .unexpectedType

/-- `json.Unmarshal(b, &val)` for `val interface{}` on a text `'n' :: rest`, which is all
that `UnmarshalJSON` passes it: the one JSON value that starts with `n` is `null`, which
sets `val` to nil. -/
def unmarshalNull (rest : Bytes) : Except JsonError GoValue :=
  if checkValid ('n'.toUInt8 :: rest) then .ok .nil else .error .SyntaxError

namespace Value

/-- `Equals` with a `*Value`: the same type and `bytes.Equal` bytes. -/
def Equals (v vv : GoSharding.Value) : Bool := v.ValueType = vv.ValueType && v.Value = vv.Value

/-- `MarshalJSON`; its error is always nil. -/
def MarshalJSON (v : GoSharding.Value) : Bytes :=
  if v.IsQuoted || v.ValueType = .Bit then Marshal v.ToString
  else if v.ValueType = .Null then nullstr
  else v.Value

/-- `UnmarshalJSON(b)`: the value it stores into `*v` when it returns no error. -/
def UnmarshalJSON (b : Bytes) : Except UnmarshalError GoSharding.Value :=
  match b with
  | [] => .error .emptyBytes
  | c :: rest =>
    let val : Except JsonError GoValue :=
      if c = '-'.toUInt8 then
        (fun i => GoValue.int64 (BitVec.ofInt 64 i)) <$> Unmarshal (storeInteger 0 (ParseInt · 10 64)) b
      else if c = '"'.toUInt8 then GoValue.bytes <$> unmarshalQuotedBytes rest
      else if c = 'n'.toUInt8 then unmarshalNull rest
      else (fun u => GoValue.uint64 u.toUInt64) <$> Unmarshal (storeInteger 0 (ParseUint · 10 64)) b
    match val with
    | .ok val => InterfaceToValue val
    | .error e => .error (.json e)

theorem Equals_iff {v w : GoSharding.Value} : v.Equals w ↔ v = w := by
  cases v
  cases w
  simp [Equals]

end Value

/-! ## Reading back what `MarshalJSON` writes -/

theorem ofInt_toInt_64 (n : BitVec 64) : BitVec.ofInt 64 n.toInt = n := BitVec.signExtend_eq n

theorem toUInt64_toNat (n : UInt64) : n.toNat.toUInt64 = n :=
  UInt64.toNat.inj (by simp [Nat.toUInt64, UInt64.ofNat, UInt64.toNat, BitVec.toNat_ofNat, Nat.mod_eq_of_lt n.toNat_lt_size])

/-- A value that is neither quoted, bit nor NULL is written as its bytes. -/
theorem MarshalJSON_of_plain {typ : MySqlType} (hq : IsQuoted typ = false) (hb : typ ≠ .Bit) (hn : typ ≠ .Null)
    (val : Bytes) : (MakeTrusted typ val).MarshalJSON = val := by
  rw [MakeTrusted_of_ne hn, Value.MarshalJSON, if_neg (by simp [Value.IsQuoted, hq, hb]), if_neg hn]

/-- **A decimal integer is read as a `uint64`.** -/
theorem UnmarshalJSON_AppendUint {u : Nat} (hu : u < 2 ^ 64) :
    Value.UnmarshalJSON (AppendUint [] u) = .ok (NewUint64 u.toUInt64) := by
  have h := Unmarshal_AppendUint hu
  obtain ⟨d, ds, hds⟩ := List.exists_cons_of_ne_nil (decimalDigits_ne_nil u)
  have hd : isDigit d := decimalDigits_isDigit u d (by rw [hds]; exact List.mem_cons_self _ _)
  obtain ⟨h1, h2, h3⟩ := digit_forall (P := fun c => c ≠ '-'.toUInt8 ∧ c ≠ '"'.toUInt8 ∧ c ≠ 'n'.toUInt8)
    (by decide) hd
  have hb : AppendUint [] u = d :: ds := by rw [AppendUint, formatBits, hds]; rfl
  rw [hb] at h ⊢
  simp only [Value.UnmarshalJSON, if_neg h1, if_neg h2, if_neg h3, h]
  rfl

/-- **A negative `Int64` reads back as itself.** -/
theorem UnmarshalJSON_Int64 {n : BitVec 64} (hn : n.toInt < 0) :
    Value.UnmarshalJSON (NewInt64 n).MarshalJSON = .ok (NewInt64 n) := by
  obtain ⟨hlo, hhi⟩ := toInt_range n (by decide) (by decide)
  have h := Unmarshal_AppendInt hlo hhi
  have hb : AppendInt [] n.toInt = '-'.toUInt8 :: decimalDigits n.toInt.natAbs := by
    simp [AppendInt, formatBits, hn]
  rw [NewInt64, newSigned, MarshalJSON_of_plain (show IsQuoted .Int64 = false from rfl) (by decide) (by decide)]
  rw [hb] at h ⊢
  simp only [Value.UnmarshalJSON, if_pos rfl, h, if_true]
  show InterfaceToValue (.int64 (BitVec.ofInt 64 n.toInt)) = _
  rw [ofInt_toInt_64, InterfaceToValue, NewInt64, newSigned, hb]

/-- **A `VarBinary` is read back as the base64 decoding of its bytes made valid UTF-8.** -/
theorem UnmarshalJSON_VarBinary (b : Bytes) :
    Value.UnmarshalJSON (MakeTrusted .VarBinary b).MarshalJSON =
      match Decode (coerceUTF8 b) with
      | .ok d => .ok (MakeTrusted .VarBinary d)
      | .error off => .error (.json (.CorruptInputError off)) := by
  have hm : (MakeTrusted .VarBinary b).MarshalJSON = '"'.toUInt8 :: (stringBody b ++ ['"'.toUInt8]) := rfl
  rw [hm]
  simp only [Value.UnmarshalJSON, if_neg (show '"'.toUInt8 ≠ '-'.toUInt8 by decide), if_pos rfl,
    unmarshalQuotedBytes_Marshal]
  cases Decode (coerceUTF8 b) <;> rfl

/-- **A `VarBinary` with bytes never reads back as itself**: what is read is the base64
decoding of ASCII bytes, which is shorter than they are. -/
theorem UnmarshalJSON_VarBinary_ne {b : Bytes} (hb : b ≠ []) {w : GoSharding.Value}
    (h : Value.UnmarshalJSON (MakeTrusted .VarBinary b).MarshalJSON = .ok w) : w ≠ MakeTrusted .VarBinary b := by
  rw [UnmarshalJSON_VarBinary] at h
  split at h
  · rename_i d hd
    cases h
    have hs := coerceUTF8_eq_of_ascii b (Decode_ascii hd)
    have hlen := Decode_length hd
    rw [hs] at hlen
    intro heq
    rw [MakeTrusted_of_ne (by decide), MakeTrusted_of_ne (by decide), Value.mk.injEq] at heq
    have := List.length_pos.2 hb
    rw [heq.2] at hlen
    omega
  · cases h

/-- `Int64` 0 is written as `0`, which is read as a `uint64`. -/
theorem MarshalJSON_Int64_zero : (NewInt64 0).MarshalJSON = AppendUint [] 0 := by
  rw [NewInt64, newSigned, MarshalJSON_of_plain (show IsQuoted .Int64 = false from rfl) (by decide) (by decide)]
  rfl

/-- **Reading back what `MarshalJSON` writes.** NULL, every negative `Int64`, every `Uint64`
and the empty `VarBinary` read back as a value that `Equals` them; `Int64` 0 reads back as
`Uint64` 0, and a `VarBinary` with bytes never reads back as a value that `Equals` it. -/
theorem UnmarshalJSON_MarshalJSON :
    (∃ w, Value.UnmarshalJSON NULL.MarshalJSON = .ok w ∧ w.Equals NULL) ∧
    (∀ n : BitVec 64, n.toInt < 0 →
      ∃ w, Value.UnmarshalJSON (NewInt64 n).MarshalJSON = .ok w ∧ w.Equals (NewInt64 n)) ∧
    (∀ n : UInt64, ∃ w, Value.UnmarshalJSON (NewUint64 n).MarshalJSON = .ok w ∧ w.Equals (NewUint64 n)) ∧
    (∃ w, Value.UnmarshalJSON (MakeTrusted .VarBinary []).MarshalJSON = .ok w ∧
      w.Equals (MakeTrusted .VarBinary [])) ∧
    Value.UnmarshalJSON (NewInt64 0).MarshalJSON = .ok (NewUint64 0) ∧
    ∀ b : Bytes, b ≠ [] → ∀ w, Value.UnmarshalJSON (MakeTrusted .VarBinary b).MarshalJSON = .ok w →
      w.Equals (MakeTrusted .VarBinary b) = false := by
  refine ⟨⟨NULL, rfl, rfl⟩, fun n hn => ⟨_, UnmarshalJSON_Int64 hn, Value.Equals_iff.2 rfl⟩,
    fun n => ⟨_, ?_, Value.Equals_iff.2 rfl⟩, ⟨_, ?_, Value.Equals_iff.2 rfl⟩, ?_, fun b hb w h => ?_⟩
  · rw [NewUint64, newUnsigned, MarshalJSON_of_plain (show IsQuoted .Uint64 = false from rfl) (by decide) (by decide),
      UnmarshalJSON_AppendUint n.toNat_lt_size, toUInt64_toNat]
    rfl
  · rw [UnmarshalJSON_VarBinary, coerceUTF8]
    rfl
  · rw [MarshalJSON_Int64_zero, UnmarshalJSON_AppendUint (by decide)]
    rfl
  · exact Bool.eq_false_iff.2 fun he => UnmarshalJSON_VarBinary_ne hb h (Value.Equals_iff.1 he)

/-- `Int64` 0 reads back as `Uint64` 0, and the `VarBinary` `abcd` as the three bytes its
base64 decoding gives. -/
theorem UnmarshalJSON_changes_values :
    Value.UnmarshalJSON (NewInt64 0).MarshalJSON = .ok (NewUint64 0) ∧ (NewUint64 0).Equals (NewInt64 0) = false ∧
    Value.UnmarshalJSON (MakeTrusted .VarBinary (ascii "abcd")).MarshalJSON =
      .ok (MakeTrusted .VarBinary [0x69, 0xB7, 0x1D]) := by
  refine ⟨by rw [MarshalJSON_Int64_zero, UnmarshalJSON_AppendUint (by decide)]; rfl, by decide, ?_⟩
  rw [UnmarshalJSON_VarBinary, coerceUTF8_of_ascii _ (by decide)]
  rfl

/-! ## Quoted values as JSON strings -/

/-- **`MarshalJSON` writes a quoted or bit value as a JSON string**: the JSON scanner accepts
what it writes, and reading that as a string gives back the value's bytes, each byte that
is not part of valid UTF-8 replaced by U+FFFD. -/
theorem MarshalJSON_string {v : GoSharding.Value} (hv : v.IsQuoted ∨ v.ValueType = .Bit) :
    checkValid v.MarshalJSON = true ∧ unquoteBytes v.MarshalJSON = some (coerceUTF8 v.Value) := by
  obtain ⟨hqb, -, he⟩ := Value.quotedOrBit_spec hv
  rw [Value.MarshalJSON, if_pos hqb, Value.ToString, if_neg he]
  exact ⟨checkValid_Marshal v.Value, unquoteBytes_Marshal v.Value⟩

/-- The text `a` of a `VarChar` is written as the JSON string `"a"`. -/
theorem MarshalJSON_string_varchar :
    (Value.IsQuoted ⟨.VarChar, ascii "a"⟩ ∨ (⟨.VarChar, ascii "a"⟩ : GoSharding.Value).ValueType = .Bit) ∧
    checkValid (Value.MarshalJSON ⟨.VarChar, ascii "a"⟩) = true ∧
      unquoteBytes (Value.MarshalJSON ⟨.VarChar, ascii "a"⟩) = some (coerceUTF8 (ascii "a")) :=
  ⟨.inl rfl, MarshalJSON_string (.inl rfl)⟩

end GoSharding
