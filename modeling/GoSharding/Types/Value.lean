import GoSharding.Strconv
import Mathlib.Logic.Function.Basic

/-!
# Typed values

A `Value` is a MySQL type code and raw bytes. `NewValue` checks numeric bytes
with Go's parsers and takes quoted, bit and NULL values as they are; `EncodeSQL`
writes a value into a statement: `null`, a quoted and backslash-escaped string,
a `b'...'` bit literal, or the raw bytes of a number. The escape tables are
built at package initialisation from `encodeRef`.
-/

namespace GoSharding

/-! ## Type codes -/

/-- Modelled from the spec: the type codes of `MySqlType` (§3). -/
inductive MySqlType
  | Null | Int8 | Uint8 | Int16 | Uint16 | Int24 | Uint24 | Int32 | Uint32 | Int64 | Uint64
  | Float32 | Float64 | Timestamp | Date | Time | Datetime | Year | Decimal
  | Text | Blob | VarChar | VarBinary | Bit | Enum | Set | Json | Expression | TypeTuple
deriving DecidableEq, Repr

/-- Modelled from the spec: `IsSigned`, the signed integer types. -/
def IsSigned : MySqlType → Bool
  | .Int8 | .Int16 | .Int24 | .Int32 | .Int64 => true
  | _ => false

/-- Modelled from the spec: `IsUnsigned`, the unsigned integer types; `Year` is one. -/
def IsUnsigned : MySqlType → Bool
  | .Uint8 | .Uint16 | .Uint24 | .Uint32 | .Uint64 | .Year => true
  | _ => false

/-- Modelled from the spec: `IsIntegral`. -/
def IsIntegral (t : MySqlType) : Bool := IsSigned t || IsUnsigned t

/-- Modelled from the spec: `IsFloat`. -/
def IsFloat : MySqlType → Bool
  | .Float32 | .Float64 => true
  | _ => false

/-- Modelled from the spec: `IsQuoted`, the types written as quoted strings:
text, binary, temporal, enum, set and JSON. `Bit` has its own literal. -/
def IsQuoted : MySqlType → Bool
  | .Timestamp | .Date | .Time | .Datetime | .Text | .Blob | .VarChar | .VarBinary | .Enum | .Set | .Json =>
    true
  | _ => false

/-! ## Values -/

/-- `Value`: a type code and the raw bytes. -/
structure Value where
  ValueType : MySqlType
  Value : Bytes
deriving DecidableEq, Repr

/-- `NULL`, the zero `Value`. -/
def NULL : Value := ⟨.Null, []⟩

/-- The errors a value operation returns. -/
inductive ValueError
  | num (e : NumError)
  | invalidType (typ : MySqlType)
  | ErrIncompatibleTypeCast
deriving DecidableEq, Repr

def MakeTrusted (typ : MySqlType) (val : Bytes) : Value := if typ = .Null then NULL else ⟨typ, val⟩

/-- `NewValue`: numeric bytes must parse, quoted, bit and NULL bytes are taken as they are. -/
def NewValue (typ : MySqlType) (val : Bytes) : Except ValueError Value :=
  if IsSigned typ then
    match ParseInt val 0 64 with
    | .error e => .error (.num e)
    | .ok _ => .ok (MakeTrusted typ val)
  else if IsUnsigned typ then
    match ParseUint val 0 64 with
    | .error e => .error (.num e)
    | .ok _ => .ok (MakeTrusted typ val)
  else if IsFloat typ || typ = .Decimal then
    match ParseFloat val 64 with
    | .error e => .error (.num e)
    | .ok _ => .ok (MakeTrusted typ val)
  else if IsQuoted typ || typ = .Bit || typ = .Null then .ok (MakeTrusted typ val)
  else .error (.invalidType typ)

/-- Every value `NewValue` returns is `MakeTrusted` of its arguments. -/
theorem NewValue_ok {typ : MySqlType} {val : Bytes} {v : Value} (h : NewValue typ val = .ok v) :
    v = MakeTrusted typ val := by
  unfold NewValue at h
  split_ifs at h <;> (try split at h) <;> first | exact (Except.ok.inj h).symm | cases h

theorem MakeTrusted_of_ne {typ : MySqlType} (h : typ ≠ .Null) (val : Bytes) : MakeTrusted typ val = ⟨typ, val⟩ := by
  simp [MakeTrusted, h]

/-- What `NewValue` checked of the bytes of a numeric type it accepted. -/
theorem NewValue_checks {typ : MySqlType} {val : Bytes} {v : Value} (h : NewValue typ val = .ok v) :
    (IsSigned typ → ∃ n, ParseInt val 0 64 = .ok n) ∧ (IsUnsigned typ → ∃ n, ParseUint val 0 64 = .ok n) ∧
      (IsFloat typ ∨ typ = .Decimal → ParseFloat val 64 = .ok ()) := by
  refine ⟨fun hs => ?_, fun hu => ?_, fun hf => ?_⟩
  · rw [NewValue, if_pos hs] at h
    cases hp : ParseInt val 0 64 with
    | error e => rw [hp] at h; cases h
    | ok n => exact ⟨n, rfl⟩
  · have hs : IsSigned typ = false := by cases typ <;> simp_all [IsSigned, IsUnsigned]
    rw [NewValue, if_neg (by simp [hs]), if_pos hu] at h
    cases hp : ParseUint val 0 64 with
    | error e => rw [hp] at h; cases h
    | ok n => exact ⟨n, rfl⟩
  · have hsu : IsSigned typ = false ∧ IsUnsigned typ = false := by
      rcases hf with hf | rfl
      · cases typ <;> simp_all [IsSigned, IsUnsigned, IsFloat]
      · exact ⟨rfl, rfl⟩
    rw [NewValue, if_neg (by simp [hsu.1]), if_neg (by simp [hsu.2]), if_pos (by simpa using hf)] at h
    cases hp : ParseFloat val 64 with
    | error e => rw [hp] at h; cases h
    | ok u => rfl

namespace Value

def IsQuoted (v : GoSharding.Value) : Bool := GoSharding.IsQuoted v.ValueType

def IsIntegral (v : GoSharding.Value) : Bool := GoSharding.IsIntegral v.ValueType

def IsSigned (v : GoSharding.Value) : Bool := GoSharding.IsSigned v.ValueType

def IsUnsigned (v : GoSharding.Value) : Bool := GoSharding.IsUnsigned v.ValueType

def IsFloat (v : GoSharding.Value) : Bool := GoSharding.IsFloat v.ValueType

/-- `ToString`: the bytes, empty for an `Expression`. -/
def ToString (v : GoSharding.Value) : Bytes := if v.ValueType = .Expression then [] else v.Value

/-- `ToInt64`: an integral value's bytes parsed in base 10. -/
def ToInt64 (v : GoSharding.Value) : Except ValueError Int :=
  if !v.IsIntegral then .error .ErrIncompatibleTypeCast
  else (ParseInt v.ToString 10 64).mapError .num

/-- `ToUint64`: an integral value's bytes parsed in base 10. -/
def ToUint64 (v : GoSharding.Value) : Except ValueError Nat :=
  if !v.IsIntegral then .error .ErrIncompatibleTypeCast
  else (ParseUint v.ToString 10 64).mapError .num

/-- `ToBool`: `ToInt64`, read as false for 0 and true for 1. -/
def ToBool (v : GoSharding.Value) : Except ValueError Bool :=
  match v.ToInt64 with
  | .error e => .error e
  | .ok i => if i = 0 then .ok false else if i = 1 then .ok true else .error .ErrIncompatibleTypeCast

/-- `ToBytes`: the bytes, none for an `Expression`. -/
def ToBytes (v : GoSharding.Value) : Bytes := if v.ValueType = .Expression then [] else v.Value

def Len (v : GoSharding.Value) : Nat := v.Value.length

def IsNull (v : GoSharding.Value) : Bool := v.ValueType = .Null

/-- A quoted or bit value is written by the quoted branches of the encoders: its type is
neither NULL nor `Expression`. -/
theorem quotedOrBit_spec {v : GoSharding.Value} (hv : v.IsQuoted ∨ v.ValueType = .Bit) :
    (v.IsQuoted || v.ValueType = .Bit) = true ∧ v.ValueType ≠ .Null ∧ v.ValueType ≠ .Expression := by
  rcases hv with h | h <;> refine ⟨by simp [h], fun he => ?_, fun he => ?_⟩ <;>
    simp [IsQuoted, GoSharding.IsQuoted, he] at h

end Value

/-! ## Escape tables -/

def DontEscape : UInt8 := 255

/-- `encodeRef`: each byte MySQL escapes, and the letter after its backslash:
NUL `0`, `'` `'`, `"` `"`, backspace `b`, newline `n`, return `r`, tab `t`,
ctl-Z `Z`, backslash backslash. -/
def encodeRef : List (UInt8 × UInt8) :=
  [(0x00, 0x30), (0x27, 0x27), (0x22, 0x22), (0x08, 0x62), (0x0A, 0x6E), (0x0D, 0x72), (0x09, 0x74),
   (0x1A, 0x5A), (0x5C, 0x5C)]

/-- One pass of `init`'s second loop, at index `i`: if `encodeRef` has `byte(i)`,
set the encode entry of `byte(i)` and the decode entry of its letter. -/
def initStep (maps : (UInt8 → UInt8) × (UInt8 → UInt8)) (i : Nat) : (UInt8 → UInt8) × (UInt8 → UInt8) :=
  match encodeRef.lookup i.toUInt8 with
  | some e => (Function.update maps.1 i.toUInt8 e, Function.update maps.2 e i.toUInt8)
  | none => maps

/-- `init`: both tables first filled with `DontEscape`, then the second loop over every index. -/
@[irreducible] def initMaps : (UInt8 → UInt8) × (UInt8 → UInt8) :=
  (List.range 256).foldl initStep (fun _ => DontEscape, fun _ => DontEscape)

def SQLEncodeMap (b : UInt8) : UInt8 := initMaps.1 b

def SQLDecodeMap (b : UInt8) : UInt8 := initMaps.2 b

/-! ## Encoding -/

/-- `encodeBytesSQL`: a quote (0x27), each byte as is or as a backslash (0x5C)
pair, a quote. -/
def encodeBytesSQL (val : Bytes) : Bytes :=
  [0x27] ++ val.flatMap (fun ch => if SQLEncodeMap ch = DontEscape then [ch] else [0x5C, SQLEncodeMap ch]) ++
    [0x27]

/-- The binary digits of `n`, most significant first, as `fmt` prints them. -/
def binaryDigits (n : Nat) : Bytes :=
  if n < 2 then [if n = 0 then '0'.toUInt8 else '1'.toUInt8]
  else binaryDigits (n / 2) ++ [if n % 2 = 0 then '0'.toUInt8 else '1'.toUInt8]
termination_by n
decreasing_by omega

/-- `fmt.Fprintf(b, "%08b", n)`: the binary digits, zero-padded on the left to width 8. -/
def fmt08b (n : Nat) : Bytes :=
  List.replicate (8 - (binaryDigits n).length) '0'.toUInt8 ++ binaryDigits n

/-- `encodeBytesSQLBits`: `b'`, eight binary digits per byte, `'`. -/
def encodeBytesSQLBits (val : Bytes) : Bytes :=
  ascii "b'" ++ val.flatMap (fun ch => fmt08b ch.toNat) ++ ascii "'"

def nullstr : Bytes := ascii "null"

/-- `Value.EncodeSQL`: what it writes to the in-memory writer. -/
def Value.EncodeSQL (v : GoSharding.Value) : Bytes :=
  if v.ValueType = .Null then nullstr
  else if v.IsQuoted then encodeBytesSQL v.Value
  else if v.ValueType = .Bit then encodeBytesSQLBits v.Value
  else v.Value

theorem Value.EncodeSQL_of_IsQuoted {v : GoSharding.Value} (h : v.IsQuoted) :
    v.EncodeSQL = encodeBytesSQL v.Value := by
  have hn : v.ValueType ≠ .Null := fun hn => by simp [Value.IsQuoted, hn, GoSharding.IsQuoted] at h
  simp [Value.EncodeSQL, hn, h]

theorem Value.EncodeSQL_of_Bit {v : GoSharding.Value} (h : v.ValueType = .Bit) :
    v.EncodeSQL = encodeBytesSQLBits v.Value := by
  simp [Value.EncodeSQL, Value.IsQuoted, h, GoSharding.IsQuoted]

/-- A numeric value is written as its bytes. -/
theorem EncodeSQL_of_numeric {typ : MySqlType} (hnum : IsIntegral typ ∨ IsFloat typ ∨ typ = .Decimal) (val : Bytes) :
    (MakeTrusted typ val).EncodeSQL = val := by
  have h : typ ≠ .Null ∧ IsQuoted typ = false ∧ typ ≠ .Bit := by
    rcases hnum with h | h | rfl <;> [cases typ; cases typ; skip] <;> simp_all [IsIntegral, IsSigned, IsUnsigned, IsFloat, IsQuoted]
  simp [MakeTrusted, Value.EncodeSQL, Value.IsQuoted, h]

end GoSharding
