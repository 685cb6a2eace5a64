import GoSharding.Go.Bytes

/-!
# Go's `strconv` number parsers

`NewValue` validates integer bytes with `strconv.ParseInt` and `ParseUint` in
base 0, and float bytes with `ParseFloat`; `ToInt64` and `ToUint64` parse again
in base 10. The parsers below follow Go's `strconv/atoi.go` and `atof.go`: base
prefixes `0b`, `0o`, `0x` and a bare leading `0` for octal in base 0, digit
underscores in base 0 only, the 64-bit range checks, and the decimal and
hexadecimal float syntax with `inf`, `infinity` and `nan`.

Go's `uint64` arithmetic in `ParseUint` never wraps: the cutoff test runs before
every multiplication, so a `Nat` with the same tests computes the same result.
`ParseFloat` is modelled by its error result; the rounded `float64` is not.
The constructors print integers back with `AppendInt` and `AppendUint` in base 10.
-/

namespace GoSharding

/-- The `Err` of a `*strconv.NumError`. -/
inductive NumErr
  | ErrSyntax
  | ErrRange
  | ErrBase
  | ErrBitSize
deriving DecidableEq, Repr

/-- `*strconv.NumError`: the function, its input, and what went wrong. -/
structure NumError where
  Func : String
  Num : Bytes
  Err : NumErr
deriving DecidableEq, Repr

/-- `lower(c)`: ASCII letters to lower case, `c | ('x' - 'X')`. -/
def lower (c : UInt8) : UInt8 := c ||| 0x20

/-- `'0' <= c && c <= '9'` -/
def isDigit (c : UInt8) : Bool := '0'.toUInt8 ≤ c && c ≤ '9'.toUInt8

/-! ## Integers -/

/-- The loop of `underscoreOK` from the class `saw` of the last byte: `'0'` for a
digit or base prefix, `'_'`, or `'!'` for anything else. -/
def underscoreScan (hex : Bool) : UInt8 → Bytes → Bool
  | saw, [] => saw ≠ '_'.toUInt8
  | saw, c :: rest =>
    if isDigit c || (hex && 'a'.toUInt8 ≤ lower c && lower c ≤ 'f'.toUInt8) then
      underscoreScan hex '0'.toUInt8 rest
    else if c = '_'.toUInt8 then
      if saw ≠ '0'.toUInt8 then false else underscoreScan hex '_'.toUInt8 rest
    else if saw = '_'.toUInt8 then false
    else underscoreScan hex '!'.toUInt8 rest

/-- `underscoreOK`: underscores only between digits, or between a base prefix and a digit. -/
def underscoreOK (s : Bytes) : Bool :=
  let s := match s with
    | c :: rest => if c = '-'.toUInt8 ∨ c = '+'.toUInt8 then rest else s
    | [] => []
  match s with
  | c0 :: c1 :: rest =>
    if c0 = '0'.toUInt8 ∧ (lower c1 = 'b'.toUInt8 ∨ lower c1 = 'o'.toUInt8 ∨ lower c1 = 'x'.toUInt8) then
      underscoreScan (lower c1 = 'x'.toUInt8) '0'.toUInt8 rest
    else underscoreScan false '^'.toUInt8 s
  | _ => underscoreScan false '^'.toUInt8 s

/-- The value of a digit or letter `c` in bases up to 36; `none` for anything else. -/
def digitVal (c : UInt8) : Option Nat :=
  if isDigit c then some (c - '0'.toUInt8).toNat
  else if 'a'.toUInt8 ≤ lower c && lower c ≤ 'z'.toUInt8 then some ((lower c - 'a'.toUInt8).toNat + 10)
  else none

/-- The digit loop of `ParseUint`: the value read so far, and whether an underscore
was skipped. `base0` lets underscores through; `maxVal` is `1<<bitSize - 1`. -/
def parseUintLoop (base : Nat) (base0 : Bool) (maxVal : Nat) : Nat → Bool → Bytes → Except NumErr (Nat × Bool)
  | n, underscores, [] => .ok (n, underscores)
  | n, underscores, c :: cs =>
    if c = '_'.toUInt8 ∧ base0 then parseUintLoop base base0 maxVal n true cs
    else match digitVal c with
      | none => .error .ErrSyntax
      | some d =>
        if base ≤ d then .error .ErrSyntax
        else if (2 ^ 64 - 1) / base + 1 ≤ n then .error .ErrRange
        else if maxVal < n * base + d then .error .ErrRange
        else parseUintLoop base base0 maxVal (n * base + d) underscores cs

/-- `strconv.ParseUint(s, base, bitSize)`. -/
def ParseUint (s : Bytes) (base bitSize : Nat) : Except NumError Nat :=
  let err (e : NumErr) : Except NumError Nat := .error ⟨"ParseUint", s, e⟩
  if s = [] then err .ErrSyntax else
  let base0 := base = 0
  let prefixed : Option (Nat × Bytes) :=
    if 2 ≤ base ∧ base ≤ 36 then some (base, s)
    else if base = 0 then
      match s with
      | c0 :: c1 :: c2 :: rest =>
        if c0 = '0'.toUInt8 then
          if lower c1 = 'b'.toUInt8 then some (2, c2 :: rest)
          else if lower c1 = 'o'.toUInt8 then some (8, c2 :: rest)
          else if lower c1 = 'x'.toUInt8 then some (16, c2 :: rest)
          else some (8, c1 :: c2 :: rest)
        else some (10, s)
      | c0 :: rest => if c0 = '0'.toUInt8 then some (8, rest) else some (10, s)
      | [] => some (10, s)
    else none
  match prefixed with
  | none => err .ErrBase
  | some (base, digits) =>
    let bitSize := if bitSize = 0 then 64 else bitSize
    if 64 < bitSize then err .ErrBitSize else
    match parseUintLoop base base0 (2 ^ bitSize - 1) 0 false digits with
    | .error e => err e
    | .ok (n, underscores) => if underscores && !underscoreOK s then err .ErrSyntax else .ok n

/-- `strconv.ParseInt(s, base, bitSize)`. -/
def ParseInt (s : Bytes) (base bitSize : Nat) : Except NumError Int :=
  let err (e : NumErr) : Except NumError Int := .error ⟨"ParseInt", s, e⟩
  match s with
  | [] => err .ErrSyntax
  | c :: rest =>
    let (neg, digits) :=
      if c = '+'.toUInt8 then (false, rest) else if c = '-'.toUInt8 then (true, rest) else (false, s)
    let bitSize := if bitSize = 0 then 64 else bitSize
    match ParseUint digits base bitSize with
    | .error ⟨_, _, .ErrRange⟩ => err .ErrRange
    | .error e => err e.Err
    | .ok un =>
      if !neg && 2 ^ (bitSize - 1) ≤ un then err .ErrRange
      else if neg && 2 ^ (bitSize - 1) < un then err .ErrRange
      else .ok (if neg then -(un : Int) else un)

/-! ## Floats -/

/-- `commonPrefixLenIgnoreCase(s, prefix)`, for a lower-case `prefix`. -/
def commonPrefixLenIgnoreCase : Bytes → Bytes → Nat
  | c :: s, p :: ps =>
    let c := if 'A'.toUInt8 ≤ c ∧ c ≤ 'Z'.toUInt8 then c + 32 else c
    if c = p then commonPrefixLenIgnoreCase s ps + 1 else 0
  | _, _ => 0

/-- `special(s)`: the length of an infinity or NaN at the front of `s`. After a
sign only an infinity is looked for. -/
def special (s : Bytes) : Option Nat :=
  let inf (nsign : Nat) (t : Bytes) : Option Nat :=
    let n := commonPrefixLenIgnoreCase t (ascii "infinity")
    let n := if 3 < n ∧ n < 8 then 3 else n
    if n = 3 ∨ n = 8 then some (nsign + n) else none
  match s with
  | [] => none
  | c :: rest =>
    if c = '+'.toUInt8 ∨ c = '-'.toUInt8 then inf 1 rest
    else if c = 'i'.toUInt8 ∨ c = 'I'.toUInt8 then inf 0 s
    else if c = 'n'.toUInt8 ∨ c = 'N'.toUInt8 then
      if commonPrefixLenIgnoreCase s (ascii "nan") = 3 then some 3 else none
    else none

/-- The optional sign at the front: `+` or `-`, and the bytes after it. -/
def readSign : Bytes → Bool × Bytes
  | c :: rest => if c = '+'.toUInt8 then (false, rest) else if c = '-'.toUInt8 then (true, rest) else (false, c :: rest)
  | [] => (false, [])

/-- The state of `readFloat`'s digit loop: the significant digits read as a number,
their count `nd`, the point's position `dp`, and the flags. Go keeps the first 19
digits (16 in hex) and a truncation flag, and reads all of them again when the
rounding needs them; the model keeps them all, which is the value Go rounds. -/
structure Mantissa where
  value : Nat := 0
  nd : Nat := 0
  dp : Int := 0
  sawdot : Bool := false
  sawdigits : Bool := false
  underscores : Bool := false

/-- The digit loop of `readFloat` in base `base`: the state, and the bytes it stopped at. -/
def mantissaLoop (base : Nat) : Mantissa → Bytes → Mantissa × Bytes
  | m, [] => (m, [])
  | m, c :: cs =>
    if c = '_'.toUInt8 then mantissaLoop base { m with underscores := true } cs
    else if c = '.'.toUInt8 then
      if m.sawdot then (m, c :: cs) else mantissaLoop base { m with sawdot := true, dp := m.nd } cs
    else
      let d : Option Nat :=
        if isDigit c then some (c - '0'.toUInt8).toNat
        else if base = 16 ∧ 'a'.toUInt8 ≤ lower c ∧ lower c ≤ 'f'.toUInt8 then some ((lower c - 'a'.toUInt8).toNat + 10)
        else none
      match d with
      | none => (m, c :: cs)
      | some 0 =>
        if m.nd = 0 then mantissaLoop base { m with sawdigits := true, dp := m.dp - 1 } cs
        else mantissaLoop base { m with sawdigits := true, nd := m.nd + 1, value := m.value * base } cs
      | some d => mantissaLoop base { m with sawdigits := true, nd := m.nd + 1, value := m.value * base + d } cs

/-- The exponent's digit loop: the exponent, which takes in a digit only while it
is below 10000, so that it reads every exponent below 100000 exactly; whether an
underscore was skipped; and the bytes it stopped at. -/
def exponentLoop : Nat → Bool → Bytes → Nat × Bool × Bytes
  | e, u, [] => (e, u, [])
  | e, u, c :: cs =>
    if isDigit c then exponentLoop (if e < 10000 then e * 10 + (c - '0'.toUInt8).toNat else e) u cs
    else if c = '_'.toUInt8 then exponentLoop e true cs
    else (e, u, c :: cs)

/-- A float literal's exact value, `±value * radix ^ exp`. -/
structure FloatLit where
  neg : Bool
  value : Nat
  radix : Nat
  exp : Int

/-- The base prefix `0x` `readFloat` looks for, with at least one byte after it. -/
def hexPrefix : Bytes → Bool × Bytes
  | c0 :: c1 :: c2 :: rest =>
    if c0 = '0'.toUInt8 ∧ lower c1 = 'x'.toUInt8 then (true, c2 :: rest) else (false, c0 :: c1 :: c2 :: rest)
  | t => (false, t)

/-- The optional exponent after the digits of `readFloat`: `p` in hex (where it
is required), `e` in decimal, an optional sign and digits. The point's position
moved by it, whether an underscore was skipped, and the bytes after it. -/
def readExponent (hex : Bool) (dp : Int) (underscores : Bool) : Bytes → Option (Int × Bool × Bytes)
  | c :: cs =>
    if lower c = (if hex then 'p' else 'e').toUInt8 then
      let (eneg, cs) := readSign cs
      match cs with
      | c :: _ =>
        if isDigit c then
          let (e, u, rest) := exponentLoop 0 false cs
          some (if eneg then dp - e else dp + e, underscores || u, rest)
        else none
      | [] => none
    else if hex then none else some (dp, underscores, c :: cs)
  | [] => if hex then none else some (dp, underscores, [])

/-- `readFloat(s)`: on success the literal at the front of `s` and the count of bytes it takes. -/
def readFloat (s : Bytes) : Option (FloatLit × Nat) := do
  if s = [] then none
  let (neg, t) := readSign s
  let (hex, t) := hexPrefix t
  let (m, t') := mantissaLoop (if hex then 16 else 10) {} t
  if !m.sawdigits then none
  let dp := if m.sawdot then m.dp else m.nd
  let (dp, nd) := if hex then (4 * dp, 4 * m.nd) else (dp, m.nd)
  let (dp, underscores, rest) ← readExponent hex dp m.underscores t'
  let n := s.length - rest.length
  if underscores && !underscoreOK (s.take n) then none
  some (⟨neg, m.value, if hex then 2 else 10, dp - nd⟩, n)

/-- The least magnitude that rounds to infinity: half a unit in the last place
above the largest finite float of the size. -/
def overflowBound (bitSize : Nat) : Nat :=
  if bitSize = 32 then (2 ^ 25 - 1) * 2 ^ 103 else (2 ^ 54 - 1) * 2 ^ 970

/-- The literal's value rounds to infinity. Go's conversion rounds correctly, and a
value exactly at the bound rounds up, the largest float's mantissa being odd. -/
def FloatLit.overflows (lit : FloatLit) (bitSize : Nat) : Bool :=
  if 0 ≤ lit.exp then overflowBound bitSize ≤ lit.value * lit.radix ^ lit.exp.toNat
  else overflowBound bitSize * lit.radix ^ (-lit.exp).toNat ≤ lit.value

/-- `strconv.ParseFloat(s, bitSize)`, by its error: `nil`, a syntax error, or a
range error for a value beyond the largest float. -/
def ParseFloat (s : Bytes) (bitSize : Nat) : Except NumError Unit :=
  let err (e : NumErr) : Except NumError Unit := .error ⟨"ParseFloat", s, e⟩
  match special s with
  | some n => if n = s.length then .ok () else err .ErrSyntax
  | none =>
    match readFloat s with
    | none => err .ErrSyntax
    | some (lit, n) =>
      if n ≠ s.length then err .ErrSyntax
      else if lit.overflows bitSize then err .ErrRange
      else .ok ()

/-! ## Formatting -/

/-- The decimal digits of `u`, most significant first: the digit loop of
`formatBits` in base 10 (Go writes two digits at a time from a table). -/
def decimalDigits (u : Nat) : Bytes :=
  if u < 10 then [(48 + u).toUInt8] else decimalDigits (u / 10) ++ [(48 + u % 10).toUInt8]
termination_by u
decreasing_by omega

/-- `formatBits(dst, u, 10, neg, true)`: a minus sign when `neg`, then the digits of `u`. -/
def formatBits (u : Nat) (neg : Bool) : Bytes := (if neg then ['-'.toUInt8] else []) ++ decimalDigits u

/-- `strconv.AppendInt(dst, i, 10)` for the `int64` value `i`: `formatBits` negates
`uint64(i)` when `i < 0`, which is the magnitude of `i`. -/
def AppendInt (dst : Bytes) (i : Int) : Bytes := dst ++ formatBits i.natAbs (decide (i < 0))

/-- `strconv.AppendUint(dst, u, 10)` for the `uint64` value `u`. -/
def AppendUint (dst : Bytes) (u : Nat) : Bytes := dst ++ formatBits u false

end GoSharding
