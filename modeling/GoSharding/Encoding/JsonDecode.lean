import GoSharding.Encoding.JsonScanner
import GoSharding.Encoding.Base64
import GoSharding.Types.Integral

/-!
# Decoding in Go's `encoding/json`

After `checkValid`, `json.Unmarshal` skips the space before the value and reads it with
`d.value`: an object, an array, or a literal whose bytes `rescanLiteral` finds and
`literalStore` stores into the target. Into an integer, a number is parsed with `strconv`
and `null` leaves it at zero; into a `[]byte`, a string is unquoted and decoded from base64.

Into an integer, a decimal integer is handed to the parser whole (`Unmarshal_formatBits`);
into a `[]byte`, what `json.Marshal` writes for a string is the base64 decoding of the
string made valid UTF-8 (`unmarshalQuotedBytes_Marshal`).
-/

namespace GoSharding

/-- The errors `json.Unmarshal` returns here: a `*SyntaxError` from the scanner, an
`*UnmarshalTypeError` by its `Value` field, and base64's `CorruptInputError` offset. The
messages, types and offsets of the first two are left out. -/
inductive JsonError
  | SyntaxError
  | UnmarshalTypeError (value : Bytes)
  | CorruptInputError (offset : Nat)
  deriving DecidableEq, Repr

/-! ## Reading the value -/

/-- The string loop of `rescanLiteral`: the bytes up to and with the closing quote, a
backslash taking the byte after it along. At a backslash that ends the data, which the
scanner rules out, the code would slice past the data. -/
def rescanString : Bytes → Bytes
  | [] => []
  | c :: rest =>
    if c = '\\'.toUInt8 then
      match rest with
      | d :: rest => c :: d :: rescanString rest
      | [] => [c]
    else if c = '"'.toUInt8 then [c]
    else c :: rescanString rest

/-- The number loop of `rescanLiteral` -/
def rescanNumber : Bytes → Bytes
  | [] => []
  | c :: rest =>
    if isDigit c ∨ c = '.'.toUInt8 ∨ c = 'e'.toUInt8 ∨ c = 'E'.toUInt8 ∨ c = '+'.toUInt8 ∨ c = '-'.toUInt8 then
      c :: rescanNumber rest
    else []

/-- `rescanLiteral`: the bytes, after the first byte `c`, of the literal that begins with `c`. -/
def rescanLiteral (c : UInt8) (rest : Bytes) : Bytes :=
  if c = '"'.toUInt8 then rescanString rest
  else if c = '-'.toUInt8 ∨ isDigit c then rescanNumber rest
  else if c = 't'.toUInt8 then rest.take 3
  else if c = 'f'.toUInt8 then rest.take 4
  else if c = 'n'.toUInt8 then rest.take 3
  else []

/-- What `d.value` meets at the top of the text: an object, an array, or a literal, as its
first byte and the rest of its bytes. -/
inductive Token
  | object
  | array
  | literal (c : UInt8) (item : Bytes)

/-- `d.scanWhile(scanSkipSpace)` and the value it reaches. -/
def value (data : Bytes) : Option Token :=
  match data.dropWhile isSpace with
  | [] => none
  | c :: rest =>
    some (if c = '{'.toUInt8 then .object else if c = '['.toUInt8 then .array else .literal c (rescanLiteral c rest))

/-- `json.Unmarshal(data, &v)`: `checkValid`, then `d.value(v)`, which `store` does for the
type of `v`. -/
def Unmarshal {α : Type} (store : Token → Except JsonError α) (data : Bytes) : Except JsonError α :=
  if checkValid data then
    match value data with
    | some t => store t
    | none => .error .SyntaxError
  else .error .SyntaxError

/-- `d.value(v)` for an integer `v`: `d.object` and `d.array` save an `UnmarshalTypeError`;
`literalStore` leaves `v` at zero for `null`, saves an `UnmarshalTypeError` for `true`,
`false` and a string, and parses a number with `parse`, which is
`strconv.ParseInt(s, 10, 64)` or `strconv.ParseUint(s, 10, 64)`. -/
def storeInteger {α : Type} (zero : α) (parse : Bytes → Except NumError α) : Token → Except JsonError α
  | .object => .error (.UnmarshalTypeError (ascii "object"))
  | .array => .error (.UnmarshalTypeError (ascii "array"))
  | .literal c item =>
    if c = 'n'.toUInt8 then .ok zero
    else if c = 't'.toUInt8 ∨ c = 'f'.toUInt8 then .error (.UnmarshalTypeError (ascii "bool"))
    else if c = '"'.toUInt8 then .error (.UnmarshalTypeError (ascii "string"))
    else
      match parse (c :: item) with
      | .ok n => .ok n
      | .error _ => .error (.UnmarshalTypeError (ascii "number " ++ c :: item))

/-- `json.Unmarshal(b, &bval)` for `bval []byte` on a text `'"' :: rest`, which is all that
`UnmarshalJSON` passes it: the value is the string `rescanLiteral` reads, which
`literalStore` unquotes and decodes from base64. The code panics where `unquoteBytes`
fails, which the scanner rules out. -/
def unmarshalQuotedBytes (rest : Bytes) : Except JsonError Bytes :=
  if checkValid ('"'.toUInt8 :: rest) then
    match unquoteBytes ('"'.toUInt8 :: rescanString rest) with
    | some s => (Decode s).mapError .CorruptInputError
    | none => .error .SyntaxError
  else .error .SyntaxError

/-! ## Numbers -/

theorem rescanNumber_digits (ds : Bytes) (h : ∀ c ∈ ds, isDigit c) : rescanNumber ds = ds := by
  induction ds with
  | nil => rfl
  | cons c ds ih =>
    rw [rescanNumber, if_pos (.inl (h c (List.mem_cons_self _ _))), ih fun c hc => h c (List.mem_cons_of_mem _ hc)]

/-- **The scanner accepts what `AppendInt` and `AppendUint` write**: a decimal integer, with
or without a minus sign. -/
theorem checkValid_formatBits (u : Nat) (neg : Bool) : checkValid (formatBits u neg) = true := by
  by_cases hu : u = 0
  · subst hu
    rw [formatBits, decimalDigits_of_lt (by decide)]
    cases neg <;> rfl
  obtain ⟨d, ds, hds⟩ := List.exists_cons_of_ne_nil (decimalDigits_ne_nil u)
  have hdig := decimalDigits_isDigit u
  rw [hds] at hdig
  have hd : d ≠ '0'.toUInt8 := fun h => hu (decimalDigits_head (by rw [hds, h]; rfl))
  have key := digit_forall (P := fun c => c ≠ '0'.toUInt8 →
      stateBeginValue ⟨.beginValue, [], false⟩ c = some ⟨.one, [], false⟩ ∧
      stateNeg ⟨.neg, [], false⟩ c = some ⟨.one, [], false⟩) (by decide) (hdig d (List.mem_cons_self _ _)) hd
  have hrun := run_one_digits [] false ds fun c hc => hdig c (List.mem_cons_of_mem _ hc)
  cases neg
  · rw [checkValid, formatBits, hds, if_neg Bool.false_ne_true, List.nil_append]
    simp only [Scanner.reset, Scanner.run, Scanner.scan, key.1, Option.some_bind, hrun]
    rfl
  · have hneg : stateBeginValue ⟨.beginValue, [], false⟩ '-'.toUInt8 = some ⟨.neg, [], false⟩ := rfl
    rw [checkValid, formatBits, hds, if_pos rfl, List.singleton_append]
    simp only [Scanner.reset, Scanner.run, Scanner.scan, hneg, key.2, Option.some_bind, hrun]
    rfl

/-- A byte that starts a number is no space and starts no other value. -/
theorem numberStart_facts {c : UInt8} (hc : c = '-'.toUInt8 ∨ isDigit c) :
    isSpace c = false ∧ c ≠ '{'.toUInt8 ∧ c ≠ '['.toUInt8 ∧ c ≠ '"'.toUInt8 ∧ c ≠ 'n'.toUInt8 ∧
      ¬(c = 't'.toUInt8 ∨ c = 'f'.toUInt8) := by
  rcases hc with rfl | hc
  · decide
  · exact digit_forall (P := fun c => isSpace c = false ∧ c ≠ '{'.toUInt8 ∧ c ≠ '['.toUInt8 ∧ c ≠ '"'.toUInt8 ∧
      c ≠ 'n'.toUInt8 ∧ ¬(c = 't'.toUInt8 ∨ c = 'f'.toUInt8)) (by decide) hc

/-- **Into an integer, a decimal integer is handed to the parser whole.** -/
theorem Unmarshal_formatBits {α : Type} (zero : α) (parse : Bytes → Except NumError α) (u : Nat) (neg : Bool) :
    Unmarshal (storeInteger zero parse) (formatBits u neg) =
      match parse (formatBits u neg) with
      | .ok n => .ok n
      | .error _ => .error (.UnmarshalTypeError (ascii "number " ++ formatBits u neg)) := by
  obtain ⟨d, ds, hds⟩ := List.exists_cons_of_ne_nil (decimalDigits_ne_nil u)
  have hdig := decimalDigits_isDigit u
  rw [hds] at hdig
  obtain ⟨c, item, hci, hc, hitem⟩ : ∃ c item, formatBits u neg = c :: item ∧ (c = '-'.toUInt8 ∨ isDigit c) ∧
      ∀ x ∈ item, isDigit x := by
    cases neg
    · exact ⟨d, ds, by simp [formatBits, hds], .inr (hdig d (List.mem_cons_self _ _)),
        fun x hx => hdig x (List.mem_cons_of_mem _ hx)⟩
    · exact ⟨'-'.toUInt8, d :: ds, by simp [formatBits, hds], .inl rfl, hdig⟩
  obtain ⟨hs, h1, h2, h3, h4, h5⟩ := numberStart_facts hc
  have hv : value (c :: item) = some (.literal c item) := by
    rw [value, List.dropWhile_cons_of_neg (by simp [hs])]
    simp only [if_neg h1, if_neg h2, rescanLiteral, if_neg h3, if_pos hc, rescanNumber_digits item hitem]
  have hvalid := checkValid_formatBits u neg
  rw [hci] at hvalid ⊢
  rw [Unmarshal, if_pos hvalid, hv]
  simp only [storeInteger, if_neg h4, if_neg h5, if_neg h3]

/-- Into an `int64`, what `AppendInt` writes is read as the integer written. -/
theorem Unmarshal_AppendInt {i : Int} (hlo : -2 ^ 63 ≤ i) (hhi : i < 2 ^ 63) :
    Unmarshal (storeInteger 0 (ParseInt · 10 64)) (AppendInt [] i) = .ok i := by
  have h := ParseInt_AppendInt hlo hhi
  rw [AppendInt, List.nil_append] at h ⊢
  rw [Unmarshal_formatBits, h]

/-- Into a `uint64`, what `AppendUint` writes is read as the integer written. -/
theorem Unmarshal_AppendUint {u : Nat} (hu : u < 2 ^ 64) :
    Unmarshal (storeInteger 0 (ParseUint · 10 64)) (AppendUint [] u) = .ok u := by
  have h := ParseUint_AppendUint hu
  rw [AppendUint, List.nil_append] at h ⊢
  rw [Unmarshal_formatBits, h]

/-! ## Strings -/

theorem rescanString_of_ne {c : UInt8} (h : c ≠ '\\'.toUInt8) (rest : Bytes) :
    rescanString (c :: rest) = if c = '"'.toUInt8 then [c] else c :: rescanString rest := by
  cases rest <;> simp only [rescanString, if_neg h]

/-- Bytes that are neither a backslash nor a quote are read as they are. -/
theorem rescanString_plain (bs rest : Bytes) (h : ∀ c ∈ bs, c ≠ '\\'.toUInt8 ∧ c ≠ '"'.toUInt8) :
    rescanString (bs ++ rest) = bs ++ rescanString rest := by
  induction bs with
  | nil => rfl
  | cons c bs ih =>
    obtain ⟨h1, h2⟩ := h c (List.mem_cons_self _ _)
    rw [List.cons_append, rescanString_of_ne h1, if_neg h2, ih fun c hc => h c (List.mem_cons_of_mem _ hc),
      List.cons_append]

/-- A backslash takes the byte after it along. -/
theorem rescanString_escaped (x : UInt8) (tail rest : Bytes) (h : ∀ c ∈ tail, c ≠ '\\'.toUInt8 ∧ c ≠ '"'.toUInt8) :
    rescanString (('\\'.toUInt8 :: x :: tail) ++ rest) = ('\\'.toUInt8 :: x :: tail) ++ rescanString rest := by
  rw [List.cons_append, List.cons_append, rescanString, if_pos rfl, rescanString_plain tail rest h]
  rfl

theorem hex_ne : ∀ k < 16, hex.getD k 0 ≠ '\\'.toUInt8 ∧ hex.getD k 0 ≠ '"'.toUInt8 := by decide

/-- `rescanLiteral` reads each unit `appendString` writes as part of the string. -/
theorem rescanString_unit {p0 : UInt8} {p u : Bytes} (hu : IsUnit p0 p u) (rest : Bytes) :
    rescanString (u ++ rest) = u ++ rescanString rest := by
  cases hu with
  | safe _ hs =>
    obtain ⟨h1, h2, -⟩ := htmlSafe_spec hs
    exact rescanString_plain _ _ fun c hc => by
      rw [List.mem_singleton] at hc
      exact hc ▸ ⟨h1, h2⟩
  | escape h0 _ =>
    have h0' : p0.toNat < 128 := h0
    rcases escapeASCII_cases p0 with ⟨x, -, h⟩ | h <;> rw [h]
    · exact rescanString_escaped x [] rest (by simp)
    refine rescanString_escaped _ _ rest ?_
    simp only [List.mem_cons, List.mem_nil_iff, or_false, forall_eq_or_imp, forall_eq]
    exact ⟨by decide, by decide, hex_ne _ (by omega), hex_ne _ (by omega)⟩
  | invalid _ => exact rescanString_escaped 'u'.toUInt8 (ascii "fffd") rest (by decide)
  | separator _ h28 =>
    refine rescanString_escaped 'u'.toUInt8 (ascii "202" ++ [hex.getD ((DecodeRune (p0 :: p)).1 % 16) 0]) rest ?_
    simp only [List.mem_append, List.mem_singleton]
    rintro c (hc | rfl)
    · revert c hc
      decide
    · exact hex_ne _ (by omega)
  | rune hm _ =>
    refine rescanString_plain _ _ fun c hc => ?_
    have hc := hm.high c hc
    have hne : ∀ x : UInt8, x.toNat < 0x80 → c ≠ x := fun x hx h => by subst h; omega
    exact ⟨hne _ (by decide), hne _ (by decide)⟩

/-- `rescanLiteral` reads all that `appendString` writes as part of the string. -/
theorem rescanString_stringBody (b rest : Bytes) : rescanString (stringBody b ++ rest) = stringBody b ++ rescanString rest := by
  induction b using coerceUTF8.induct with
  | case1 => rw [stringBody]; rfl
  | case2 p0 p ih =>
    obtain ⟨u, hu, hs⟩ := stringBody_cons p0 p
    rw [hs, List.append_assoc, rescanString_unit hu, ih, List.append_assoc]

/-- **Into a `[]byte`, what `json.Marshal` writes for a string is read as the base64 decoding
of the string made valid UTF-8.** -/
theorem unmarshalQuotedBytes_Marshal (b : Bytes) :
    unmarshalQuotedBytes (stringBody b ++ ['"'.toUInt8]) = (Decode (coerceUTF8 b)).mapError .CorruptInputError := by
  have hm : '"'.toUInt8 :: (stringBody b ++ ['"'.toUInt8]) = Marshal b := rfl
  have hr : rescanString (stringBody b ++ ['"'.toUInt8]) = stringBody b ++ ['"'.toUInt8] := by
    rw [rescanString_stringBody]
    rfl
  rw [unmarshalQuotedBytes, hm, if_pos (checkValid_Marshal b), hr, hm, unquoteBytes_Marshal]

end GoSharding
