import GoSharding.Encoding.JsonString
import GoSharding.Strconv

/-!
# The scanner of Go's `encoding/json`

`json.Unmarshal` first runs the scanner over the whole text (`checkValid`). The scanner
reads a byte at a time; its field `step` holds the function for the next byte, named here
by `State`, and `parseState` is the stack of the objects and arrays it is inside, top
first. A step that returns `scanError` is `none`.

The scanner accepts every JSON string `appendString` writes (`checkValid_Marshal`) and
reads digits as one number (`run_one_digits`).
-/

namespace GoSharding

/-- `parseObjectKey`, `parseObjectValue`, `parseArrayValue` -/
inductive ParseState
  | ObjectKey
  | ObjectValue
  | ArrayValue
  deriving DecidableEq, Repr

/-- The state functions `step` holds: `stateBeginValueOrEmpty` is `beginValueOrEmpty`, and so
on; `state1` and `state0` are `one` and `zero`. -/
inductive State
  | beginValueOrEmpty | beginValue | beginStringOrEmpty | beginString | endValue | endTop
  | inString | inStringEsc | inStringEscU | inStringEscU1 | inStringEscU12 | inStringEscU123
  | neg | one | zero | dot | dot0 | e | eSign | e0
  | t | tr | tru | f | fa | fal | fals | n | nu | nul
  deriving DecidableEq, Repr

/-- The `scanner`: its step function, the stack `parseState` with its top first, and
`endTop`. Its error and byte count are left out. -/
structure Scanner where
  step : State
  parseState : List ParseState
  endTop : Bool
  deriving DecidableEq, Repr

def maxNestingDepth : Nat := 10000

def isSpace (c : UInt8) : Bool :=
  c ≤ ' '.toUInt8 && (c = ' '.toUInt8 || c = '\t'.toUInt8 || c = '\r'.toUInt8 || c = '\n'.toUInt8)

/-- `s.step = next` and `s.pushParseState(c, newParseState, successState)`: past
`maxNestingDepth` it is an error. -/
def pushParseState (s : Scanner) (ps : ParseState) (next : State) : Option Scanner :=
  if s.parseState.length + 1 ≤ maxNestingDepth then some { s with step := next, parseState := ps :: s.parseState }
  else none

def popParseState (s : Scanner) : Scanner :=
  match s.parseState.tail with
  | [] => { s with parseState := [], step := .endTop, endTop := true }
  | ps => { s with parseState := ps, step := .endValue }

/-- `stateEndTop`: only space may follow the top-level value. At another byte the code
records the error and returns `scanEnd`; its next step, or `eof`, then fails. -/
def stateEndTop (s : Scanner) (c : UInt8) : Option Scanner := if isSpace c then some s else none

def stateEndValue (s : Scanner) (c : UInt8) : Option Scanner :=
  match s.parseState with
  | [] => stateEndTop { s with step := .endTop, endTop := true } c
  | ps :: rest =>
    if isSpace c then some { s with step := .endValue }
    else match ps with
      | .ObjectKey =>
        if c = ':'.toUInt8 then some { s with parseState := .ObjectValue :: rest, step := .beginValue } else none
      | .ObjectValue =>
        if c = ','.toUInt8 then some { s with parseState := .ObjectKey :: rest, step := .beginString }
        else if c = '}'.toUInt8 then some (popParseState s)
        else none
      | .ArrayValue =>
        if c = ','.toUInt8 then some { s with step := .beginValue }
        else if c = ']'.toUInt8 then some (popParseState s)
        else none

def stateBeginValue (s : Scanner) (c : UInt8) : Option Scanner :=
  if isSpace c then some s
  else if c = '{'.toUInt8 then pushParseState s .ObjectKey .beginStringOrEmpty
  else if c = '['.toUInt8 then pushParseState s .ArrayValue .beginValueOrEmpty
  else if c = '"'.toUInt8 then some { s with step := .inString }
  else if c = '-'.toUInt8 then some { s with step := .neg }
  else if c = '0'.toUInt8 then some { s with step := .zero }
  else if c = 't'.toUInt8 then some { s with step := .t }
  else if c = 'f'.toUInt8 then some { s with step := .f }
  else if c = 'n'.toUInt8 then some { s with step := .n }
  else if '1'.toUInt8 ≤ c ∧ c ≤ '9'.toUInt8 then some { s with step := .one }
  else none

def stateBeginValueOrEmpty (s : Scanner) (c : UInt8) : Option Scanner :=
  if isSpace c then some s else if c = ']'.toUInt8 then stateEndValue s c else stateBeginValue s c

def stateBeginString (s : Scanner) (c : UInt8) : Option Scanner :=
  if isSpace c then some s else if c = '"'.toUInt8 then some { s with step := .inString } else none

def stateBeginStringOrEmpty (s : Scanner) (c : UInt8) : Option Scanner :=
  if isSpace c then some s
  else if c = '}'.toUInt8 then stateEndValue { s with parseState := .ObjectValue :: s.parseState.tail } c
  else stateBeginString s c

def stateInString (s : Scanner) (c : UInt8) : Option Scanner :=
  if c = '"'.toUInt8 then some { s with step := .endValue }
  else if c = '\\'.toUInt8 then some { s with step := .inStringEsc }
  else if c < 0x20 then none
  else some s

def stateInStringEsc (s : Scanner) (c : UInt8) : Option Scanner :=
  if c = 'b'.toUInt8 ∨ c = 'f'.toUInt8 ∨ c = 'n'.toUInt8 ∨ c = 'r'.toUInt8 ∨ c = 't'.toUInt8 ∨
      c = '\\'.toUInt8 ∨ c = '/'.toUInt8 ∨ c = '"'.toUInt8 then some { s with step := .inString }
  else if c = 'u'.toUInt8 then some { s with step := .inStringEscU }
  else none

/-- The four states after `\u`, each waiting for a hex digit. -/
def stateHex (next : State) (s : Scanner) (c : UInt8) : Option Scanner :=
  if '0'.toUInt8 ≤ c ∧ c ≤ '9'.toUInt8 ∨ 'a'.toUInt8 ≤ c ∧ c ≤ 'f'.toUInt8 ∨ 'A'.toUInt8 ≤ c ∧ c ≤ 'F'.toUInt8 then
    some { s with step := next }
  else none

def stateInStringEscU : Scanner → UInt8 → Option Scanner := stateHex .inStringEscU1

def stateInStringEscU1 : Scanner → UInt8 → Option Scanner := stateHex .inStringEscU12

def stateInStringEscU12 : Scanner → UInt8 → Option Scanner := stateHex .inStringEscU123

def stateInStringEscU123 : Scanner → UInt8 → Option Scanner := stateHex .inString

def stateNeg (s : Scanner) (c : UInt8) : Option Scanner :=
  if c = '0'.toUInt8 then some { s with step := .zero }
  else if '1'.toUInt8 ≤ c ∧ c ≤ '9'.toUInt8 then some { s with step := .one }
  else none

def state0 (s : Scanner) (c : UInt8) : Option Scanner :=
  if c = '.'.toUInt8 then some { s with step := .dot }
  else if c = 'e'.toUInt8 ∨ c = 'E'.toUInt8 then some { s with step := .e }
  else stateEndValue s c

def state1 (s : Scanner) (c : UInt8) : Option Scanner :=
  if isDigit c then some { s with step := .one } else state0 s c

def stateDot (s : Scanner) (c : UInt8) : Option Scanner :=
  if isDigit c then some { s with step := .dot0 } else none

def stateDot0 (s : Scanner) (c : UInt8) : Option Scanner :=
  if isDigit c then some s
  else if c = 'e'.toUInt8 ∨ c = 'E'.toUInt8 then some { s with step := .e }
  else stateEndValue s c

def stateESign (s : Scanner) (c : UInt8) : Option Scanner :=
  if isDigit c then some { s with step := .e0 } else none

def stateE (s : Scanner) (c : UInt8) : Option Scanner :=
  if c = '+'.toUInt8 ∨ c = '-'.toUInt8 then some { s with step := .eSign } else stateESign s c

def stateE0 (s : Scanner) (c : UInt8) : Option Scanner :=
  if isDigit c then some s else stateEndValue s c

/-- The states inside `true`, `false` and `null`, each waiting for one letter. -/
def stateLetter (x : Char) (next : State) (s : Scanner) (c : UInt8) : Option Scanner :=
  if c = x.toUInt8 then some { s with step := next } else none

def stateT : Scanner → UInt8 → Option Scanner := stateLetter 'r' .tr

def stateTr : Scanner → UInt8 → Option Scanner := stateLetter 'u' .tru

def stateTru : Scanner → UInt8 → Option Scanner := stateLetter 'e' .endValue

def stateF : Scanner → UInt8 → Option Scanner := stateLetter 'a' .fa

def stateFa : Scanner → UInt8 → Option Scanner := stateLetter 'l' .fal

def stateFal : Scanner → UInt8 → Option Scanner := stateLetter 's' .fals

def stateFals : Scanner → UInt8 → Option Scanner := stateLetter 'e' .endValue

def stateN : Scanner → UInt8 → Option Scanner := stateLetter 'u' .nu

def stateNu : Scanner → UInt8 → Option Scanner := stateLetter 'l' .nul

def stateNul : Scanner → UInt8 → Option Scanner := stateLetter 'l' .endValue

/-- `s.step(s, c)` -/
def Scanner.scan (s : Scanner) (c : UInt8) : Option Scanner :=
  match s.step with
  | .beginValueOrEmpty => stateBeginValueOrEmpty s c
  | .beginValue => stateBeginValue s c
  | .beginStringOrEmpty => stateBeginStringOrEmpty s c
  | .beginString => stateBeginString s c
  | .endValue => stateEndValue s c
  | .endTop => stateEndTop s c
  | .inString => stateInString s c
  | .inStringEsc => stateInStringEsc s c
  | .inStringEscU => stateInStringEscU s c
  | .inStringEscU1 => stateInStringEscU1 s c
  | .inStringEscU12 => stateInStringEscU12 s c
  | .inStringEscU123 => stateInStringEscU123 s c
  | .neg => stateNeg s c
  | .one => state1 s c
  | .zero => state0 s c
  | .dot => stateDot s c
  | .dot0 => stateDot0 s c
  | .e => stateE s c
  | .eSign => stateESign s c
  | .e0 => stateE0 s c
  | .t => stateT s c
  | .tr => stateTr s c
  | .tru => stateTru s c
  | .f => stateF s c
  | .fa => stateFa s c
  | .fal => stateFal s c
  | .fals => stateFals s c
  | .n => stateN s c
  | .nu => stateNu s c
  | .nul => stateNul s c

def Scanner.reset : Scanner := ⟨.beginValue, [], false⟩

/-- The loop of `checkValid`: the scanner after each byte of `data`, `none` at the first
`scanError`. -/
def Scanner.run (s : Scanner) : Bytes → Option Scanner
  | [] => some s
  | c :: data => (s.scan c).bind (·.run data)

/-- `s.eof()` returns `scanEnd`: the value has ended, or a space would end it. -/
def Scanner.eof (s : Scanner) : Bool :=
  s.endTop || match s.scan ' '.toUInt8 with
    | some s' => s'.endTop
    | none => false

/-- Whether `checkValid(data, scan)` returns nil. -/
def checkValid (data : Bytes) : Bool :=
  match Scanner.reset.run data with
  | some s => s.eof
  | none => false

/-! ## Runs -/

theorem Scanner.run_append (s : Scanner) (u v : Bytes) : s.run (u ++ v) = (s.run u).bind (·.run v) := by
  induction u generalizing s with
  | nil => rfl
  | cons c u ih =>
    simp only [List.cons_append, Scanner.run]
    cases s.scan c <;> simp [ih]

section InString

variable {ps : List ParseState} {e : Bool}

/-- Inside a string, bytes that close nothing, escape nothing and are no control byte leave
the scanner where it is. -/
theorem run_inString_plain (bs : Bytes) (h : ∀ c ∈ bs, c ≠ '"'.toUInt8 ∧ c ≠ '\\'.toUInt8 ∧ ¬c < 0x20) :
    Scanner.run ⟨.inString, ps, e⟩ bs = some ⟨.inString, ps, e⟩ := by
  induction bs with
  | nil => rfl
  | cons c bs ih =>
    obtain ⟨h1, h2, h3⟩ := h c (List.mem_cons_self _ _)
    simp only [Scanner.run, Scanner.scan, stateInString, if_neg h1, if_neg h2, if_neg h3, Option.some_bind]
    exact ih fun c hc => h c (List.mem_cons_of_mem _ hc)

theorem hex_isHex : ∀ k < 16, '0'.toUInt8 ≤ hex.getD k 0 ∧ hex.getD k 0 ≤ '9'.toUInt8 ∨
    'a'.toUInt8 ≤ hex.getD k 0 ∧ hex.getD k 0 ≤ 'f'.toUInt8 ∨ 'A'.toUInt8 ≤ hex.getD k 0 ∧ hex.getD k 0 ≤ 'F'.toUInt8 := by
  decide

theorem stateHex_hex (next : State) (s : Scanner) {k : Nat} (hk : k < 16) :
    stateHex next s (hex.getD k 0) = some { s with step := next } :=
  if_pos (hex_isHex k hk)

/-- The scanner reads every unit `appendString` writes as part of the string. -/
theorem run_unit {p0 : UInt8} {p u : Bytes} (hu : IsUnit p0 p u) :
    Scanner.run ⟨.inString, ps, e⟩ u = some ⟨.inString, ps, e⟩ := by
  cases hu with
  | safe _ hs =>
    obtain ⟨h1, h2, h3⟩ := htmlSafe_spec hs
    exact run_inString_plain _ fun c hc => by
      rw [List.mem_singleton] at hc
      exact hc ▸ ⟨h2, h1, h3⟩
  | escape h0 _ =>
    rcases escapeASCII_cases p0 with ⟨x, hx, h⟩ | h <;> rw [h]
    · simp only [List.mem_cons, List.mem_nil_iff, or_false] at hx
      rcases hx with rfl | rfl | rfl | rfl | rfl | rfl | rfl <;> rfl
    have h0' : p0.toNat < 128 := h0
    show (stateHex .inStringEscU123 ⟨.inStringEscU12, ps, e⟩ (hex.getD (p0.toNat / 16) 0)).bind
      (·.run [hex.getD (p0.toNat % 16) 0]) = _
    rw [stateHex_hex _ _ (by omega), Option.some_bind]
    show (stateHex .inString ⟨.inStringEscU123, ps, e⟩ (hex.getD (p0.toNat % 16) 0)).bind (·.run []) = _
    rw [stateHex_hex _ _ (by omega)]
    rfl
  | invalid _ => rfl
  | separator _ h28 => rcases h28 with h | h <;> rw [h] <;> rfl
  | rune hm _ =>
    refine run_inString_plain _ fun c hc => ?_
    have hc := hm.high c hc
    have hne : ∀ x : UInt8, x.toNat < 0x80 → c ≠ x := fun x hx h => by subst h; omega
    exact ⟨hne _ (by decide), hne _ (by decide), by simp only [byte_lt_iff, toNat_ofNat_byte]; omega⟩

/-- Inside a string the scanner reads all that `appendString` writes and stays inside it. -/
theorem run_stringBody (b : Bytes) : Scanner.run ⟨.inString, ps, e⟩ (stringBody b) = some ⟨.inString, ps, e⟩ := by
  induction b using coerceUTF8.induct with
  | case1 => rw [stringBody]; rfl
  | case2 p0 p ih =>
    obtain ⟨u, hu, hs⟩ := stringBody_cons p0 p
    rw [hs, Scanner.run_append, run_unit hu, Option.some_bind, ih]

end InString

/-- **The scanner accepts what `json.Marshal` writes for a string.** -/
theorem checkValid_Marshal (b : Bytes) : checkValid (Marshal b) = true := by
  have h : Marshal b = ['"'.toUInt8] ++ stringBody b ++ ['"'.toUInt8] := rfl
  rw [checkValid, h, Scanner.run_append, Scanner.run_append]
  simp only [Scanner.reset]
  rw [show Scanner.run ⟨.beginValue, [], false⟩ ['"'.toUInt8] = some ⟨.inString, [], false⟩ from rfl, Option.some_bind,
    run_stringBody, Option.some_bind]
  rfl

/-! ## Numbers and `null` -/

/-- Digits keep a number going. -/
theorem run_one_digits (ps : List ParseState) (e : Bool) (ds : Bytes) (h : ∀ c ∈ ds, isDigit c) :
    Scanner.run ⟨.one, ps, e⟩ ds = some ⟨.one, ps, e⟩ := by
  induction ds with
  | nil => rfl
  | cons c ds ih =>
    simp only [Scanner.run, Scanner.scan, state1, h c (List.mem_cons_self _ _), if_true, Option.some_bind]
    exact ih fun c hc => h c (List.mem_cons_of_mem _ hc)

end GoSharding
