import MetricScope.Text.Digit

/-!
# JSON tokens

The text is read one character at a time. White space between tokens is dropped,
numbers have no leading zeros, and strings hold no raw control characters.
-/

set_option autoImplicit false

namespace MetricScope.Json

inductive Token where
  | openBrace | closeBrace
  | openBracket | closeBracket
  | colon | comma
  | null
  | bool (b : Bool)
  | number
  | string (text : Option String)
  deriving DecidableEq, Repr

inductive NumberPhase where
  | minus | zero | digits | point | fraction | exponent | exponentSign | exponentDigits
  deriving DecidableEq, Repr

namespace NumberPhase

def isExponentMark (c : Char) : Bool := c == 'e' || c == 'E'

def step : NumberPhase → Char → Option NumberPhase
  | minus, c => if c == '0' then some zero else if c.isDigit then some digits else none
  | zero, c => if c == '.' then some point else if isExponentMark c then some exponent else none
  | digits, c =>
      if c.isDigit then some digits
      else if c == '.' then some point
      else if isExponentMark c then some exponent
      else none
  | point, c => if c.isDigit then some fraction else none
  | fraction, c =>
      if c.isDigit then some fraction
      else if isExponentMark c then some exponent
      else none
  | exponent, c =>
      if c == '+' || c == '-' then some exponentSign
      else if c.isDigit then some exponentDigits
      else none
  | exponentSign, c => if c.isDigit then some exponentDigits else none
  | exponentDigits, c => if c.isDigit then some exponentDigits else none

def complete : NumberPhase → Bool
  | zero | digits | fraction | exponentDigits => true
  | _ => false

end NumberPhase

/-- The content of a string as far as read, in reverse: the first half of a surrogate
pair that waits for the second one, and whether all halves so far had a partner. -/
structure StringContent where
  read : List Char
  high : Option Nat
  paired : Bool
  deriving DecidableEq, Repr

namespace StringContent

def empty : StringContent := ⟨[], none, true⟩

def push (s : StringContent) (c : Char) : StringContent :=
  ⟨c :: s.read, none, s.paired && s.high.isNone⟩

def pushUnit (s : StringContent) (n : Nat) : StringContent :=
  if 0xD800 ≤ n && n < 0xDC00 then ⟨s.read, some n, s.paired && s.high.isNone⟩
  else if 0xDC00 ≤ n && n < 0xE000 then
    match s.high with
    | some high =>
      ⟨Char.ofNat (0x10000 + (high - 0xD800) * 0x400 + (n - 0xDC00)) :: s.read, none, s.paired⟩
    | none => ⟨s.read, none, false⟩
  else s.push (Char.ofNat n)

def text (s : StringContent) : Option String :=
  if s.paired && s.high.isNone then some (String.ofList s.read.reverse) else none

end StringContent

inductive Activity where
  | idle
  | word (read : List Char)
  | number (phase : NumberPhase)
  | string (content : StringContent)
  | escape (content : StringContent)
  /-- `more` digits are missing from a unit. -/
  | unit (content : StringContent) (more value : Nat)
  deriving DecidableEq, Repr

namespace Activity

def isBlank (c : Char) : Bool :=
  c == ' ' || c == '\n' || c == '\t' || c == '\r'

def wordToken? (read : List Char) : Option Token :=
  match String.ofList read.reverse with
  | "null" => some .null
  | "true" => some (.bool true)
  | "false" => some (.bool false)
  | _ => none

def simpleEscape? (c : Char) : Option Char :=
  match c with
  | '"' => some '"'
  | '\\' => some '\\'
  | '/' => some '/'
  | 'b' => some '\x08'
  | 'f' => some '\x0c'
  | 'n' => some '\n'
  | 'r' => some '\r'
  | 't' => some '\t'
  | _ => none

abbrev Step := Option (List Token × Activity)

def start (c : Char) : Step :=
  match c with
  | '\x7b' => some ([.openBrace], idle)
  | '\x7d' => some ([.closeBrace], idle)
  | '[' => some ([.openBracket], idle)
  | ']' => some ([.closeBracket], idle)
  | ':' => some ([.colon], idle)
  | ',' => some ([.comma], idle)
  | '"' => some ([], string .empty)
  | '-' => some ([], number .minus)
  | '0' => some ([], number .zero)
  | c =>
    if isBlank c then some ([], idle)
    else if c.isDigit then some ([], number .digits)
    else if c.isAlpha then some ([], word [c])
    else none

def emitThen (token : Token) (c : Char) : Step :=
  (start c).map fun (tokens, next) => (token :: tokens, next)

def step : Activity → Char → Step
  | idle, c => start c
  | word read, c =>
      if c.isAlpha then some ([], word (c :: read))
      else
        match wordToken? read with
        | some token => emitThen token c
        | none => none
  | number phase, c =>
    match phase.step c with
    | some next => some ([], number next)
    | none => if phase.complete then emitThen .number c else none
  | string content, c =>
      if c == '"' then some ([.string content.text], idle)
      else if c == '\\' then some ([], escape content)
      else if c.toNat < 0x20 then none
      else some ([], string (content.push c))
  | escape content, c =>
      if c == 'u' then some ([], unit content 4 0)
      else
        match simpleEscape? c with
        | some d => some ([], string (content.push d))
        | none => none
  | unit content more value, c =>
    match Text.digit? 16 c with
    | none => none
    | some digit =>
      let value := value * 16 + digit
      if more ≤ 1 then some ([], string (content.pushUnit value))
      else some ([], unit content (more - 1) value)

def finish : Activity → Option (List Token)
  | idle => some []
  | word read => (wordToken? read).map fun token => [token]
  | number phase => if phase.complete then some [.number] else none
  | string _ | escape _ | unit _ _ _ => none

def run : Activity → List Char → Option (List Token)
  | a, [] => a.finish
  | a, c :: rest =>
    match a.step c with
    | none => none
    | some (tokens, next) => (run next rest).map (tokens ++ ·)

end Activity

def tokenize (text : String) : Option (List Token) :=
  Activity.idle.run text.toList

end MetricScope.Json
