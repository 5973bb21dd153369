import MetricScope.PromQL.Duration
import MetricScope.PromQL.Error
import MetricScope.Text.Digit

/-!
# The values of literals

Numbers, durations and strings, from the text of their tokens.
-/

set_option autoImplicit false

namespace MetricScope.PromQL.Literal

def integer? (base : Nat) (digits : List Char) : Option Binary64 :=
  if digits.isEmpty then none
  else
    match Text.natural? base digits with
    | some n => if n < Nat.pow 2 63 then some (Binary64.ofNat n) else none
    | none => none

/-- Tells whether a number is written in octal: a zero in front of more digits, none
of which is an eight or nine, and no point. -/
def isOctal (text : List Char) : Bool :=
  text.head? == some '0' && text != ['0'] &&
    !text.any fun c => c == '.' || c == '8' || c == '9'

def number (text : String) : Except (Halt ParseError) Binary64 :=
  let lower := text.toList.map Char.toLower
  if lower.contains 'x' then
    match integer? 16 (lower.drop 2) with
    | some x => .ok x
    | none => .error (.failed (.unreadableInteger text))
  else if isOctal lower then
    match integer? 8 (lower.drop 1) with
    | some x => .ok x
    | none => .error (.failed (.unreadableInteger text))
  else
    match Binary64.read? lower with
    | some x => .ok x
    | none => .error (.failed (.unreadableNumber text))

def duration (text : String) : Except (Halt ParseError) Duration :=
  match Duration.ofLiteral text.toList with
  | some d => if d.nanoseconds = 0 then .error (.failed .zeroDuration) else .ok d
  | none => .error (.failed (.unreadableDuration text))

/-- A number of seconds in the place of a duration. The reading crashes on one that no
duration can hold. -/
def secondsDuration (text : String) : Except (Halt ParseError) Duration :=
  match number text with
  | .error cause => .error cause
  | .ok x =>
    match Duration.ofNumber x with
    | some d => .ok d
    | none => .error .crashed

def durationSeconds (text : String) : Except (Halt ParseError) Binary64 :=
  match duration text with
  | .ok d => .ok d.seconds
  | .error cause => .error cause

def simpleEscape? (quote c : Char) : Option Char :=
  match c with
  | 'a' => some '\x07'
  | 'b' => some '\x08'
  | 'f' => some '\x0c'
  | 'n' => some '\n'
  | 'r' => some '\r'
  | 't' => some '\t'
  | 'v' => some '\x0b'
  | '\\' => some '\\'
  | c => if c = quote then some c else none

inductive Unquoting where
  | plain
  | backslash
  /-- `more` digits are missing from a number in `base`. -/
  | code (base more value : Nat)
  deriving DecidableEq, Repr

def startCode (c : Char) : Option Unquoting :=
  match c with
  | 'x' => some (.code 16 2 0)
  | 'u' => some (.code 16 4 0)
  | 'U' => some (.code 16 8 0)
  | c => (Text.digit? 8 c).map fun digit => .code 8 2 digit

def codeLimit (base : Nat) : Nat :=
  if base = 8 then 255 else 0x10FFFF

def unquoteFrom (quote : Char) : Unquoting → List Char → Option (List Char)
  | .plain, [] => some []
  | _, [] => none
  | .plain, c :: rest =>
      if c == '\n' then none
      else if c == '\\' then unquoteFrom quote .backslash rest
      else (unquoteFrom quote .plain rest).map (c :: ·)
  | .backslash, c :: rest =>
      match simpleEscape? quote c with
      | some d => (unquoteFrom quote .plain rest).map (d :: ·)
      | none =>
        match startCode c with
        | some state => unquoteFrom quote state rest
        | none => none
  | .code base more value, c :: rest =>
      match Text.digit? base c with
      | none => none
      | some digit =>
        let value := value * base + digit
        if more ≤ 1 then
          if value ≤ codeLimit base then
            match Text.character? value with
            | some d => (unquoteFrom quote .plain rest).map (d :: ·)
            | none => none
          else none
        else unquoteFrom quote (.code base (more - 1) value) rest

def unquote (quote : Char) (body : String) : Except (Halt ParseError) String :=
  if quote = '\x60' then .ok body
  else
    match unquoteFrom quote .plain body.toList with
    | some text => .ok (String.ofList text)
    | none => .error (.failed .unreadableString)

end MetricScope.PromQL.Literal
