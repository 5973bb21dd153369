import MetricScope.PromQL.Error
import MetricScope.Text.Digit

/-!
# From characters to tokens

The text is read one character at a time. The state says in which region of the
text the character stands, since braces and brackets have alphabets of their
own, and which lexeme is being read. A lexeme ends at the first character that
cannot continue it; that character is then read as the start of what follows.
-/

set_option autoImplicit false

namespace MetricScope.PromQL

namespace Lexer

def isBlank (c : Char) : Bool :=
  c == ' ' || c == '\t' || c == '\n' || c == '\x0c' || c == '\r'

def isAlpha (c : Char) : Bool :=
  c == '_' || c.isAlpha

def isAlphanumeric (c : Char) : Bool :=
  isAlpha c || c.isDigit

def isQuote (c : Char) : Bool :=
  c == '"' || c == '\'' || c == '\x60'

def startsUnit (c : Char) : Bool :=
  c == 's' || c == 'm' || c == 'h' || c == 'd' || c == 'w'

def isEscape (c : Char) : Bool :=
  ['a', 'b', 'f', 'n', 'r', 't', 'v', '\\', '0', '1', '2', '3', '4', '5', '6', '7',
    'x', 'u', 'U'].contains c

inductive NumberPhase where
  | zero | digits | hexDigits | fraction | hexFraction | exponentStart | exponent
  /-- The first letter of a unit was read, an `s` may complete it. -/
  | unit
  | unitEnd
  /-- Digits after a unit, which need a unit of their own. -/
  | count
  deriving DecidableEq, Repr

inductive NumberStep where
  | extend (phase : NumberPhase)
  | endNumber
  | endDuration
  | fail
  deriving DecidableEq, Repr

/-- A number ends at `c` unless a letter or point follows; only the start of a
unit can continue it then. -/
def afterNumber (c : Char) : NumberStep :=
  if isAlpha c || c == '.' then
    if startsUnit c || c == 'y' then .extend .unit else .fail
  else .endNumber

def afterUnit (c : Char) : NumberStep :=
  if c.isDigit then .extend .count
  else if isAlpha c then .fail
  else .endDuration

def NumberPhase.step : NumberPhase → Char → NumberStep
  | zero, c =>
      if c == 'x' || c == 'X' then .extend hexDigits
      else if c.isDigit then .extend digits
      else if c == '.' then .extend fraction
      else if c == 'e' || c == 'E' then .extend exponentStart
      else afterNumber c
  | digits, c =>
      if c.isDigit then .extend digits
      else if c == '.' then .extend fraction
      else if c == 'e' || c == 'E' then .extend exponentStart
      else afterNumber c
  | hexDigits, c =>
      if Text.isDigit 16 c then .extend hexDigits
      else if c == '.' then .extend hexFraction
      else afterNumber c
  | fraction, c =>
      if c.isDigit then .extend fraction
      else if c == 'e' || c == 'E' then .extend exponentStart
      else afterNumber c
  | hexFraction, c =>
      if Text.isDigit 16 c then .extend hexFraction else afterNumber c
  | exponentStart, c =>
      if c == '+' || c == '-' || c.isDigit then .extend exponent else afterNumber c
  | exponent, c =>
      if c.isDigit then .extend exponent else afterNumber c
  | unit, c => if c == 's' then .extend unitEnd else afterUnit c
  | unitEnd, c => afterUnit c
  | count, c =>
      if c.isDigit then .extend count
      else if startsUnit c then .extend unit
      else .fail

inductive Region where
  | outside
  | braces
  /-- `fresh` right after the opening bracket, `colon` once a colon was read. -/
  | brackets (fresh colon : Bool)
  deriving DecidableEq, Repr

/-- The lexeme being read, its characters in reverse. -/
inductive Activity where
  | idle
  | comment
  | word (read : List Char)
  | number (phase : NumberPhase) (read : List Char)
  | string (quote : Char) (read : List Char)
  | escape (quote : Char) (read : List Char)
  | equals | bang | less | greater | dot
  deriving DecidableEq, Repr

end Lexer

open Lexer in
/-- `depth` counts the parentheses that are open. -/
structure Lexer where
  depth : Nat
  region : Region
  activity : Activity
  deriving DecidableEq, Repr

namespace Lexer

def initial : Lexer := ⟨0, .outside, .idle⟩

def lexeme (read : List Char) : String :=
  String.ofList read.reverse

def wordToken (text : String) : Token :=
  let lower := String.ofList (text.toList.map Char.toLower)
  if lower = "inf" || lower = "nan" then .number text
  else
    match Keyword.ofWord? lower with
    | some word => .keyword word text
    | none =>
      if text.toList.contains ':' then .metricIdentifier text else .identifier text

def isAlternative (read : List Char) : Bool :=
  read.map Char.toLower == ['r', 'o']

abbrev Step := Except LexicalError (List Token × Lexer)

def startNumber (c : Char) : Activity :=
  .number (if c == '0' then .zero else .digits) [c]

def startOutside (s : Lexer) (c : Char) : Step :=
  let next : Activity → Step := fun activity => .ok ([], { s with activity := activity })
  let emit : Token → Step := fun token => .ok ([token], { s with activity := .idle })
  match c with
  | '#' => next .comment
  | '@' => emit .at
  | ',' => emit .comma
  | '+' => emit (.operator .add)
  | '-' => emit (.operator .sub)
  | '*' => emit (.operator .mul)
  | '/' => emit (.operator .div)
  | '%' => emit (.operator .mod)
  | '^' => emit (.operator .pow)
  | '=' => next .equals
  | '!' => next .bang
  | '<' => next .less
  | '>' => next .greater
  | '.' => next .dot
  | '(' => .ok ([.openParen], { s with depth := s.depth + 1, activity := .idle })
  | ')' =>
      if s.depth = 0 then .error .strayParenthesis
      else .ok ([.closeParen], { s with depth := s.depth - 1, activity := .idle })
  | '\x7b' => .ok ([.openBrace], { s with region := .braces, activity := .idle })
  | '\x7d' => .error .strayBrace
  | '[' => .ok ([.openBracket], { s with region := .brackets true false, activity := .idle })
  | ']' => .error .strayBracket
  | c =>
      if isBlank c then next .idle
      else if c.isDigit then next (startNumber c)
      else if isAlpha c || c == ':' then next (.word [c])
      else if isQuote c then next (.string c [])
      else .error (.unexpected c)

def startInBraces (s : Lexer) (c : Char) : Step :=
  let next : Activity → Step := fun activity => .ok ([], { s with activity := activity })
  match c with
  | '#' => next .comment
  | ',' => .ok ([.comma], { s with activity := .idle })
  | '=' => next .equals
  | '!' => next .bang
  | '\x7b' => .error .braceInBraces
  | '\x7d' => .ok ([.closeBrace], { s with region := .outside, activity := .idle })
  | c =>
      if isBlank c then next .idle
      else if isAlpha c then next (.word [c])
      else if isQuote c then next (.string c [])
      else .error (.unexpectedInBraces c)

def startInBrackets (s : Lexer) (fresh colon : Bool) (c : Char) : Step :=
  match c with
  | ':' =>
      if colon then .error .secondColon
      else if fresh then .error .leadingColon
      else .ok ([.colon], { s with region := .brackets false true, activity := .idle })
  | ']' => .ok ([.closeBracket], { s with region := .outside, activity := .idle })
  | '[' => .error .bracketInBrackets
  | c =>
      let stay := Region.brackets false colon
      if isBlank c then .ok ([], { s with region := stay, activity := .idle })
      else if c.isDigit then .ok ([], { s with region := stay, activity := startNumber c })
      else .error (.unexpectedInBrackets c)

def start (s : Lexer) (c : Char) : Step :=
  match s.region with
  | .outside => s.startOutside c
  | .braces => s.startInBraces c
  | .brackets fresh colon => s.startInBrackets fresh colon c

def emitThen (s : Lexer) (token : Token) (c : Char) : Step :=
  match s.start c with
  | .ok (tokens, next) => .ok (token :: tokens, next)
  | .error cause => .error cause

def emit (s : Lexer) (token : Token) : Step :=
  .ok ([token], { s with activity := .idle })

def continueWith (s : Lexer) (activity : Activity) : Step :=
  .ok ([], { s with activity := activity })

def inWord (s : Lexer) (read : List Char) (c : Char) : Step :=
  match s.region with
  | .braces =>
    if isAlphanumeric c then s.continueWith (.word (c :: read))
    else if c == ' ' && isAlternative read then s.emit .alternative
    else s.emitThen (.identifier (lexeme read)) c
  | .outside | .brackets _ _ =>
    if isAlphanumeric c || c == ':' then s.continueWith (.word (c :: read))
    else s.emitThen (wordToken (lexeme read)) c

def inNumber (s : Lexer) (phase : NumberPhase) (read : List Char) (c : Char) : Step :=
  match phase.step c with
  | .extend next => s.continueWith (.number next (c :: read))
  | .endNumber => s.emitThen (.number (lexeme read)) c
  | .endDuration => s.emitThen (.duration (lexeme read)) c
  | .fail => .error (.badNumber (lexeme (c :: read)))

def inString (s : Lexer) (quote : Char) (read : List Char) (c : Char) : Step :=
  if c == quote then s.emit (.string quote (lexeme read))
  else if c == '\\' then s.continueWith (.escape quote (c :: read))
  else s.continueWith (.string quote (c :: read))

def inEscape (s : Lexer) (quote : Char) (read : List Char) (c : Char) : Step :=
  if c == quote || isEscape c then s.continueWith (.string quote (c :: read))
  else .error (.unknownEscape c)

def afterEquals (s : Lexer) (c : Char) : Step :=
  match s.region with
  | .braces =>
    if c == '~' then s.emit (.matching .regexMatch) else s.emitThen (.matching .equal) c
  | .outside | .brackets _ _ =>
    if c == '=' then s.emit (.operator .eq)
    else if c == '~' then .error (.unexpectedAfterEquals c)
    else s.emitThen (.matching .equal) c

def afterBang (s : Lexer) (c : Char) : Step :=
  match s.region with
  | .braces =>
    if c == '=' then s.emit (.matching .notEqual)
    else if c == '~' then s.emit (.matching .regexNotMatch)
    else .error (.unexpectedAfterBangInBraces c)
  | .outside | .brackets _ _ =>
    if c == '=' then s.emit (.operator .ne) else .error (.unexpectedAfterBang c)

def afterDot (s : Lexer) (c : Char) : Step :=
  if c.isDigit then s.continueWith (.number .fraction [c, '.'])
  else .error (.unexpectedAfterDot c)

def step (s : Lexer) (c : Char) : Step :=
  match s.activity with
  | .idle => s.start c
  | .comment => s.continueWith (if c == '\n' || c == '\r' then .idle else .comment)
  | .word read => s.inWord read c
  | .number phase read => s.inNumber phase read c
  | .string quote read => s.inString quote read c
  | .escape quote read => s.inEscape quote read c
  | .equals => s.afterEquals c
  | .bang => s.afterBang c
  | .less => if c == '=' then s.emit (.operator .le) else s.emitThen (.operator .lt) c
  | .greater => if c == '=' then s.emit (.operator .ge) else s.emitThen (.operator .gt) c
  | .dot => s.afterDot c

def finishLexeme (s : Lexer) : Except LexicalError (List Token) :=
  match s.activity with
  | .idle | .comment => .ok []
  | .word read =>
    match s.region with
    | .braces => .ok [.identifier (lexeme read)]
    | _ => .ok [wordToken (lexeme read)]
  | .number phase read =>
    match phase with
    | .unit | .unitEnd => .ok [.duration (lexeme read)]
    | .count => .error (.badNumber (lexeme read))
    | _ => .ok [.number (lexeme read)]
  | .string quote _ => .error (.openString quote)
  | .escape _ _ => .error .openEscape
  | .equals => .ok [.matching .equal]
  | .bang => .error .bangAtEnd
  | .less => .ok [.operator .lt]
  | .greater => .ok [.operator .gt]
  | .dot => .error (.unexpected '.')

def finish (s : Lexer) : Except LexicalError (List Token) :=
  match s.finishLexeme with
  | .error cause => .error cause
  | .ok tokens =>
    match s.region with
    | .braces => .error .openBraces
    | .brackets _ _ => .error .openBrackets
    | .outside => if s.depth = 0 then .ok tokens else .error .unclosedParenthesis

def run : Lexer → List Char → Except LexicalError (List Token)
  | s, [] => s.finish
  | s, c :: rest =>
      match s.step c with
      | .error cause => .error cause
      | .ok (tokens, next) =>
        match run next rest with
        | .error cause => .error cause
        | .ok more => .ok (tokens ++ more)

end Lexer

def tokenize (text : String) : Except LexicalError (List Token) :=
  Lexer.initial.run text.toList

end MetricScope.PromQL
