import MetricScope.Text.Digit

/-!
# Keys and strings

The four kinds of strings, bare keys, and what may stand between values. Every
reader takes what it needs from the front of the text and returns the rest.
-/

set_option autoImplicit false

namespace MetricScope.Toml

abbrev Reader (α : Type) := List Char → Option (α × List Char)

def isBlank (c : Char) : Bool := c == ' ' || c == '\t'

def skipBlanks (text : List Char) : List Char := text.dropWhile isBlank

def isAllowed (c : Char) : Bool :=
  c == '\t' || (0x20 ≤ c.toNat && c.toNat != 0x7F)

def lineEnd? : List Char → Option (List Char)
  | [] => some []
  | '\n' :: rest => some rest
  | '\r' :: '\n' :: rest => some rest
  | _ => none

def skipComment : List Char → Option (List Char)
  | [] => some []
  | '\n' :: rest => some ('\n' :: rest)
  | '\r' :: '\n' :: rest => some ('\r' :: '\n' :: rest)
  | c :: rest => if isAllowed c then skipComment rest else none

def endOfLine (text : List Char) : Option (List Char) :=
  match skipBlanks text with
  | '#' :: rest =>
    match skipComment rest with
    | some rest => lineEnd? rest
    | none => none
  | rest => lineEnd? rest

def skipTrivia : (comment : Bool) → List Char → Option (List Char)
  | _, [] => some []
  | _, '\n' :: rest => skipTrivia false rest
  | _, '\r' :: '\n' :: rest => skipTrivia false rest
  | true, c :: rest => if isAllowed c then skipTrivia true rest else none
  | false, c :: rest =>
      if isBlank c then skipTrivia false rest
      else if c == '#' then skipTrivia true rest
      else some (c :: rest)

def simpleEscape? (c : Char) : Option Char :=
  match c with
  | 'b' => some '\x08'
  | 't' => some '\t'
  | 'n' => some '\n'
  | 'f' => some '\x0c'
  | 'r' => some '\r'
  | '"' => some '"'
  | '\\' => some '\\'
  | _ => none

inductive StringPhase where
  /-- So many quotes in a row have been read; only strings over several lines count. -/
  | plain (quotes : Nat)
  | escape
  /-- `more` digits of a code point are missing. -/
  | code (more value : Nat)
  /-- After a backslash at the end of a line; `broken` once the line end was seen. -/
  | joining (broken : Bool)
  deriving DecidableEq, Repr

def quotes (n : Nat) : List Char := List.replicate n '"'

def basicFrom : StringPhase → (read : List Char) → Reader String
  | _, _, [] => none
  | .plain _, read, c :: rest =>
      if c == '"' then some (String.ofList read.reverse, rest)
      else if c == '\\' then basicFrom .escape read rest
      else if isAllowed c then basicFrom (.plain 0) (c :: read) rest
      else none
  | .escape, read, c :: rest =>
      if c == 'u' then basicFrom (.code 4 0) read rest
      else if c == 'U' then basicFrom (.code 8 0) read rest
      else
        match simpleEscape? c with
        | some d => basicFrom (.plain 0) (d :: read) rest
        | none => none
  | .code more value, read, c :: rest =>
    match Text.digit? 16 c with
    | none => none
    | some digit =>
      let value := value * 16 + digit
      if more ≤ 1 then
        match Text.character? value with
        | some d => basicFrom (.plain 0) (d :: read) rest
        | none => none
      else basicFrom (.code (more - 1) value) read rest
  | .joining _, _, _ => none

/-- A string over several lines, after its opening quotes. Up to two quotes may stand
in it, also in front of the three that close it; line ends become line feeds. -/
def multilineFrom : StringPhase → (read : List Char) → Reader String
  | .plain n, read, [] =>
      if 3 ≤ n && n ≤ 5 then some (String.ofList (quotes (n - 3) ++ read).reverse, [])
      else none
  | _, _, [] => none
  | .plain n, read, c :: rest =>
      if c == '"' then
        if n ≥ 5 then none else multilineFrom (.plain (n + 1)) read rest
      else if 3 ≤ n then
        some (String.ofList (quotes (n - 3) ++ read).reverse, c :: rest)
      else
        let read := quotes n ++ read
        if c == '\\' then multilineFrom .escape read rest
        else if c == '\n' then multilineFrom (.plain 0) ('\n' :: read) rest
        else if c == '\r' then
          match rest with
          | '\n' :: rest => multilineFrom (.plain 0) ('\n' :: read) rest
          | _ => none
        else if isAllowed c then multilineFrom (.plain 0) (c :: read) rest
        else none
  | .escape, read, c :: rest =>
      if c == 'u' then multilineFrom (.code 4 0) read rest
      else if c == 'U' then multilineFrom (.code 8 0) read rest
      else if isBlank c then multilineFrom (.joining false) read rest
      else if c == '\n' then multilineFrom (.joining true) read rest
      else if c == '\r' then
        match rest with
        | '\n' :: rest => multilineFrom (.joining true) read rest
        | _ => none
      else
        match simpleEscape? c with
        | some d => multilineFrom (.plain 0) (d :: read) rest
        | none => none
  | .code more value, read, c :: rest =>
    match Text.digit? 16 c with
    | none => none
    | some digit =>
      let value := value * 16 + digit
      if more ≤ 1 then
        match Text.character? value with
        | some d => multilineFrom (.plain 0) (d :: read) rest
        | none => none
      else multilineFrom (.code (more - 1) value) read rest
  | .joining broken, read, c :: rest =>
      if isBlank c then multilineFrom (.joining broken) read rest
      else if c == '\n' then multilineFrom (.joining true) read rest
      else if c == '\r' then
        match rest with
        | '\n' :: rest => multilineFrom (.joining true) read rest
        | _ => none
      else if !broken then none
      else if c == '"' then multilineFrom (.plain 1) read rest
      else if c == '\\' then multilineFrom .escape read rest
      else if isAllowed c then multilineFrom (.plain 0) (c :: read) rest
      else none

def literalFrom : (read : List Char) → Reader String
  | _, [] => none
  | read, c :: rest =>
      if c == '\'' then some (String.ofList read.reverse, rest)
      else if isAllowed c then literalFrom (c :: read) rest
      else none

def apostrophes (n : Nat) : List Char := List.replicate n '\''

def multilineLiteralFrom : (n : Nat) → (read : List Char) → Reader String
  | n, read, [] =>
      if 3 ≤ n && n ≤ 5 then some (String.ofList (apostrophes (n - 3) ++ read).reverse, [])
      else none
  | n, read, c :: rest =>
      if c == '\'' then
        if n ≥ 5 then none else multilineLiteralFrom (n + 1) read rest
      else if 3 ≤ n then
        some (String.ofList (apostrophes (n - 3) ++ read).reverse, c :: rest)
      else
        let read := apostrophes n ++ read
        if c == '\n' then multilineLiteralFrom 0 ('\n' :: read) rest
        else if c == '\r' then
          match rest with
          | '\n' :: rest => multilineLiteralFrom 0 ('\n' :: read) rest
          | _ => none
        else if isAllowed c then multilineLiteralFrom 0 (c :: read) rest
        else none

def dropFirstLineEnd : List Char → List Char
  | '\n' :: rest => rest
  | '\r' :: '\n' :: rest => rest
  | text => text

def readString : Reader String
  | '"' :: '"' :: '"' :: rest => multilineFrom (.plain 0) [] (dropFirstLineEnd rest)
  | '"' :: rest => basicFrom (.plain 0) [] rest
  | '\'' :: '\'' :: '\'' :: rest => multilineLiteralFrom 0 [] (dropFirstLineEnd rest)
  | '\'' :: rest => literalFrom [] rest
  | _ => none

def isBareKeyChar (c : Char) : Bool :=
  c.isAlphanum || c == '_' || c == '-'

def readKeyPart : Reader String
  | '"' :: rest => basicFrom (.plain 0) [] rest
  | '\'' :: rest => literalFrom [] rest
  | text =>
    let bare := text.takeWhile isBareKeyChar
    if bare.isEmpty then none
    else some (String.ofList bare, text.dropWhile isBareKeyChar)

end MetricScope.Toml
