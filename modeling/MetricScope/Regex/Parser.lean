import MetricScope.Regex.Node
import MetricScope.Regex.Property
import MetricScope.Text.Digit

/-!
# Reading regular expressions

The pattern is read from left to right with a stack of the groups that are open.
Every reader takes what it needs from the front of the text and returns the
rest; the loops count down the length of the text, which each of their steps
shortens. A pattern that is not well formed reads as nothing.
-/

set_option autoImplicit false

namespace MetricScope.Regex

structure Flags where
  ignoreCase : Bool
  multiLine : Bool
  dotAll : Bool
  unicode : Bool
  verbose : Bool
  crlf : Bool
  deriving DecidableEq, Repr

def Flags.standard : Flags := ⟨false, false, false, true, false, false⟩

namespace Parser

abbrev Reader (α : Type) := List Char → Option (α × List Char)

def skipVerbose : (comment : Bool) → List Char → List Char
  | _, [] => []
  | true, c :: rest => skipVerbose (c != '\n') rest
  | false, c :: rest =>
      if Unicode.isWhiteSpace c then skipVerbose false rest
      else if c == '#' then skipVerbose true rest
      else c :: rest

def skip (flags : Flags) (text : List Char) : List Char :=
  if flags.verbose then skipVerbose false text else text

def isMeta (c : Char) : Bool :=
  ['\\', '.', '+', '*', '?', '(', ')', '|', '[', ']', '\x7b', '\x7d', '^', '$', '#', '&',
    '-', '~'].contains c

def isEscapable (c : Char) : Bool :=
  isMeta c || (c.toNat < 128 && !c.isAlphanum && c != '<' && c != '>')

def upTo (stop : Char) : Reader (List Char)
  | [] => none
  | c :: rest =>
      if c == stop then some ([], rest)
      else (upTo stop rest).map fun (read, rest) => (c :: read, rest)

/-- The character that a hexadecimal escape names, after its letter. Two digits name a
byte unless classes are those of Unicode, and bytes above 127 are no characters. -/
def readHex (flags : Flags) (width : Nat) (text : List Char) : Option (Char × List Char) :=
  match skip flags text with
  | '\x7b' :: rest => do
    let (body, rest) ← upTo '\x7d' rest
    let digits := if flags.verbose then body.filter fun c => !Unicode.isWhiteSpace c else body
    if digits.isEmpty then none
    let n ← Text.natural? 16 digits
    let c ← Text.character? n
    pure (c, rest)
  | text => do
    let digits := text.take width
    if digits.length < width then none
    let n ← Text.natural? 16 digits
    if width = 2 && 128 ≤ n && !flags.unicode then none
    let c ← Text.character? n
    pure (c, text.drop width)

inductive Atom where
  | literal (c : Char)
  | set (chars : CharSet)
  | assertion (condition : Assertion)
  deriving DecidableEq, Repr

def splitAt? (separator : List Char) : List Char → Option (List Char × List Char)
  | [] => none
  | c :: rest =>
      if separator.isPrefixOf (c :: rest) then
        some ([], (c :: rest).drop separator.length)
      else (splitAt? separator rest).map fun (front, back) => (c :: front, back)

def propertyClass? (negated : Bool) (text : List Char) : Option CharSet :=
  match splitAt? ['!', '='] text with
  | some (property, value) =>
    (NamedClass.ofProperty? property value).map fun c => .negateIf (!negated) (.named c)
  | none =>
    match splitAt? [':'] text with
    | some (property, value) =>
      (NamedClass.ofProperty? property value).map fun c => .negateIf negated (.named c)
    | none =>
      match splitAt? ['='] text with
      | some (property, value) =>
        (NamedClass.ofProperty? property value).map fun c => .negateIf negated (.named c)
      | none => (NamedClass.ofName? text).map fun c => .negateIf negated (.named c)

def readProperty (flags : Flags) (negated : Bool) (text : List Char) :
    Option (Atom × List Char) :=
  if !flags.unicode then none
  else
    match skip flags text with
    | '\x7b' :: rest => do
      let (name, rest) ← upTo '\x7d' rest
      let chars ← propertyClass? negated name
      pure (.set (.foldIf flags.ignoreCase chars), rest)
    | c :: rest => do
      let chars ← propertyClass? negated [c]
      pure (.set (.foldIf flags.ignoreCase chars), rest)
    | [] => none

def shorthandClass : (unicode : Bool) → Char → Option CharSet
  | true, 'd' => some (.named (.categories [.nd]))
  | true, 's' => some (.named .space)
  | true, 'w' => some (.named .word)
  | true, 'D' => some (.compl (.named (.categories [.nd])))
  | true, 'S' => some (.compl (.named .space))
  | true, 'W' => some (.compl (.named .word))
  | false, 'd' => CharSet.asciiClass? "digit"
  | false, 's' => CharSet.asciiClass? "space"
  | false, 'w' => CharSet.asciiClass? "word"
  | _, _ => none

def boundaryName? (unicode : Bool) (name : List Char) : Option Assertion :=
  match String.ofList name with
  | "start" => some (.wordStart unicode)
  | "end" => some (.wordEnd unicode)
  | "start-half" => some (.wordStartHalf unicode)
  | "end-half" => some (.wordEndHalf unicode)
  | _ => none

def isBoundaryNameChar (c : Char) : Bool :=
  c.isAlpha || c == '-'

/-- A word boundary after its letter; a name in braces may make it one-sided. Braces
that do not start with a letter are left for the repetition they may be. -/
def readBoundary (flags : Flags) (text : List Char) : Option (Atom × List Char) :=
  match text with
  | '\x7b' :: rest =>
    let body := skip flags rest
    match body with
    | [] => none
    | c :: _ =>
      if isBoundaryNameChar c then
        let name := body.takeWhile isBoundaryNameChar
        match skip flags (body.dropWhile isBoundaryNameChar) with
        | '\x7d' :: rest => (boundaryName? flags.unicode name).map fun a => (.assertion a, rest)
        | _ => none
      else some (.assertion (.wordBoundary flags.unicode), text)
  | text => some (.assertion (.wordBoundary flags.unicode), text)

def readEscape (flags : Flags) : Reader Atom
  | [] => none
  | c :: rest =>
    if isMeta c then some (.literal c, rest)
    else
      match c with
      | 'x' => (readHex flags 2 rest).map fun (c, rest) => (.literal c, rest)
      | 'u' => (readHex flags 4 rest).map fun (c, rest) => (.literal c, rest)
      | 'U' => (readHex flags 8 rest).map fun (c, rest) => (.literal c, rest)
      | 'p' => readProperty flags false rest
      | 'P' => readProperty flags true rest
      | 'd' | 's' | 'w' | 'D' | 'S' | 'W' =>
          (shorthandClass flags.unicode c).map fun chars => (.set chars, rest)
      | 'a' => some (.literal '\x07', rest)
      | 'f' => some (.literal '\x0C', rest)
      | 't' => some (.literal '\t', rest)
      | 'n' => some (.literal '\n', rest)
      | 'r' => some (.literal '\r', rest)
      | 'v' => some (.literal '\x0B', rest)
      | 'A' => some (.assertion .textStart, rest)
      | 'z' => some (.assertion .textEnd, rest)
      | 'b' => readBoundary flags rest
      | 'B' => some (.assertion (.notWordBoundary flags.unicode), rest)
      | '<' => some (.assertion (.wordStart flags.unicode), rest)
      | '>' => some (.assertion (.wordEnd flags.unicode), rest)
      | c => if isEscapable c then some (.literal c, rest) else none

def dotSet (flags : Flags) : CharSet :=
  if flags.dotAll then .named .any
  else if flags.crlf then .compl (.ofRanges [('\n', '\n'), ('\r', '\r')])
  else .compl (.single '\n')

def startAssertion (flags : Flags) : Assertion :=
  if flags.multiLine then .lineStart flags.crlf else .textStart

def endAssertion (flags : Flags) : Assertion :=
  if flags.multiLine then .lineEnd flags.crlf else .textEnd

inductive SetOperator where
  | inter | diff | symmDiff
  deriving DecidableEq, Repr

/-- A bracketed class that is being read: whether it is negated, the operand and
operator to the left of the union that is being collected, and that union. -/
structure OpenClass where
  negated : Bool
  pending : Option (CharSet × SetOperator)
  members : CharSet

def combineSets : SetOperator → CharSet → CharSet → CharSet
  | .inter, a, b => .inter a b
  | .diff, a, b => .diff a b
  | .symmDiff, a, b => .symmDiff a b

namespace OpenClass

def add (c : OpenClass) (chars : CharSet) : OpenClass :=
  { c with members := .union c.members chars }

def value (flags : Flags) (c : OpenClass) : CharSet :=
  match c.pending with
  | none => c.members
  | some (left, op) =>
    combineSets op (.foldIf flags.ignoreCase left) (.foldIf flags.ignoreCase c.members)

def applyOperator (flags : Flags) (c : OpenClass) (op : SetOperator) : OpenClass :=
  { c with pending := some (c.value flags, op), members := .empty }

def close (flags : Flags) (c : OpenClass) : CharSet :=
  .negateIf c.negated (.foldIf flags.ignoreCase (c.value flags))

end OpenClass

def leadingHyphens (flags : Flags) : List Char → List Char × List Char
  | '-' :: rest =>
      let (hyphens, rest) := leadingHyphens flags rest
      ('-' :: hyphens, rest)
  | text => ([], text)

def openClass (flags : Flags) (text : List Char) : OpenClass × List Char :=
  let text := skip flags text
  let (negated, text) : Bool × List Char :=
    match text with
    | '^' :: rest => (true, skip flags rest)
    | text => (false, text)
  let (hyphens, text) := leadingHyphens flags text
  let text := skip flags text
  let fresh : OpenClass := ⟨negated, none, .empty⟩
  if hyphens.isEmpty then
    match text with
    | ']' :: rest => (fresh.add (.single ']'), rest)
    | text => (fresh, text)
  else (fresh.add (.single '-'), text)

def readNamedClass : Reader CharSet
  | ':' :: rest => do
    let (negated, rest) : Bool × List Char :=
      match rest with
      | '^' :: rest => (true, rest)
      | rest => (false, rest)
    let (name, rest) ← upTo ':' rest
    match rest with
    | ']' :: rest => do
      let chars ← CharSet.asciiClass? (String.ofList name)
      pure (.negateIf negated chars, rest)
    | _ => none
  | _ => none

def readMember (flags : Flags) : Reader Atom
  | '\\' :: rest => readEscape flags rest
  | c :: rest => if c.toNat < 128 || flags.unicode then some (.literal c, rest) else none
  | [] => none

def atomSet : Atom → Option CharSet
  | .literal c => some (.single c)
  | .set chars => some chars
  | .assertion _ => none

def readRange (flags : Flags) (text : List Char) : Option (CharSet × List Char) := do
  let (first, rest) ← readMember flags text
  let alone (rest : List Char) : Option (CharSet × List Char) := do
    let chars ← atomSet first
    pure (chars, rest)
  match skip flags rest with
  | [] => none
  | '-' :: rest' =>
    match skip flags rest' with
    | ']' :: _ | '-' :: _ => alone ('-' :: rest')
    | rest' => do
      let (last, rest'') ← readMember flags rest'
      match first, last with
      | .literal a, .literal b => if a ≤ b then some (.range a b, rest'') else none
      | _, _ => none
  | rest => alone rest

def nestLimit : Nat := 250

def readClass (flags : Flags) : Nat → OpenClass → List OpenClass → (depth : Nat) →
    List Char → Option ((CharSet × Nat) × List Char)
  | 0, _, _, _, _ => none
  | fuel + 1, inner, outer, depth, text =>
    match skip flags text with
    | [] => none
    | '[' :: rest =>
      match readNamedClass rest with
      | some (chars, rest) => readClass flags fuel (inner.add chars) outer depth rest
      | none =>
        let (fresh, rest) := openClass flags rest
        readClass flags fuel fresh (inner :: outer) (max depth (outer.length + 2)) rest
    | ']' :: rest =>
      match outer with
      | [] => some ((inner.close flags, depth), rest)
      | parent :: outer =>
        readClass flags fuel (parent.add (inner.close flags)) outer depth rest
    | '&' :: '&' :: rest =>
      readClass flags fuel (inner.applyOperator flags .inter) outer depth rest
    | '-' :: '-' :: rest =>
      readClass flags fuel (inner.applyOperator flags .diff) outer depth rest
    | '~' :: '~' :: rest =>
      readClass flags fuel (inner.applyOperator flags .symmDiff) outer depth rest
    | text =>
      match readRange flags text with
      | some (chars, rest) => readClass flags fuel (inner.add chars) outer depth rest
      | none => none

/-- A decimal number with blanks around it. The outer `none` stands for a number
that is out of range, the inner one for no digits at all. -/
def readCount (flags : Flags) (text : List Char) :
    Option (Option Nat × List Char) :=
  let text := text.dropWhile Unicode.isWhiteSpace
  let digits := text.takeWhile Char.isDigit
  let rest := skip flags (text.dropWhile Char.isDigit)
  let rest := rest.dropWhile Unicode.isWhiteSpace
  if digits.isEmpty then some (none, rest)
  else
    let n := digits.foldl (fun value c => value * 10 + (c.toNat - '0'.toNat)) 0
    if n < Nat.pow 2 32 then some (some n, rest) else none

def readBounds (flags : Flags) (text : List Char) :
    Option ((Nat × Option Nat) × List Char) := do
  let (least, rest) ← readCount flags (skip flags text)
  let least ← least
  match skip flags rest with
  | '\x7d' :: rest => some ((least, some least), rest)
  | ',' :: rest =>
    match skip flags rest with
    | '\x7d' :: rest => some ((least, none), rest)
    | rest => do
      let (most, rest) ← readCount flags rest
      let most ← most
      match skip flags rest with
      | '\x7d' :: rest => if least ≤ most then some ((least, some most), rest) else none
      | _ => none
  | _ => none

structure Piece where
  node : Node
  height : Nat
  repeatable : Bool

structure Level where
  finished : List (Node × Nat)
  pieces : List Piece
  flags : Flags

structure State where
  level : Level
  outer : List Level
  names : List (List Char)

namespace Level

def fresh (flags : Flags) : Level := ⟨[], [], flags⟩

def push (level : Level) (piece : Piece) : Level :=
  { level with pieces := piece :: level.pieces }

def current (level : Level) : Node × Nat :=
  match level.pieces with
  | [] => (.empty, 0)
  | [piece] => (piece.node, piece.height)
  | pieces =>
    (.sequence (pieces.reverse.map Piece.node),
      1 + (pieces.map Piece.height).foldl max 0)

def startAlternative (level : Level) : Level :=
  { level with finished := level.finished ++ [level.current], pieces := [] }

def close (level : Level) : Node × Nat :=
  match level.finished with
  | [] => level.current
  | first :: rest =>
    let all := rest ++ [level.current]
    (.alternatives first.1 (all.map Prod.fst),
      1 + ((first :: all).map Prod.snd).foldl max 0)

def repeatLast (level : Level) (least : Nat) (most : Option Nat) : Option Level :=
  match level.pieces with
  | piece :: rest =>
    if piece.repeatable then
      some { level with
        pieces := ⟨.loop least most piece.node, piece.height + 1, true⟩ :: rest }
    else none
  | [] => none

end Level

def Flags.set (flags : Flags) (letter : Char) (value : Bool) : Option Flags :=
  match letter with
  | 'i' => some { flags with ignoreCase := value }
  | 'm' => some { flags with multiLine := value }
  | 's' => some { flags with dotAll := value }
  | 'u' => some { flags with unicode := value }
  | 'x' => some { flags with verbose := value }
  | 'R' => some { flags with crlf := value }
  | 'U' => some flags
  | _ => none

def readFlags : (seen : List Char) → Flags → List Char →
    Option ((List Char × Flags × Char) × List Char)
  | _, _, [] => none
  | seen, flags, c :: rest =>
    if c == ':' || c == ')' then
      if seen.head? == some '-' then none else some ((seen, flags, c), rest)
    else if seen.contains c then none
    else if c == '-' then readFlags (c :: seen) flags rest
    else
      match Flags.set flags c (!seen.contains '-') with
      | some flags => readFlags (c :: seen) flags rest
      | none => none

def isNameStart (c : Char) : Bool :=
  c == '_' || Unicode.isAlphabetic c

def isNameChar (c : Char) : Bool :=
  c == '_' || c == '.' || c == '[' || c == ']' || Unicode.isAlphabetic c ||
    NamedClass.numbers.contains (Unicode.category c)

def readGroupName (names : List (List Char)) (text : List Char) :
    Option (List Char × List Char) := do
  let (name, rest) ← upTo '>' text
  match name with
  | [] => none
  | c :: more =>
    if isNameStart c && more.all isNameChar && !names.contains name then some (name, rest)
    else none

namespace State

def initial : State := ⟨.fresh .standard, [], []⟩

def push (s : State) (node : Node) (height : Nat) : State :=
  { s with level := s.level.push ⟨node, height, true⟩ }

def enter (s : State) (flags : Flags) : State :=
  { s with level := .fresh flags, outer := s.level :: s.outer }

def openGroup (s : State) (text : List Char) : Option (State × List Char) :=
  let flags := s.level.flags
  let named (rest : List Char) : Option (State × List Char) := do
    let (name, rest) ← readGroupName s.names rest
    pure ({ s.enter flags with names := name :: s.names }, rest)
  match text with
  | '?' :: '=' :: _ | '?' :: '!' :: _ => none
  | '?' :: '<' :: '=' :: _ | '?' :: '<' :: '!' :: _ => none
  | text =>
    match skip flags text with
    | '?' :: 'P' :: '<' :: rest => named rest
    | '?' :: '<' :: rest => named rest
    | '?' :: rest => do
      let ((seen, inner, stop), rest) ← readFlags [] flags rest
      if stop == ':' then some (s.enter inner, rest)
      else if seen.isEmpty then none
      else
        some ({ s with
          level := { s.level.push ⟨.empty, 0, false⟩ with flags := inner } }, rest)
    | rest => some (s.enter flags, rest)

def closeGroup (s : State) : Option State :=
  match s.outer with
  | [] => none
  | level :: outer =>
    let (node, height) := s.level.close
    some { s with level := level.push ⟨node, height + 1, true⟩, outer := outer }

def repeatLast (s : State) (least : Nat) (most : Option Nat) : Option State :=
  (s.level.repeatLast least most).map fun level => { s with level := level }

def literal (s : State) (c : Char) : State :=
  s.push (.set (.foldIf s.level.flags.ignoreCase (.single c))) 0

def atom (s : State) : Atom → State
  | .literal c => s.literal c
  | .set chars => s.push (.set chars) 0
  | .assertion condition => s.push (.assertion condition) 0

def skipLazy (flags : Flags) (text : List Char) : List Char :=
  match skip flags text with
  | '?' :: rest => rest
  | _ => text

def step (s : State) (c : Char) (rest : List Char) : Option (State × List Char) :=
  let flags := s.level.flags
  match c with
  | '(' => s.openGroup rest
  | ')' => s.closeGroup.map (·, rest)
  | '|' => some ({ s with level := s.level.startAlternative }, rest)
  | '[' => do
    let (fresh, rest) := openClass flags rest
    let ((chars, depth), rest) ← readClass flags (rest.length + 1) fresh [] 1 rest
    if !flags.unicode && chars.contains '\x80' then none
    pure (s.push (.set chars) depth, rest)
  | '?' => (s.repeatLast 0 (some 1)).map (·, skipLazy flags rest)
  | '*' => (s.repeatLast 0 none).map (·, skipLazy flags rest)
  | '+' => (s.repeatLast 1 none).map (·, skipLazy flags rest)
  | '\x7b' => do
    let ((least, most), rest) ← readBounds flags rest
    let s ← s.repeatLast least most
    pure (s, skipLazy flags rest)
  | '\\' => do
    let (atom, rest) ← readEscape flags rest
    pure (s.atom atom, rest)
  | '.' => if flags.unicode then some (s.push (.set (dotSet flags)) 0, rest) else none
  | '^' => some (s.push (.assertion (startAssertion flags)) 0, rest)
  | '$' => some (s.push (.assertion (endAssertion flags)) 0, rest)
  | c => some (s.literal c, rest)

/-- Reads parts until the text ends; each takes at least one character, so the
length of the text bounds their number. -/
def run : Nat → State → List Char → Option State
  | 0, s, text => if (skip s.level.flags text).isEmpty then some s else none
  | fuel + 1, s, text =>
    match skip s.level.flags text with
    | [] => some s
    | c :: rest =>
      match s.step c rest with
      | some (next, rest) => run fuel next rest
      | none => none

end State

end Parser

def sizeLimit : Nat := 10 * Nat.pow 2 20

def Node.ofPattern? (pattern : List Char) : Option Node := do
  let s ← Parser.State.initial.run pattern.length pattern
  match s.outer with
  | _ :: _ => none
  | [] =>
    let (node, height) := s.level.close
    if height ≤ Parser.nestLimit && node.size ≤ sizeLimit then some node else none

end MetricScope.Regex
