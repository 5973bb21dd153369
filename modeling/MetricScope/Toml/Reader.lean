import MetricScope.Toml.Scalar
import MetricScope.Toml.Table
import MetricScope.Toml.Text

/-!
# Reading TOML

Values are read by recursion on a bound for the number of steps, which the length of
the text gives, since of two steps one takes a character at least. Nesting is limited.
A text that is no document has no result.
-/

set_option autoImplicit false

namespace MetricScope.Toml

def nestLimit : Nat := 80

def readKeyParts : Nat → Reader (List String)
  | 0, _ => none
  | fuel + 1, text =>
    match readKeyPart (skipBlanks text) with
    | none => none
    | some (part, rest) =>
      match skipBlanks rest with
      | '.' :: rest =>
        match readKeyParts fuel rest with
        | some (parts, rest) => some (part :: parts, rest)
        | none => none
      | rest => some ([part], rest)

def readKey (text : List Char) : Option (KeyPath × List Char) :=
  match readKeyParts (text.length + 1) text with
  | some (parts, rest) =>
    match parts.getLast? with
    | some last =>
      if parts.length < nestLimit then some (⟨parts.dropLast, last⟩, rest) else none
    | none => none
  | none => none

def endsScalar (c : Char) : Bool :=
  [' ', '\t', '\n', '\r', ',', ']', '\x7d', '#'].contains c

def readScalar (text : List Char) : Option (Item × List Char) :=
  let word := text.takeWhile fun c => !endsScalar c
  let rest := text.dropWhile fun c => !endsScalar c
  if word == "true".toList then some (.bool true, rest)
  else if word == "false".toList then some (.bool false, rest)
  else
    match rest with
    | ' ' :: c :: more =>
      if isDate word && c.isDigit then
        let time := (c :: more).takeWhile fun c => !endsScalar c
        if isDateTime (word ++ ' ' :: time) then
          some (.scalar, (c :: more).dropWhile fun c => !endsScalar c)
        else none
      else if isScalar word then some (.scalar, rest)
      else none
    | rest => if isScalar word then some (.scalar, rest) else none

mutual

def readValue : Nat → (level : Nat) → Reader Item
  | 0, _, _ => none
  | fuel + 1, level, text =>
    match text with
    | '"' :: _ | '\'' :: _ => (readString text).map fun (s, rest) => (.text s, rest)
    | '[' :: rest =>
      if level + 1 < nestLimit then
        (readItems fuel (level + 1) rest).map fun (items, rest) => (.array items, rest)
      else none
    | '\x7b' :: rest =>
      if level + 1 < nestLimit then
        match skipBlanks rest with
        | '\x7d' :: rest => some (.inlineTable [], rest)
        | rest =>
          match readPairs fuel (level + 1) rest with
          | some (pairs, rest) =>
            (inlineEntries pairs).map fun entries => (.inlineTable entries, rest)
          | none => none
      else none
    | text => readScalar text

def readItems : Nat → (level : Nat) → Reader (List Item)
  | 0, _, _ => none
  | fuel + 1, level, text =>
    match skipTrivia false text with
    | none => none
    | some (']' :: rest) => some ([], rest)
    | some rest =>
      match readValue fuel level rest with
      | none => none
      | some (item, rest) =>
        match skipTrivia false rest with
        | some (']' :: rest) => some ([item], rest)
        | some (',' :: rest) =>
          (readItems fuel level rest).map fun (items, rest) => (item :: items, rest)
        | _ => none

def readPairs : Nat → (level : Nat) → Reader (List (KeyPath × Item))
  | 0, _, _ => none
  | fuel + 1, level, text =>
    match readPair fuel level text with
    | none => none
    | some (pair, rest) =>
      match skipBlanks rest with
      | '\x7d' :: rest => some ([pair], rest)
      | ',' :: rest =>
        (readPairs fuel level rest).map fun (pairs, rest) => (pair :: pairs, rest)
      | _ => none

def readPair : Nat → (level : Nat) → Reader (KeyPath × Item)
  | 0, _, _ => none
  | fuel + 1, level, text =>
    match readKey text with
    | some (key, '=' :: rest) =>
      (readValue fuel level (skipBlanks rest)).map fun (item, rest) => ((key, item), rest)
    | _ => none

end

structure Document where
  origin : TableOrigin
  entries : Entries
  header : List String

namespace Document

def empty : Document := ⟨⟨false, false⟩, [], []⟩

def change (d : Document) (path : List String) (change : Change) : Option Document :=
  (descend false change path d.origin d.entries).map fun (origin, entries) =>
    { d with origin := origin, entries := entries }

def enter (d : Document) (key : KeyPath) (open_ : String → Change) : Option Document :=
  (d.change key.front (open_ key.last)).map fun d =>
    { d with header := key.front ++ [key.last] }

def addPair (d : Document) (key : KeyPath) (item : Item) : Option Document :=
  d.change d.header (Toml.addPair key item)

def readLine (d : Document) (text : List Char) : Option (Document × List Char) := do
  match skipBlanks text with
  | [] => pure (d, [])
  | '#' :: _ | '\n' :: _ | '\r' :: _ => pure (d, ← endOfLine text)
  | '[' :: '[' :: rest =>
    match ← readKey rest with
    | (key, ']' :: ']' :: rest) => pure (← d.enter key addTable, ← endOfLine rest)
    | _ => none
  | '[' :: rest =>
    match ← readKey rest with
    | (key, ']' :: rest) => pure (← d.enter key openTable, ← endOfLine rest)
    | _ => none
  | rest =>
    let ((key, item), rest) ← readPair (2 * rest.length + 2) 0 rest
    pure (← d.addPair key item, ← endOfLine rest)

def readLines : Nat → Document → List Char → Option Document
  | _, d, [] => some d
  | 0, _, _ :: _ => none
  | fuel + 1, d, text =>
    match d.readLine text with
    | some (d, rest) => readLines fuel d rest
    | none => none

end Document

def read? (text : String) : Option Entries :=
  let chars :=
    match text.toList with
    | '\uFEFF' :: rest => rest
    | chars => chars
  (Document.empty.readLines chars.length chars).map Document.entries

end MetricScope.Toml
