import MetricScope.Listing

/-!
# JSON values and their texts

Members of an object stay in the order in which they stand, repeated names
included. A string may hold half of a surrogate pair in an escape; it then has no
text, and so it can be skipped but not used. The value of a number is never asked
for and is not kept.

In the compact form there are no blanks; in the pretty form every item is on a line of
its own behind two spaces for each level. Only quotes, backslashes and control
characters are escaped.
-/

set_option autoImplicit false

namespace MetricScope.Json

inductive Value where
  | null
  | bool (b : Bool)
  | number
  | string (text : Option String)
  | array (items : List Value)
  | object (members : List (Option String × Value))

namespace Value

def text (s : String) : Value := .string (some s)

def ofFields (fields : List (String × Value)) : Value :=
  .object (fields.map fun (name, value) => (some name, value))

end Value

def escapeChar (c : Char) : List Char :=
  match c with
  | '"' => ['\\', '"']
  | '\\' => ['\\', '\\']
  | '\x08' => ['\\', 'b']
  | '\t' => ['\\', 't']
  | '\n' => ['\\', 'n']
  | '\x0c' => ['\\', 'f']
  | '\r' => ['\\', 'r']
  | c =>
    if c.toNat < 0x20 then
      ['\\', 'u', '0', '0', Nat.digitChar (c.toNat / 16),
        Nat.digitChar (c.toNat % 16)]
    else [c]

def quote (text : String) : String :=
  String.ofList ('"' :: (text.toList.flatMap escapeChar ++ ['"']))

def stringText (text : Option String) : String :=
  quote (text.getD "")

def indent (level : Nat) : String :=
  "\n" ++ String.ofList (List.replicate (2 * level) ' ')

def block (level : Nat) (opening closing : String) (items : List String) : String :=
  if items.isEmpty then opening ++ closing
  else
    opening ++ indent (level + 1) ++ Text.join ("," ++ indent (level + 1)) items ++
      indent level ++ closing

namespace Value

mutual

def compact : Value → String
  | null => "null"
  | bool b => if b then "true" else "false"
  | number => "0"
  | string text => stringText text
  | array items => "[" ++ Text.join "," (compactItems items) ++ "]"
  | object members => "\x7b" ++ Text.join "," (compactMembers members) ++ "\x7d"

def compactItems : List Value → List String
  | [] => []
  | v :: rest => v.compact :: compactItems rest

def compactMembers : List (Option String × Value) → List String
  | [] => []
  | (name, v) :: rest => (stringText name ++ ":" ++ v.compact) :: compactMembers rest

end

mutual

def prettyAt (level : Nat) : Value → String
  | null => "null"
  | bool b => if b then "true" else "false"
  | number => "0"
  | string text => stringText text
  | array items => block level "[" "]" (prettyItems (level + 1) items)
  | object members => block level "\x7b" "\x7d" (prettyMembers (level + 1) members)

def prettyItems (level : Nat) : List Value → List String
  | [] => []
  | v :: rest => v.prettyAt level :: prettyItems level rest

def prettyMembers (level : Nat) : List (Option String × Value) → List String
  | [] => []
  | (name, v) :: rest =>
      (stringText name ++ ": " ++ v.prettyAt level) :: prettyMembers level rest

end

def pretty (v : Value) : String := v.prettyAt 0

end Value

end MetricScope.Json
