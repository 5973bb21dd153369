import MetricScope.Json.Token
import MetricScope.Json.Value

/-!
# Reading JSON

The tokens are read one at a time, with a stack of the arrays and objects that are
open. Items and members are collected in reverse.
-/

set_option autoImplicit false

namespace MetricScope.Json

inductive Frame where
  | array (items : List Value)
  | object (members : List (Option String × Value)) (name : Option String)

inductive Focus where
  | value
  /-- Right after an opening bracket. -/
  | firstItem
  /-- Right after an opening brace. -/
  | firstName
  | name (members : List (Option String × Value))
  | colon (members : List (Option String × Value)) (name : Option String)
  | complete (v : Value)

structure Reader where
  frames : List Frame
  focus : Focus

namespace Reader

def initial : Reader := ⟨[], .value⟩

def startValue (r : Reader) (t : Token) : Option Reader :=
  let complete (v : Value) : Option Reader := some { r with focus := .complete v }
  match t with
  | .null => complete .null
  | .bool b => complete (.bool b)
  | .number => complete .number
  | .string text => complete (.string text)
  | .openBracket => some { r with focus := .firstItem }
  | .openBrace => some { r with focus := .firstName }
  | _ => none

def afterValue (r : Reader) (v : Value) (t : Token) : Option Reader :=
  match r.frames, t with
  | .array items :: frames, .comma => some ⟨.array (v :: items) :: frames, .value⟩
  | .array items :: frames, .closeBracket =>
      some ⟨frames, .complete (.array (v :: items).reverse)⟩
  | .object members name :: frames, .comma => some ⟨frames, .name ((name, v) :: members)⟩
  | .object members name :: frames, .closeBrace =>
      some ⟨frames, .complete (.object ((name, v) :: members).reverse)⟩
  | _, _ => none

def step (r : Reader) (t : Token) : Option Reader :=
  match r.focus with
  | .value => r.startValue t
  | .firstItem =>
    match t with
    | .closeBracket => some { r with focus := .complete (.array []) }
    | t => startValue ⟨.array [] :: r.frames, .value⟩ t
  | .firstName =>
    match t with
    | .closeBrace => some { r with focus := .complete (.object []) }
    | .string name => some { r with focus := .colon [] name }
    | _ => none
  | .name members =>
    match t with
    | .string name => some { r with focus := .colon members name }
    | _ => none
  | .colon members name =>
    match t with
    | .colon => some ⟨.object members name :: r.frames, .value⟩
    | _ => none
  | .complete v => r.afterValue v t

def finish (r : Reader) : Option Value :=
  match r.frames, r.focus with
  | [], .complete v => some v
  | _, _ => none

end Reader

def Value.ofTokens? (tokens : List Token) : Option Value := do
  let r ← tokens.foldlM Reader.step Reader.initial
  r.finish

def Value.read? (text : String) : Option Value := do
  let tokens ← tokenize text
  Value.ofTokens? tokens

end MetricScope.Json
