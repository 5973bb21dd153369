/-!
# Binary operators

Their text, and how tightly they bind. Of two operators the one of the higher
level takes the operand between them; on one level the left one takes it, but
powers associate to the right.
-/

set_option autoImplicit false

namespace MetricScope.PromQL

inductive Operator where
  | add | sub | mul | div | mod | pow | atan2
  | eq | ne | lt | le | gt | ge
  | intersection | union | complement
  deriving DecidableEq, Repr

namespace Operator

def text : Operator → String
  | add => "+" | sub => "-" | mul => "*" | div => "/" | mod => "%" | pow => "^"
  | atan2 => "atan2"
  | eq => "==" | ne => "!=" | lt => "<" | le => "<=" | gt => ">" | ge => ">="
  | intersection => "and" | union => "or" | complement => "unless"

def all : List Operator :=
  [add, sub, mul, div, mod, pow, atan2, eq, ne, lt, le, gt, ge,
    intersection, union, complement]

theorem mem_all (op : Operator) : op ∈ all := by
  cases op <;> decide

def ofText? (text : String) : Option Operator :=
  all.find? fun op => op.text == text

def level : Operator → Nat
  | union => 1
  | intersection | complement => 2
  | eq | ne | lt | le | gt | ge => 3
  | add | sub => 4
  | mul | div | mod | atan2 => 5
  | pow => 6

def signLevel : Nat := 5

def associatesRight : Operator → Bool
  | pow => true
  | _ => false

def isComparison : Operator → Bool
  | eq | ne | lt | le | gt | ge => true
  | _ => false

def isSet : Operator → Bool
  | intersection | union | complement => true
  | _ => false

/-- Tells whether an operand between `left` and `right` belongs to `left`. -/
def bindsBefore (left right : Operator) : Bool :=
  right.level < left.level || (right.level == left.level && !left.associatesRight)

end Operator

end MetricScope.PromQL
