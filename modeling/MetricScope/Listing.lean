/-!
# Lists in order

A list is sorted by inserting its items one after the other. Items that may stand in
either order keep the order in which they came.
-/

set_option autoImplicit false

namespace MetricScope

variable {α : Type}

def insertBy (precedes : α → α → Bool) (a : α) : List α → List α
  | [] => [a]
  | b :: rest => if precedes a b then a :: b :: rest else b :: insertBy precedes a rest

def sortBy (precedes : α → α → Bool) : List α → List α
  | [] => []
  | a :: rest => insertBy precedes a (sortBy precedes rest)

namespace Text

def join (separator : String) : List String → String
  | [] => ""
  | [text] => text
  | text :: rest => text ++ separator ++ join separator rest

@[simp] theorem join_nil (separator : String) : join separator [] = "" := rfl

@[simp] theorem join_singleton (separator text : String) :
    join separator [text] = text := rfl

theorem join_cons_cons (separator first second : String) (rest : List String) :
    join separator (first :: second :: rest) =
      first ++ separator ++ join separator (second :: rest) := rfl

end Text

end MetricScope
