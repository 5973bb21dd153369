/-!
# Runs of code points

A table of characters is written as words. Each word stands for a run of code points
that starts where the one before it ended: a length, left out when it is one, and
the name of what the run has in common.
-/

set_option autoImplicit false

namespace MetricScope.Unicode

structure Run (α : Type) where
  first : Nat
  length : Nat
  value : α
  deriving Repr

namespace Run

variable {α : Type}

def covers (run : Run α) (n : Nat) : Bool :=
  run.first ≤ n && n < run.first + run.length

def read (decode : List Char → Option α) :
    (start : Nat) → (length : Option Nat) → (name : List Char) → List Char → List (Run α)
  | start, length, name, [] =>
      (decode name).toList.map fun value => ⟨start, length.getD 1, value⟩
  | start, length, name, c :: rest =>
      if c.isDigit then
        read decode start (some (length.getD 0 * 10 + (c.toNat - '0'.toNat))) name rest
      else if c = ' ' then
        match decode name with
        | some value =>
          ⟨start, length.getD 1, value⟩ ::
            read decode (start + length.getD 1) none [] rest
        | none => read decode start none [] rest
      else read decode start length (name ++ [c]) rest

def table (decode : List Char → Option α) (lines : List String) : List (Run α) :=
  read decode 0 none [] (lines.flatMap fun line => line.toList ++ [' '])

def value? (runs : List (Run α)) (c : Char) : Option α :=
  (runs.find? fun run => run.covers c.toNat).map Run.value

end Run

def inRanges (ranges : List (Nat × Nat)) (c : Char) : Bool :=
  ranges.any fun range => range.1 ≤ c.toNat && c.toNat ≤ range.2

end MetricScope.Unicode
