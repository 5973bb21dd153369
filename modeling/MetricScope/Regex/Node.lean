import MetricScope.Regex.CharSet

/-!
# Regular expressions

A repetition carries its bounds; no upper bound means that it may go on forever.
The size bounds what a pattern stands for once its repetitions are written out.
-/

set_option autoImplicit false

namespace MetricScope.Regex

inductive Assertion where
  | textStart
  | textEnd
  /-- Line ends are line feeds, or with `crlf` carriage returns as well. -/
  | lineStart (crlf : Bool)
  | lineEnd (crlf : Bool)
  | wordBoundary (unicode : Bool)
  | notWordBoundary (unicode : Bool)
  | wordStart (unicode : Bool)
  | wordEnd (unicode : Bool)
  | wordStartHalf (unicode : Bool)
  | wordEndHalf (unicode : Bool)
  deriving DecidableEq, Repr

inductive Node where
  | empty
  | set (chars : CharSet)
  | assertion (condition : Assertion)
  | seq (first second : Node)
  | alt (first second : Node)
  | loop (least : Nat) (most : Option Nat) (body : Node)
  deriving DecidableEq, Repr

namespace Node

def literal (c : Char) : Node := .set (.single c)

def sequence : List Node → Node
  | [] => .empty
  | [item] => item
  | item :: rest => .seq item (sequence rest)

def alternatives (first : Node) : List Node → Node
  | [] => first
  | second :: rest => .alt first (alternatives second rest)

def setSize : CharSet → Nat
  | .named .ascii => 40
  | .named .any => 400
  | .named .space => 1500
  | .named .word | .named .alphabetic => 50000
  | .named _ => 12000
  | .empty => 32
  | .range first last =>
      if first = last then 32 * first.utf8Size
      else if last.toNat < 128 then 40
      else 400
  | .union a b => setSize a + setSize b
  | .inter a b | .diff a b | .symmDiff a b => setSize a + setSize b
  | .compl a => setSize a + 400
  | .folded a => 2 * setSize a

/-- The number of bytes that a compiled pattern needs, roughly: one state for each
step once all counted repetitions are written out. -/
def size : Node → Nat
  | .empty => 32
  | .set chars => setSize chars
  | .assertion _ => 32
  | .seq a b => a.size + b.size
  | .alt a b => a.size + b.size + 40
  | .loop least most body =>
    match most with
    | none => max least 1 * body.size + 40
    | some most => most * body.size + (most - least) * 40 + 32

end Node

end MetricScope.Regex
