import MetricScope.PromQL.LabelList
import MetricScope.PromQL.Typing

/-!
# Building nodes

The values of the rules of the grammar, from the values of their parts. The first
fault in the parts, in the order given here, is the fault of the whole.
-/

set_option autoImplicit false

namespace MetricScope.PromQL

namespace Instant

def greatest : Nat := Nat.pow 2 64 - 1

def ofSeconds (before : Bool) (x : Binary64) : Checked Instant :=
  let outOfBounds : Checked Instant :=
    .error (.failed (.timestampOutOfBounds (String.ofList (if before then x.neg else x).digits)))
  if x.isGreatest then outOfBounds
  else
    match x.toQuotient with
    | none => outOfBounds
    | some _ =>
      match (x.scale 1000).toQuotient with
      | some (n, d) => .ok (.epoch before (min (Binary64.divideHalfUp n d) greatest))
      | none => .ok (.epoch before greatest)

end Instant

namespace Expr

def number? (x : Checked Binary64) : Checked Expr := do
  let x ← x
  pure (.number x)

def string? (text : Checked String) : Checked Expr := do
  let text ← text
  pure (.string text)

def selector? (metric : Option String) (groups : Checked MatcherGroups) : Checked Expr := do
  let groups ← groups
  (Expr.selector ⟨metric, groups, none, none⟩).checked

def metric (name : String) : Checked Expr :=
  selector? (some name) (.ok .empty)

def paren? (e : Checked Expr) : Checked Expr := do
  let e ← e
  pure (.paren e)

/-- A sign in front of an operand. A plus changes nothing, and the minus of a number
becomes part of it. -/
def signed? (negative : Bool) (e : Checked Expr) : Checked Expr := do
  let e ← e
  if negative then
    match e with
    | .number x => pure (.number x.neg)
    | .string _ => throw (.failed (.negatedLiteral .string))
    | .range _ _ => throw (.failed (.negatedLiteral .matrix))
    | e => (Expr.negated e).checked
  else pure e

def binary? (op : Operator) (left : Checked Expr) (matching : Checked VectorMatching)
    (right : Checked Expr) : Checked Expr := do
  let left ← left
  let matching ← matching
  let right ← right
  (Expr.binary op matching left right).checked

def call? (name : String) (arguments : Checked (List Expr)) : Checked Expr :=
  match Function.find? name with
  | none => .error (.failed (.unknownFunction name))
  | some f => do
    let arguments ← arguments
    (Expr.call f arguments).checked

def aggregate? (op : Aggregator) (grouping : Checked (Option Grouping))
    (arguments : Checked (List Expr)) : Checked Expr := do
  let grouping ← grouping
  let arguments ← arguments
  if arguments.isEmpty then throw (.failed (.noArguments op))
  else if arguments.length ≠ op.arity then
    throw (.failed (.wrongArgumentCount op.arity arguments.length))
  else
    match arguments with
    | [e] => (Expr.aggregate op grouping none e).checked
    | [parameter, e] => (Expr.aggregate op grouping (some parameter) e).checked
    | _ => throw (.failed (.wrongArgumentCount op.arity arguments.length))

def range? (e : Checked Expr) (length : Checked Duration) : Checked Expr := do
  let e ← e
  let length ← length
  match e with
  | .selector s =>
    if s.offset.isSome then throw (.failed .offsetBeforeRange)
    else if s.at?.isSome then throw (.failed .timestampBeforeRange)
    else pure (.range s length)
  | _ => throw (.failed .rangeOperand)

def subquery? (e : Checked Expr) (length : Checked Duration)
    (step : Checked (Option Duration)) : Checked Expr := do
  let e ← e
  let length ← length
  let step ← step
  (Expr.subquery e length step none none).checked

def offset? (e : Checked Expr) (negative : Bool) (duration : Checked Duration) :
    Checked Expr := do
  let e ← e
  let duration ← duration
  let offset : Offset := ⟨negative, duration⟩
  match e with
  | .selector s =>
    if s.offset.isSome then throw (.failed .repeatedOffset)
    else pure (.selector { s with offset := some offset })
  | .range s length =>
    if s.offset.isSome then throw (.failed .repeatedOffset)
    else pure (.range { s with offset := some offset } length)
  | .subquery e length step old at? =>
    if old.isSome then throw (.failed .repeatedOffset)
    else pure (.subquery e length step (some offset) at?)
  | _ => throw (.failed .offsetOperand)

def at? (e : Checked Expr) (instant : Checked Instant) : Checked Expr := do
  let e ← e
  let instant ← instant
  match e with
  | .selector s =>
    if s.at?.isSome then throw (.failed .repeatedTimestamp)
    else pure (.selector { s with at? := some instant })
  | .range s length =>
    if s.at?.isSome then throw (.failed .repeatedTimestamp)
    else pure (.range { s with at? := some instant } length)
  | .subquery e length step offset old =>
    if old.isSome then throw (.failed .repeatedTimestamp)
    else pure (.subquery e length step offset (some instant))
  | _ => throw (.failed .timestampOperand)

end Expr

end MetricScope.PromQL
