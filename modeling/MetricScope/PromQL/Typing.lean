import MetricScope.PromQL.Error
import MetricScope.PromQL.Expr

/-!
# Checks of a new node

Every node of a tree is checked when it is built; its children have been checked
before. A check answers the first rule that the node breaks.
-/

set_option autoImplicit false

namespace MetricScope.PromQL

namespace Selector

def metricLabel : String := "__name__"

/-- A metric name stands in one place only, and without a metric name some matcher
must reject the empty value. -/
def check (s : Selector) : Except ParseError Unit :=
  match s.metric with
  | some name =>
    match s.groups.matchers.find? fun m => m.name == metricLabel with
    | some m => .error (.repeatedMetricName name m.value)
    | none => .ok ()
  | none =>
    if s.groups.matchers.all fun m => m.accepts "" then .error .emptySelector
    else .ok ()

end Selector

namespace Function

def checkCount (f : Function) (got : Nat) : Except ParseError Unit :=
  let expected := f.arguments.length
  if f.variadic then
    if got + 1 < expected then .error (.callArgumentsAtLeast f.name (expected - 1) got)
    else if expected < got && !f.isUnbounded then
      .error (.callArgumentsAtMost f.name expected got)
    else .ok ()
  else if got ≠ expected then .error (.callArguments f.name expected got)
  else .ok ()

/-- Number literals at which the result is no number are taken as they are. -/
def acceptsLiteral (f : Function) (x : Binary64) : Bool :=
  let special :=
    match x with
    | .nan | .infinite _ => true
    | .finite _ _ _ => false
  let notPositive :=
    match x with
    | .finite negative mantissa _ => negative || mantissa == 0
    | _ => false
  match f.name with
  | "exp" => special
  | "ln" | "log2" | "log10" => special || notPositive
  | _ => false

def checkTypes (f : Function) : (place : Nat) → List Expr → Except ParseError Unit
  | _, [] => .ok ()
  | place, e :: rest =>
    match f.argumentType? place with
    | some expected =>
      if e.type = expected then f.checkTypes (place + 1) rest
      else .error (.callArgumentType f.name expected e.type)
    | none => f.checkTypes (place + 1) rest

def checkArguments (f : Function) (arguments : List Expr) : Except ParseError Unit :=
  match f.checkCount arguments.length with
  | .error cause => .error cause
  | .ok () =>
    match arguments with
    | .number x :: _ => if f.acceptsLiteral x then .ok () else f.checkTypes 0 arguments
    | _ => f.checkTypes 0 arguments

end Function

def checkBinary (op : Operator) (matching : VectorMatching) (left right : ValueType) :
    Except ParseError Unit :=
  let shared :=
    match matching.labels, matching.cardinality.labels? with
    | some (.including on), some group => on.find? group.contains
    | _, _ => none
  let isOperand (type : ValueType) : Bool := type == .scalar || type == .vector
  let bothVectors := left == .vector && right == .vector
  let hasLabels :=
    match matching.labels with
    | some grouping => !grouping.labels.isEmpty
    | none => false
  if matching.returnBool && !op.isComparison then .error .boolWithoutComparison
  else if op.isComparison && left == .scalar && right == .scalar && !matching.returnBool then
    .error .scalarComparison
  else
    match shared with
    | some label => .error (.labelOnBothSides label)
    | none =>
      if op.isSet && (left == .scalar || right == .scalar) then
        .error (.setOperatorOnScalar op)
      else if op.isSet && bothVectors && matching.cardinality != .oneToOne then
        .error (.groupedSetOperator op)
      else if !isOperand left || !isOperand right then .error .binaryOperand
      else if !bothVectors && hasLabels then .error .matchingWithoutVectors
      else .ok ()

def checkAggregate (op : Aggregator) (parameter : Option Expr) (e : Expr) :
    Except ParseError Unit :=
  if e.type ≠ .vector then .error (.aggregatedType .vector e.type)
  else
    match op.parameter?, parameter with
    | some expected, some p =>
      if p.type = expected then .ok () else .error (.aggregatedType expected p.type)
    | _, _ => .ok ()

namespace Expr

def checkRoot : Expr → Except ParseError Unit
  | selector s => s.check
  | subquery e _ _ _ _ =>
      if e.type = .vector then .ok () else .error (.subqueryOperand e.type)
  | call f arguments => f.checkArguments arguments
  | aggregate op _ parameter e => checkAggregate op parameter e
  | binary op matching left right => checkBinary op matching left.type right.type
  | negated e =>
      if e.type = .scalar ∨ e.type = .vector then .ok () else .error (.signedOperand e.type)
  | range _ _ | paren _ | number _ | string _ => .ok ()

def checked (e : Expr) : Except (Halt ParseError) Expr :=
  match e.checkRoot with
  | .ok () => .ok e
  | .error cause => .error (.failed cause)

theorem checked_eq_ok_iff {e e' : Expr} :
    e.checked = .ok e' ↔ e.checkRoot = .ok () ∧ e' = e := by
  unfold checked
  cases h : e.checkRoot <;> simp [eq_comm]

end Expr

end MetricScope.PromQL
