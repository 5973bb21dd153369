import MetricScope.PromQL.Literal

/-!
# Lists of labels

Labels between parentheses, separated by commas; a comma may stand at the end. The
list is read token by token. Names that are no labels and strings that cannot be
read are faults of the list, which come to light only if the query is well formed.
-/

set_option autoImplicit false

namespace MetricScope.PromQL

abbrev Checked (α : Type) := Except (Halt ParseError) α

inductive Progress (σ α : Type) where
  | more (state : σ)
  | done (result : α)
  | refused

inductive LabelPhase where
  | opening
  | first
  | afterLabel
  | afterComma
  deriving DecidableEq, Repr

structure LabelList where
  phase : LabelPhase
  labels : Checked (List String)

namespace LabelList

def unopened : LabelList := ⟨.opening, .ok []⟩

def opened : LabelList := ⟨.first, .ok []⟩

/-- The label that a token stands for; the outer `none` is for other tokens. -/
def label? : Token → Option (Checked String)
  | .identifier name => some (.ok name)
  | .metricIdentifier name => some (.error (.failed (.invalidGroupingLabel name)))
  | .keyword word text => if word.canNameLabel then some (.ok text) else none
  | .string quote body => some (Literal.unquote quote body)
  | _ => none

def add (list : LabelList) (label : Checked String) : LabelList :=
  { phase := .afterLabel
    labels := do
      let labels ← list.labels
      let label ← label
      pure (labels ++ [label]) }

def step (list : LabelList) (t : Token) : Progress LabelList (Checked (List String)) :=
  match list.phase, t with
  | .opening, .openParen => .more { list with phase := .first }
  | .opening, _ => .refused
  | .first, .closeParen | .afterLabel, .closeParen | .afterComma, .closeParen =>
      .done list.labels
  | .afterLabel, .comma => .more { list with phase := .afterComma }
  | .afterLabel, _ => .refused
  | .first, t | .afterComma, t =>
    match label? t with
    | some label => .more (list.add label)
    | none => .refused

end LabelList

end MetricScope.PromQL
