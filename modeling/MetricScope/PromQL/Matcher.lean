import MetricScope.Regex.Pattern
import MetricScope.PromQL.Token

/-!
# Label matchers

A matcher accepts or rejects the value of one label; an absent label has the empty
value. The matchers of a selector stand in one or more groups, and a series needs
to satisfy all matchers of some group.
-/

set_option autoImplicit false

namespace MetricScope.PromQL

open MetricScope.Regex (Pattern)

inductive MatchOp where
  | equal
  | notEqual
  | regexMatch (pattern : Pattern)
  | regexNotMatch (pattern : Pattern)
  deriving DecidableEq, Repr

namespace MatchOp

def symbol : MatchOp → MatchSymbol
  | equal => .equal
  | notEqual => .notEqual
  | regexMatch _ => .regexMatch
  | regexNotMatch _ => .regexNotMatch

def pattern? : MatchOp → Option Pattern
  | regexMatch pattern | regexNotMatch pattern => some pattern
  | _ => none

end MatchOp

structure Matcher where
  name : String
  op : MatchOp
  value : String
  deriving DecidableEq, Repr

namespace Matcher

def accepts (m : Matcher) (text : String) : Bool :=
  match m.op with
  | .equal => m.value == text
  | .notEqual => m.value != text
  | .regexMatch pattern => pattern.isMatch text
  | .regexNotMatch pattern => !pattern.isMatch text

end Matcher

structure MatcherGroups where
  first : List Matcher
  others : List (List Matcher)
  deriving DecidableEq, Repr

namespace MatcherGroups

def empty : MatcherGroups := ⟨[], []⟩

def toList (g : MatcherGroups) : List (List Matcher) :=
  g.first :: g.others

def matchers (g : MatcherGroups) : List Matcher :=
  g.toList.flatten

def map (f : List Matcher → List Matcher) (g : MatcherGroups) : MatcherGroups :=
  ⟨f g.first, g.others.map f⟩

@[simp] theorem toList_map (f : List Matcher → List Matcher) (g : MatcherGroups) :
    (g.map f).toList = g.toList.map f := rfl

@[simp] theorem map_id (g : MatcherGroups) : g.map (fun ms => ms) = g := by
  simp [map]

theorem map_map (f h : List Matcher → List Matcher) (g : MatcherGroups) :
    (g.map f).map h = g.map (h ∘ f) := by
  simp [map]

def push (g : MatcherGroups) (m : Matcher) : MatcherGroups :=
  match g.others.getLast? with
  | none => ⟨g.first ++ [m], []⟩
  | some last => ⟨g.first, g.others.dropLast ++ [last ++ [m]]⟩

def pushGroup (g : MatcherGroups) (m : Matcher) : MatcherGroups :=
  ⟨g.first, g.others ++ [[m]]⟩

end MatcherGroups

end MetricScope.PromQL
