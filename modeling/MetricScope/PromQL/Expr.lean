import MetricScope.PromQL.Duration
import MetricScope.PromQL.Function
import MetricScope.PromQL.Matcher

/-!
# Expressions

The trees of queries. Two views of a tree are defined with it: the selectors that
occur in it, in the order in which they are visited, and the tree after a change
of all its selectors.
-/

set_option autoImplicit false

namespace MetricScope.PromQL

structure Offset where
  negative : Bool
  duration : Duration
  deriving DecidableEq, Repr

inductive Instant where
  | start
  | finish
  /-- Milliseconds after the epoch, or before it. -/
  | epoch (before : Bool) (milliseconds : Nat)
  deriving DecidableEq, Repr

structure Selector where
  metric : Option String
  groups : MatcherGroups
  offset : Option Offset
  at? : Option Instant
  deriving DecidableEq, Repr

inductive Grouping where
  | including (labels : List String)
  | excluding (labels : List String)
  deriving DecidableEq, Repr

def Grouping.labels : Grouping → List String
  | including labels | excluding labels => labels

inductive Cardinality where
  | oneToOne
  | manyToOne (labels : List String)
  | oneToMany (labels : List String)
  deriving DecidableEq, Repr

def Cardinality.labels? : Cardinality → Option (List String)
  | oneToOne => none
  | manyToOne labels | oneToMany labels => some labels

structure VectorMatching where
  returnBool : Bool
  labels : Option Grouping
  cardinality : Cardinality
  deriving DecidableEq, Repr

def VectorMatching.plain : VectorMatching := ⟨false, none, .oneToOne⟩

inductive Expr where
  | selector (s : Selector)
  | range (s : Selector) (length : Duration)
  | subquery (e : Expr) (length : Duration) (step : Option Duration)
      (offset : Option Offset) (at? : Option Instant)
  | call (f : Function) (arguments : List Expr)
  | aggregate (op : Aggregator) (grouping : Option Grouping) (parameter : Option Expr)
      (e : Expr)
  | binary (op : Operator) (matching : VectorMatching) (left right : Expr)
  | negated (e : Expr)
  | paren (e : Expr)
  | number (x : Binary64)
  | string (text : String)

namespace Expr

def type : Expr → ValueType
  | selector _ => .vector
  | range _ _ => .matrix
  | subquery _ _ _ _ _ => .matrix
  | call f _ => f.result
  | aggregate _ _ _ _ => .vector
  | binary _ _ left right =>
      if left.type = .scalar ∧ right.type = .scalar then .scalar else .vector
  | negated e => e.type
  | paren e => e.type
  | number _ => .scalar
  | string _ => .string

mutual

def mapSelectors (f : Selector → Selector) : Expr → Expr
  | selector s => selector (f s)
  | range s length => range (f s) length
  | subquery e length step offset at? =>
      subquery (e.mapSelectors f) length step offset at?
  | call function arguments => call function (mapSelectorsList f arguments)
  | aggregate op grouping parameter e =>
      aggregate op grouping (mapSelectorsOption f parameter) (e.mapSelectors f)
  | binary op matching left right =>
      binary op matching (left.mapSelectors f) (right.mapSelectors f)
  | negated e => negated (e.mapSelectors f)
  | paren e => paren (e.mapSelectors f)
  | number x => number x
  | string text => string text

def mapSelectorsList (f : Selector → Selector) : List Expr → List Expr
  | [] => []
  | e :: rest => e.mapSelectors f :: mapSelectorsList f rest

def mapSelectorsOption (f : Selector → Selector) : Option Expr → Option Expr
  | none => none
  | some e => some (e.mapSelectors f)

end

mutual

/-- Every selector of the tree: operands from left to right, and of an aggregation
the aggregated expression before the parameter. -/
def selectors : Expr → List Selector
  | selector s => [s]
  | range s _ => [s]
  | subquery e _ _ _ _ => e.selectors
  | call _ arguments => selectorsList arguments
  | aggregate _ _ parameter e => e.selectors ++ selectorsOption parameter
  | binary _ _ left right => left.selectors ++ right.selectors
  | negated e => e.selectors
  | paren e => e.selectors
  | number _ => []
  | string _ => []

def selectorsList : List Expr → List Selector
  | [] => []
  | e :: rest => e.selectors ++ selectorsList rest

def selectorsOption : Option Expr → List Selector
  | none => []
  | some e => e.selectors

end

def matcherGroups (e : Expr) : List (List Matcher) :=
  e.selectors.flatMap fun s => s.groups.toList

mutual

theorem selectors_mapSelectors (f : Selector → Selector) :
    (e : Expr) → (e.mapSelectors f).selectors = e.selectors.map f
  | selector _ => rfl
  | range _ _ => rfl
  | subquery e _ _ _ _ => selectors_mapSelectors f e
  | call _ arguments => selectorsList_mapSelectorsList f arguments
  | aggregate _ _ parameter e => by
      simp [mapSelectors, selectors, selectors_mapSelectors f e,
        selectorsOption_mapSelectorsOption f parameter]
  | binary _ _ left right => by
      simp [mapSelectors, selectors, selectors_mapSelectors f left,
        selectors_mapSelectors f right]
  | negated e => selectors_mapSelectors f e
  | paren e => selectors_mapSelectors f e
  | number _ => rfl
  | string _ => rfl

theorem selectorsList_mapSelectorsList (f : Selector → Selector) :
    (es : List Expr) → selectorsList (mapSelectorsList f es) = (selectorsList es).map f
  | [] => rfl
  | e :: rest => by
      simp [mapSelectorsList, selectorsList, selectors_mapSelectors f e,
        selectorsList_mapSelectorsList f rest]

theorem selectorsOption_mapSelectorsOption (f : Selector → Selector) :
    (e? : Option Expr) →
      selectorsOption (mapSelectorsOption f e?) = (selectorsOption e?).map f
  | none => rfl
  | some e => selectors_mapSelectors f e

end

end Expr

end MetricScope.PromQL
