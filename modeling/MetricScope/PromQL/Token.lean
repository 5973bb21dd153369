import MetricScope.PromQL.Operator
import MetricScope.PromQL.Aggregator

/-!
# Tokens

A keyword keeps the text it was written with, since most keywords can stand for
a metric or a label of that name.
-/

set_option autoImplicit false

namespace MetricScope.PromQL

inductive MatchSymbol where
  | equal | notEqual | regexMatch | regexNotMatch
  deriving DecidableEq, Repr

namespace MatchSymbol

def text : MatchSymbol → String
  | equal => "="
  | notEqual => "!="
  | regexMatch => "=~"
  | regexNotMatch => "!~"

end MatchSymbol

inductive Keyword where
  | aggregator (op : Aggregator)
  | operator (op : Operator)
  | offset | byLabels | withoutLabels | onLabels | ignoringLabels
  | groupLeft | groupRight | bool | start | finish
  /-- Words that are set apart and stand in no rule of the grammar. -/
  | reserved
  deriving DecidableEq, Repr

namespace Keyword

def ofWord? (word : String) : Option Keyword :=
  match word with
  | "and" => some (operator .intersection)
  | "or" => some (operator .union)
  | "unless" => some (operator .complement)
  | "atan2" => some (operator .atan2)
  | "offset" => some offset
  | "by" => some byLabels
  | "without" => some withoutLabels
  | "on" => some onLabels
  | "ignoring" => some ignoringLabels
  | "group_left" => some groupLeft
  | "group_right" => some groupRight
  | "bool" => some bool
  | "start" => some start
  | "end" => some finish
  | "limitk" | "limit_ratio" | "smoothed" | "anchored" => some reserved
  | word => (Aggregator.ofName? word).map aggregator

def canNameMetric : Keyword → Bool
  | aggregator _ | byLabels | withoutLabels | offset | start | finish => true
  | operator .intersection | operator .union | operator .complement => true
  | _ => false

def canNameLabel : Keyword → Bool
  | aggregator _ | operator _ | byLabels | onLabels | ignoringLabels => true
  | groupLeft | groupRight | bool | offset | start | finish => true
  | withoutLabels | reserved => false

end Keyword

inductive Token where
  | identifier (name : String)
  /-- A name with a colon. -/
  | metricIdentifier (name : String)
  | keyword (word : Keyword) (text : String)
  | number (text : String)
  | duration (text : String)
  /-- The characters between the quotes, escapes as they stand. -/
  | string (quote : Char) (body : String)
  | operator (op : Operator)
  | matching (symbol : MatchSymbol)
  /-- The word between two alternatives inside braces. -/
  | alternative
  | at | comma | colon
  | openParen | closeParen
  | openBrace | closeBrace
  | openBracket | closeBracket
  deriving DecidableEq, Repr

end MetricScope.PromQL
