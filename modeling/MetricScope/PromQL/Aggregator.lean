import MetricScope.PromQL.Function

/-!
# Aggregation operators
-/

set_option autoImplicit false

namespace MetricScope.PromQL

inductive Aggregator where
  | avg | bottomk | count | countValues | group | max | min
  | quantile | stddev | stdvar | sum | topk
  deriving DecidableEq, Repr

namespace Aggregator

def name : Aggregator → String
  | avg => "avg" | bottomk => "bottomk" | count => "count"
  | countValues => "count_values" | group => "group" | max => "max" | min => "min"
  | quantile => "quantile" | stddev => "stddev" | stdvar => "stdvar"
  | sum => "sum" | topk => "topk"

def all : List Aggregator :=
  [avg, bottomk, count, countValues, group, max, min, quantile, stddev, stdvar, sum, topk]

theorem mem_all (op : Aggregator) : op ∈ all := by
  cases op <;> decide

def ofName? (name : String) : Option Aggregator :=
  all.find? fun op => op.name == name

def parameter? : Aggregator → Option ValueType
  | bottomk | topk | quantile => some .scalar
  | countValues => some .string
  | _ => none

def arity (op : Aggregator) : Nat :=
  if op.parameter?.isSome then 2 else 1

end Aggregator

end MetricScope.PromQL
