/-!
# Types and functions

The types of values, and the signature of every function: the types of its arguments
and of its result. The last argument of a variadic function may be left out, and in a
few of them it may be repeated at will.
-/

set_option autoImplicit false

namespace MetricScope.PromQL

inductive ValueType where
  | scalar
  | vector
  | matrix
  | string
  deriving DecidableEq, Repr

namespace ValueType

def name : ValueType → String
  | scalar => "scalar"
  | vector => "vector"
  | matrix => "matrix"
  | string => "string"

end ValueType

structure Function where
  name : String
  arguments : List ValueType
  variadic : Bool
  result : ValueType
  deriving DecidableEq, Repr

namespace Function

open ValueType

def vectorFunctions : List String := [
  "abs", "absent", "acos", "acosh", "asin", "asinh", "atan", "atanh", "ceil", "cos",
  "cosh", "deg", "exp", "floor", "histogram_count", "histogram_sum", "histogram_avg",
  "histogram_stddev", "histogram_stdvar", "ln", "log10", "log2", "rad", "sgn", "sin",
  "sinh", "sort", "sort_desc", "sqrt", "tan", "tanh", "timestamp"]

def calendarFunctions : List String := [
  "days_in_month", "day_of_month", "day_of_week", "day_of_year", "hour", "minute",
  "month", "year"]

def rangeFunctions : List String := [
  "absent_over_time", "avg_over_time", "changes", "count_over_time", "delta", "deriv",
  "idelta", "increase", "irate", "last_over_time", "max_over_time", "min_over_time",
  "present_over_time", "rate", "resets", "stddev_over_time", "stdvar_over_time",
  "sum_over_time"]

def overRange (name : String) : Function := ⟨name, [matrix], false, vector⟩

def all : List Function :=
  vectorFunctions.map (⟨·, [vector], false, vector⟩) ++
  calendarFunctions.map (⟨·, [vector], true, vector⟩) ++
  rangeFunctions.map overRange ++ [
    ⟨"scalar", [vector], false, scalar⟩,
    ⟨"clamp", [vector, scalar, scalar], false, vector⟩,
    ⟨"clamp_max", [vector, scalar], false, vector⟩,
    ⟨"clamp_min", [vector, scalar], false, vector⟩,
    ⟨"histogram_fraction", [scalar, scalar, vector], false, vector⟩,
    ⟨"histogram_quantile", [scalar, vector], false, vector⟩,
    ⟨"double_exponential_smoothing", [matrix, scalar, scalar], false, vector⟩,
    ⟨"holt_winters", [matrix, scalar, scalar], false, vector⟩,
    ⟨"label_replace", [vector, string, string, string, string], false, vector⟩,
    ⟨"label_join", [vector, string, string, string], true, vector⟩,
    ⟨"predict_linear", [matrix, scalar], false, vector⟩,
    ⟨"quantile_over_time", [scalar, matrix], false, vector⟩,
    ⟨"round", [vector, scalar], true, vector⟩,
    ⟨"sort_by_label", [vector, string, string], true, vector⟩,
    ⟨"sort_by_label_desc", [vector, string, string], true, vector⟩,
    ⟨"pi", [], false, scalar⟩,
    ⟨"time", [], false, scalar⟩,
    ⟨"vector", [scalar], false, vector⟩]

def find? (name : String) : Option Function :=
  all.find? fun f => f.name == name

def isUnbounded (f : Function) : Bool :=
  f.name == "label_join" || f.name == "sort_by_label" || f.name == "sort_by_label_desc"

def argumentType? (f : Function) (place : Nat) : Option ValueType :=
  match f.arguments[place]? with
  | some type => some type
  | none => f.arguments.getLast?

end Function

end MetricScope.PromQL
