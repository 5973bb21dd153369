import MetricScope.LabelFilter

/-!
# Aggregations that dashboards are made of

The shapes that most panels share, built as expressions. Rates go over the interval
that the dashboard chooses, which its stand-in duration stands for.
-/

set_option autoImplicit false

namespace MetricScope.Aggregation

open PromQL

def rateInterval : Duration := .ofSeconds 245287

def selector (metric : String) (filters : List LabelFilter) : Selector :=
  filters.foldl (fun s f => f.mergeSelector s) ⟨some metric, .empty, none, none⟩

def aggregate (op : Aggregator) (labels : List String) (e : Expr) : Expr :=
  .aggregate op (if labels.isEmpty then none else some (.including labels)) none e

def overInterval (function metric : String) (filters : List LabelFilter) : Expr :=
  .call (.overRange function) [.range (selector metric filters) rateInterval]

def sumBy (metric : String) (labels : List String) (filters : List LabelFilter) : Expr :=
  aggregate .sum labels (.selector (selector metric filters))

def avgBy (metric : String) (labels : List String) (filters : List LabelFilter) : Expr :=
  aggregate .avg labels (.selector (selector metric filters))

def maxBy (metric : String) (labels : List String) (filters : List LabelFilter) : Expr :=
  aggregate .max labels (.selector (selector metric filters))

def minBy (metric : String) (labels : List String) (filters : List LabelFilter) : Expr :=
  aggregate .min labels (.selector (selector metric filters))

def sumByRate (metric : String) (labels : List String) (filters : List LabelFilter) :
    Expr :=
  aggregate .sum labels (overInterval "rate" metric filters)

def sumByIncrease (metric : String) (labels : List String) (filters : List LabelFilter) :
    Expr :=
  aggregate .sum labels (overInterval "increase" metric filters)

def binary (op : Operator) (left right : Expr) : Expr :=
  .binary op .plain left right

structure RateTerm where
  metric : String
  labels : List String
  filters : List LabelFilter
  deriving DecidableEq, Repr

def RateTerm.expr (t : RateTerm) : Expr :=
  sumByRate t.metric t.labels t.filters

def errorCaseRatio (numerator denominator : RateTerm) : Expr :=
  binary .div numerator.expr denominator.expr

def errorCasePercentage (numerator denominator : RateTerm) : Expr :=
  binary .mul (errorCaseRatio numerator denominator) (.number (.ofNat 100))

/-- Lets the left side of a binary expression have many series for one of the right
side, from which it takes the labels in `group`. Other expressions stay as they are. -/
def groupLeft (matching : Grouping) (group : List String) : Expr → Expr
  | .binary op m left right =>
      .binary op ⟨m.returnBool, some matching, .manyToOne group⟩ left right
  | e => e

def onGroupLeft (e : Expr) (labels group : List String) : Expr :=
  groupLeft (.including labels) group e

def ignoringGroupLeft (e : Expr) (labels group : List String) : Expr :=
  groupLeft (.excluding labels) group e

end MetricScope.Aggregation
