import MetricScope.Catalog.Context
import MetricScope.Proofs.Aggregation
import MetricScope.Proofs.Merging.Selection

/-!
# Filters given later

An aggregation merges its filters into its own selector, and filters that come later are
merged into every selector of a tree. Both go down to the same selectors, so later filters
may as well stand at the end of those that the aggregation is built with.
-/

set_option autoImplicit false

namespace MetricScope.Aggregation

open PromQL

variable (filters : List LabelFilter)

theorem merged_selector (metric : String) (own : List LabelFilter) :
    (selector metric own).merged filters = selector metric (own ++ filters) := by
  rw [← foldl_mergeSelector, selector, ← List.foldl_append, ← selector]

theorem mergeAll_aggregate (op : Aggregator) (labels : List String) (e : Expr) :
    (aggregate op labels e).mergeAll filters = aggregate op labels (e.mergeAll filters) := by
  rw [Expr.mergeAll_eq_mapSelectors, Expr.mergeAll_eq_mapSelectors]
  rfl

theorem mergeAll_overInterval (function metric : String) (own : List LabelFilter) :
    (overInterval function metric own).mergeAll filters =
      overInterval function metric (own ++ filters) := by
  rw [Expr.mergeAll_eq_mapSelectors, overInterval, overInterval, ← merged_selector]
  rfl

theorem mergeAll_binary (op : Operator) (left right : Expr) :
    (binary op left right).mergeAll filters =
      binary op (left.mergeAll filters) (right.mergeAll filters) := by
  simp only [Expr.mergeAll_eq_mapSelectors]
  rfl

theorem mergeAll_groupLeft (matching : Grouping) (group : List String) (e : Expr) :
    (groupLeft matching group e).mergeAll filters =
      groupLeft matching group (e.mergeAll filters) := by
  rw [Expr.mergeAll_eq_mapSelectors, Expr.mergeAll_eq_mapSelectors]
  cases e <;> rfl

theorem mergeAll_aggregation {build : String → List String → List LabelFilter → Expr}
    (h : build ∈ aggregations) (metric : String) (labels : List String)
    (own : List LabelFilter) :
    (build metric labels own).mergeAll filters = build metric labels (own ++ filters) := by
  have hselector : (Expr.selector (selector metric own)).mergeAll filters =
      .selector (selector metric (own ++ filters)) := by
    rw [mergeAll_selector, merged_selector]
  simp only [aggregations, List.mem_cons, List.not_mem_nil, or_false] at h
  rcases h with rfl | rfl | rfl | rfl | rfl | rfl
  · rw [sumBy, mergeAll_aggregate, hselector, ← sumBy]
  · rw [avgBy, mergeAll_aggregate, hselector, ← avgBy]
  · rw [maxBy, mergeAll_aggregate, hselector, ← maxBy]
  · rw [minBy, mergeAll_aggregate, hselector, ← minBy]
  · rw [sumByRate, mergeAll_aggregate, mergeAll_overInterval, ← sumByRate]
  · rw [sumByIncrease, mergeAll_aggregate, mergeAll_overInterval, ← sumByIncrease]

def RateTerm.withFilters (t : RateTerm) : RateTerm :=
  { t with filters := t.filters ++ filters }

theorem mergeAll_rateTerm (t : RateTerm) :
    t.expr.mergeAll filters = (t.withFilters filters).expr :=
  mergeAll_aggregation filters (by simp [aggregations]) t.metric t.labels t.filters

theorem mergeAll_ratio (numerator denominator : RateTerm) :
    (errorCaseRatio numerator denominator).mergeAll filters =
      errorCaseRatio (numerator.withFilters filters) (denominator.withFilters filters) := by
  rw [errorCaseRatio, mergeAll_binary, mergeAll_rateTerm, mergeAll_rateTerm, ← errorCaseRatio]

theorem mergeAll_percentage (numerator denominator : RateTerm) :
    (errorCasePercentage numerator denominator).mergeAll filters =
      errorCasePercentage (numerator.withFilters filters) (denominator.withFilters filters) := by
  have hnumber (x : Binary64) : (Expr.number x).mergeAll filters = .number x := by
    rw [Expr.mergeAll_eq_mapSelectors]
    rfl
  rw [errorCasePercentage, mergeAll_binary, mergeAll_ratio, hnumber, ← errorCasePercentage]

/-- Filters may be given to an aggregation, or to both terms of a ratio, or be merged in
later; merging passes through operators and through the labels that a side takes over,
whatever the expression. What a context writes of an aggregation is therefore the aggregation
that was built with the filters of the context, and of the panel, behind its own. -/
theorem narrowExpr_later :
    (∀ build ∈ aggregations, ∀ metric labels own filters,
      narrowExpr (build metric labels own) filters = build metric labels (own ++ filters) ∧
      ∀ ctx : Catalog.Context, ctx.builtQuery (build metric labels own) filters =
        renderExpr (build metric labels
          (own ++ [ctx.clusterFilter] ++ ctx.extraFilters ++ filters))) ∧
    (∀ numerator denominator filters,
      narrowExpr (errorCaseRatio numerator denominator) filters =
        errorCaseRatio (numerator.withFilters filters) (denominator.withFilters filters) ∧
      narrowExpr (errorCasePercentage numerator denominator) filters =
        errorCasePercentage (numerator.withFilters filters)
          (denominator.withFilters filters)) ∧
    (∀ op left right filters, narrowExpr (binary op left right) filters =
      binary op (narrowExpr left filters) (narrowExpr right filters)) ∧
    ∀ e labels group filters,
      narrowExpr (onGroupLeft e labels group) filters =
        onGroupLeft (narrowExpr e filters) labels group ∧
      narrowExpr (ignoringGroupLeft e labels group) filters =
        ignoringGroupLeft (narrowExpr e filters) labels group := by
  refine ⟨fun build h metric labels own filters => ⟨?_, fun ctx => ?_⟩,
    fun numerator denominator filters => ⟨?_, ?_⟩, fun op left right filters => ?_,
    fun e labels group filters => ⟨?_, ?_⟩⟩
  · exact mergeAll_aggregation filters h metric labels own
  · have hscope : own ++ [ctx.clusterFilter] ++ ctx.extraFilters ++ filters =
        own ++ ctx.scope filters := by
      simp [Catalog.Context.scope]
    rw [hscope, ← mergeAll_aggregation _ h]
    rfl
  · exact mergeAll_ratio filters numerator denominator
  · exact mergeAll_percentage filters numerator denominator
  · exact mergeAll_binary filters op left right
  · exact mergeAll_groupLeft filters (.including labels) group e
  · exact mergeAll_groupLeft filters (.excluding labels) group e

/-- Later filters that ask for nothing, for a label that is there and for another one. -/
theorem narrowExpr_later_increase :
    sumByIncrease ∈ aggregations ∧
    narrowExpr (sumByIncrease "errors_total" ["job"] [.equal "env" "a", .equal "env" "b"])
        [.equal "zone" "", .regex "env" "[", .equal "job" "x"] =
      sumByIncrease "errors_total" ["job"] ([.equal "env" "a", .equal "env" "b"] ++
        [.equal "zone" "", .regex "env" "[", .equal "job" "x"]) ∧
    renderExpr (sumByIncrease "errors_total" ["job"] ([.equal "env" "a", .equal "env" "b"] ++
        [.equal "zone" "", .regex "env" "[", .equal "job" "x"])) =
      "sum by (job) (increase(errors_total\x7benv=~\"[\",job=\"x\"\x7d[$__rate_interval]))" :=
  ⟨by simp [aggregations],
    (narrowExpr_later.1 sumByIncrease (by simp [aggregations]) _ _ _ _).1, by decide +kernel⟩

end MetricScope.Aggregation
