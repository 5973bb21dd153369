import MetricScope.Proofs.Catalog.ReadingBack
import MetricScope.Proofs.Catalog.Rendering
import MetricScope.Proofs.Merging.Tree

/-!
# Every query of a catalog is scoped

Every query of every dashboard is written from the tree of its source with the filters of
the context merged into it: whatever texts are in force and whatever the filters are, each
group of matchers starts, on every label that the filters ask for, with what the last filter
on the label asks for.
-/

set_option autoImplicit false

namespace MetricScope

open PromQL

namespace LabelFilter

theorem find?_mergeGroups {filters : List LabelFilter} {label : String} {f : LabelFilter}
    (h : lastOn? filters label = some f) (group : List Matcher) :
    (mergeGroups filters group).find? (fun m => m.name == label) = some f.matcher := by
  rw [← List.head?_filter, filter_mergeGroups, h]
  rfl

/-- A filter that asks for something is the last on its label if those behind it ask for
nothing or for other labels. -/
theorem lastOn?_cons_of_forall {f : LabelFilter} {filters : List LabelFilter}
    (hf : f.isNoop = false) (h : ∀ g ∈ filters, g.isNoop = false → g.name ≠ f.name) :
    lastOn? (f :: filters) f.name = some f := by
  have hnone : filters.reverse.find? (fun g => !g.isNoop && g.name == f.name) = none := by
    rw [List.find?_eq_none]
    intro g hg hmatch
    rw [Bool.and_eq_true, Bool.not_eq_true', beq_iff_eq] at hmatch
    exact h g (List.mem_reverse.mp hg) hmatch.1 hmatch.2
  simp [lastOn?, List.find?_append, hnone, hf]

end LabelFilter

/-- A text that is written from the tree of a query after filters were merged into it. -/
structure Query.IsNarrowed (filters : List LabelFilter) (source : Query) (tree : Expr)
    (text : String) : Prop where
  written : text = TemplateVariable.decode source.vars tree.text
  same_but_matchers : tree.withoutMatchers = source.expr.withoutMatchers
  first_matcher {s : Selector} (hs : s.OccursIn tree) {group : List Matcher}
    (hg : group ∈ s.groups.toList) {label : String} {f : LabelFilter}
    (hf : LabelFilter.lastOn? filters label = some f) :
    group.find? (fun m => m.name == label) = some f.matcher

theorem Query.isNarrowed_mergeAll (filters : List LabelFilter) (q : Query) :
    q.IsNarrowed filters (q.expr.mergeAll filters) (q.mergeAll filters).text where
  written := rfl
  same_but_matchers := Expr.withoutMatchers_mergeAll filters q.expr
  first_matcher := by
    intro s hs group hg label f hf
    rw [Selector.occursIn_iff, Expr.selectors_mergeAll] at hs
    obtain ⟨s, -, rfl⟩ := List.mem_map.mp hs
    rw [Selector.merged, MatcherGroups.toList_map] at hg
    obtain ⟨group, -, rfl⟩ := List.mem_map.mp hg
    exact LabelFilter.find?_mergeGroups hf group

namespace Catalog

def QuerySource.query (ctx : Context) : QuerySource → Except (Halt Error) Query
  | named name _ => ctx.resolve name
  | built e _ => .ok (Query.ofExpr e)

def QuerySource.filters : QuerySource → List LabelFilter
  | named _ filters => filters
  | built _ filters => filters

def Context.clusterMatcher (ctx : Context) : Matcher :=
  ⟨ctx.clusterLabel, .equal, clusterVariableToken⟩

/-- Filters behind that for the cluster leave its label alone. -/
def Context.Spares (ctx : Context) (filters : List LabelFilter) : Prop :=
  ctx.clusterLabel ≠ "" ∧ ∀ f ∈ filters, f.isNoop = false → f.name ≠ ctx.clusterLabel

/-- The text is the scoped text of the query. If the filters leave the label of the cluster
alone, every group of matchers selects the cluster. -/
def Context.Scopes (ctx : Context) (filters : List LabelFilter) (source : Query)
    (text : String) : Prop :=
  ∃ tree, source.IsNarrowed (ctx.clusterFilter :: filters) tree text ∧
    (ctx.Spares filters →
      ∀ s : Selector, s.OccursIn tree → ∀ group ∈ s.groups.toList, ctx.clusterMatcher ∈ group)

theorem Context.scopes_mergeAll (ctx : Context) (filters : List LabelFilter) (source : Query) :
    ctx.Scopes filters source (source.mergeAll (ctx.clusterFilter :: filters)).text := by
  have h := source.isNarrowed_mergeAll (ctx.clusterFilter :: filters)
  refine ⟨_, h, ?_⟩
  rintro ⟨hlabel, hspared⟩ s hs group hg
  have hnoop : ctx.clusterFilter.isNoop = false := by
    simpa [LabelFilter.isNoop, clusterFilter, LabelFilter.equal, clusterVariableToken]
      using hlabel
  have hlast : LabelFilter.lastOn? (ctx.clusterFilter :: filters) ctx.clusterLabel =
      some ctx.clusterFilter :=
    LabelFilter.lastOn?_cons_of_forall hnoop hspared
  exact List.mem_of_find?_eq_some (h.first_matcher hs hg hlast)

theorem QuerySource.scopes_of_render {ctx : Context} {s : QuerySource} {text : String}
    (h : s.render ctx = .ok text) :
    ∃ q, s.query ctx = .ok q ∧ ctx.Scopes (ctx.extraFilters ++ s.filters) q text := by
  cases s with
  | built e filters =>
    obtain rfl := Except.ok.inj h
    exact ⟨_, rfl, ctx.scopes_mergeAll _ _⟩
  | named name filters =>
    rw [render, Context.namedQuery] at h
    cases hget : ctx.registry.get name with
    | error cause => simp [hget] at h
    | ok source =>
      cases hparse : Query.parse source with
      | error cause => simp [hget, narrow, hparse] at h
      | ok q =>
        simp only [hget, narrow, hparse, Except.ok.injEq] at h
        subst h
        refine ⟨q, ?_, ctx.scopes_mergeAll _ _⟩
        exact Context.resolve_eq_ok_iff.mpr ⟨source, hget, hparse⟩

/-- A variable over a series is scoped to the cluster alone. -/
theorem Context.scopes_of_variableFrom {ctx : Context} {name displayName series : String}
    {v : Variable} (h : ctx.variableFrom name displayName series = .ok v) :
    ∃ q, Query.parse series = .ok q ∧ ctx.Scopes [] q v.matcherQuery := by
  rw [variableFrom, narrow] at h
  cases hparse : Query.parse series with
  | error cause => simp [hparse] at h
  | ok q =>
    simp only [hparse, Except.ok.injEq] at h
    subst h
    exact ⟨q, rfl, ctx.scopes_mergeAll [] q⟩

structure Blueprint.IsScoped (ctx : Context) (b : Blueprint) (d : Dashboard) : Prop where
  queries : List.Forall₂
    (fun q t => ∃ source, q.source.query ctx = .ok source ∧
      ctx.Scopes (ctx.extraFilters ++ q.source.filters) source t.expr) b.queries d.queries
  vars : ∃ vars, d.vars = ctx.clusterVariable :: vars ∧ List.Forall₂
    (fun v t => ∃ source, Query.parse v.series = .ok source ∧
      ctx.Scopes [] source t.matcherQuery) b.vars vars

theorem Blueprint.isScoped_of_render {ctx : Context} {b : Blueprint} {d : Dashboard}
    (h : b.render ctx = .ok d) : b.IsScoped ctx d where
  queries := by
    refine (b.forall₂_queries_of_render h).imp fun q t hq => ?_
    obtain ⟨text, htext, rfl⟩ := QueryBlueprint.render_eq_ok_iff.mp hq
    exact QuerySource.scopes_of_render htext
  vars := by
    obtain ⟨vars, hd, hvars⟩ := b.forall₂_vars_of_render h
    exact ⟨vars, hd, hvars.imp fun v t hv => Context.scopes_of_variableFrom hv⟩

/-- Whenever dashboards are built, all their queries are scoped, and so is every variable
over a series that the context gives. -/
theorem build_isScoped (ctx : Context) :
    (∀ enabled dashboards, build ctx enabled = .ok dashboards →
      List.Forall₂ (Blueprint.IsScoped ctx) (blueprints enabled) dashboards) ∧
    ∀ name displayName series v, ctx.variableFrom name displayName series = .ok v →
      ∃ source, Query.parse series = .ok source ∧ ctx.Scopes [] source v.matcherQuery := by
  refine ⟨fun enabled dashboards h => ?_, fun name displayName series v h =>
    Context.scopes_of_variableFrom h⟩
  exact (mapM_eq_ok_iff.mp h).imp fun b d hd => Blueprint.isScoped_of_render hd

def collidingConfig : Config :=
  { Config.standard with
    extraFilters := [.equal "cluster" "a", .regex "env" "[", .equal "env" "b"] }

theorem build_isScoped_colliding :
    ∃ dashboards v,
      build (plainContext collidingConfig) .every = .ok dashboards ∧
      List.Forall₂ (Blueprint.IsScoped (plainContext collidingConfig)) (blueprints .every)
        dashboards ∧
      (plainContext collidingConfig).variableFrom "job" "Job" "up\x7bcluster=\"a\"\x7d" =
        .ok v ∧
      ∃ source, Query.parse "up\x7bcluster=\"a\"\x7d" = .ok source ∧
        (plainContext collidingConfig).Scopes [] source v.matcherQuery := by
  obtain ⟨dashboards, hbuild⟩ := exists_build collidingConfig .every
  have htext : narrow "up\x7bcluster=\"a\"\x7d" [(plainContext collidingConfig).clusterFilter] =
      .ok "up\x7bcluster=\"$cluster\"\x7d" := by
    decide +kernel
  have hv : (plainContext collidingConfig).variableFrom "job" "Job"
      "up\x7bcluster=\"a\"\x7d" =
        .ok ⟨"job", "Job", "job", "up\x7bcluster=\"$cluster\"\x7d"⟩ := by
    rw [Context.variableFrom, htext]
  obtain ⟨hdashboards, hvariable⟩ := build_isScoped (plainContext collidingConfig)
  exact ⟨dashboards, _, hbuild, hdashboards _ _ hbuild, hv, hvariable _ _ _ _ hv⟩

end Catalog

end MetricScope
