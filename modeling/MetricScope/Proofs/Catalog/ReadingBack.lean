import MetricScope.Proofs.Catalog.Sources

/-!
# Dashboards whose queries are read back

A configuration without overrides always gives dashboards. Their queries are read as the
trees from which they were written, if the label of the cluster and the filters of the
deployment can be written between quotes and are told from the variables.
-/

set_option autoImplicit false

namespace MetricScope

open PromQL

/-- The text of the query is read as one with the same groups of matchers, up to the order of
the matchers inside a group. -/
def Query.KeepsMatchers (q : Query) : Prop :=
  ∃ q', Query.parse q.text = .ok q' ∧
    List.Forall₂ List.Perm q'.expr.matcherGroups q.expr.matcherGroups

theorem Query.keepsMatchers_iff {q : Query} :
    q.KeepsMatchers ↔ ∃ e, readChars (TemplateVariable.decodeChars q.vars q.expr.text.toList) =
        .ok e ∧ List.Forall₂ List.Perm e.matcherGroups q.expr.matcherGroups := by
  rw [KeepsMatchers, text, TemplateVariable.decode, parse_eq, String.toList_ofList]
  cases readChars (TemplateVariable.decodeChars q.vars q.expr.text.toList) with
  | error cause => simp
  | ok e => simp

instance (q : Query) : Decidable q.KeepsMatchers :=
  match h : Query.readChars (TemplateVariable.decodeChars q.vars q.expr.text.toList) with
  | .error cause => .isFalse fun hq => by simp [Query.keepsMatchers_iff, h] at hq
  | .ok e =>
    decidable_of_iff (List.Forall₂ List.Perm e.matcherGroups q.expr.matcherGroups)
      (by simp [Query.keepsMatchers_iff, h])

theorem Query.ReadsBack.keepsMatchers {q : Query} (h : q.ReadsBack) : q.KeepsMatchers := by
  obtain ⟨q', hparse, hgroups, -⟩ := h
  exact ⟨q', hparse, hgroups⟩

namespace Catalog

def plainContext (c : Config) : Context where
  clusterLabel := c.clusterLabel
  datasource := c.datasource
  project := c.project
  extraFilters := c.extraFilters
  registry := defaultRegistry

section

variable {c : Config}

theorem isClear_of_mem_scope {filters : List LabelFilter} (hp : ∀ f ∈ filters, f.IsReadable)
    (hf : ∀ f ∈ (plainContext c).clusterFilter :: c.extraFilters, f.isNoop = false →
      f.IsClear TemplateVariable.all) :
    ∀ f ∈ (plainContext c).scope filters, f.isNoop = false →
      f.IsClear TemplateVariable.all := by
  intro f hmem hnoop
  rw [Context.scope, ← List.cons_append] at hmem
  rcases List.mem_append.mp hmem with hmem | hmem
  · exact hf f hmem hnoop
  · exact (hp f hmem).isSettled.clear

/-- Such filters can be merged into a settled query that was read. -/
theorem keepsMatchers_mergeAll {e : Expr} {vars : List TemplateVariable}
    {filters : List LabelFilter} (he : e.IsSettled) (hv : vars.Sublist TemplateVariable.all)
    (hf : ∀ f ∈ filters, f.isNoop = false → f.IsClear TemplateVariable.all) :
    ((⟨e, vars⟩ : Query).mergeAll filters).KeepsMatchers :=
  (Query.readsBack_mergeAll he.grammatical hv he.metric (he.clear.mono hv.subset)
    fun f hmem hnoop => (hf f hmem hnoop).mono hv.subset).keepsMatchers

/-- A sound source always gives a query, which is read back if the filters are clear. -/
theorem QuerySource.IsSound.exists_narrowed {s : QuerySource} (hs : s.IsSound) :
    ∃ q, s.narrowed (plainContext c) = .ok q ∧
      ((∀ f ∈ (plainContext c).clusterFilter :: c.extraFilters, f.isNoop = false →
        f.IsClear TemplateVariable.all) → q.KeepsMatchers) := by
  cases hs with
  | @named name filters hname hp =>
    obtain ⟨⟨_, text⟩, hmem, rfl⟩ := List.mem_map.mp hname
    obtain ⟨q, hparse, hsettled⟩ := exists_of_readsSimple (readsSimple_defaultQueries _ hmem)
    have hget : (plainContext c).registry.get _ = .ok text := get_defaultRegistry _ hmem
    refine ⟨q.mergeAll ((plainContext c).scope filters), ?_, fun hf => ?_⟩
    · rw [narrowed, Context.resolve_eq_ok_iff.mpr ⟨text, hget, hparse⟩]
      rfl
    · exact keepsMatchers_mergeAll hsettled (Query.vars_sublist_of_parse hparse)
        (isClear_of_mem_scope hp hf)
  | @built e filters he hp =>
    exact ⟨_, rfl, fun hf => keepsMatchers_mergeAll he.isSettled (List.Sublist.refl _)
      (isClear_of_mem_scope hp hf)⟩

theorem VariableBlueprint.exists_narrowed {v : VariableBlueprint}
    (hv : readsSimple v.series.toList = true) :
    ∃ q, v.narrowed (plainContext c) = .ok q ∧
      (((plainContext c).clusterFilter.isNoop = false →
        (plainContext c).clusterFilter.IsClear TemplateVariable.all) → q.KeepsMatchers) := by
  obtain ⟨q, hparse, hsettled⟩ := exists_of_readsSimple hv
  refine ⟨q.mergeAll [(plainContext c).clusterFilter], ?_, fun hf => ?_⟩
  · rw [narrowed]
    simp only [bind, Except.bind, hparse, pure, Except.pure]
  · apply keepsMatchers_mergeAll hsettled (Query.vars_sublist_of_parse hparse)
    intro f hmem hnoop
    obtain rfl := List.mem_singleton.mp hmem
    exact hf hnoop

end

def Written (source : Except (Halt Error) Query) (text : String) : Prop :=
  ∃ q, source = .ok q ∧ text = q.text ∧ q.KeepsMatchers

/-- The queries of all panels and of all variables over series are written from those of
the blueprint. -/
structure Blueprint.IsWritten (ctx : Context) (b : Blueprint) (d : Dashboard) : Prop where
  queries : List.Forall₂ (fun q t => Written (q.source.narrowed ctx) t.expr) b.queries d.queries
  vars : ∃ vars, d.vars = ctx.clusterVariable :: vars ∧
    List.Forall₂ (fun v t => Written (v.narrowed ctx) t.matcherQuery) b.vars vars

theorem exists_build (c : Config) (enabled : EnabledDashboards) :
    ∃ dashboards, build (plainContext c) enabled = .ok dashboards := by
  apply exists_mapM_eq_ok
  intro b hb
  apply b.exists_render
  · intro q hq
    obtain ⟨narrowed, hnarrowed, -⟩ := (isSound hb q hq).exists_narrowed (c := c)
    exact ⟨_, QuerySource.render_of_narrowed hnarrowed⟩
  · intro v hv
    obtain ⟨narrowed, hnarrowed, -⟩ :=
      VariableBlueprint.exists_narrowed (c := c) (readsSimple_series hb v hv)
    exact ⟨_, VariableBlueprint.render_of_narrowed hnarrowed⟩

end Catalog

end MetricScope
