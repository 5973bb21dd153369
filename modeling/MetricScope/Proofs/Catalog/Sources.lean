import MetricScope.Proofs.Aggregation
import MetricScope.Proofs.Catalog.Rendering

/-!
# What panels and variables are made of

Every panel shows a default query or an aggregation, with filters of its own, and every
variable has a series. All of them are written so that they can be read again, whatever is
merged into them later.
-/

set_option autoImplicit false

namespace MetricScope

open PromQL
open TemplateVariable (Unmarked)

instance (d : Duration) : Decidable d.IsLegible :=
  decidable_of_iff (0 < d.wholeMilliseconds ∧
      ∀ c ∈ Duration.counts TimeUnit.all d.wholeMilliseconds, c.1 < 2 ^ 32)
    ⟨fun h => ⟨h.1, h.2⟩, fun h => ⟨h.positive, h.counts⟩⟩

namespace PromQL

structure MatcherGroups.IsSimple (g : MatcherGroups) : Prop where
  single : g.others = []
  written : ∀ m ∈ g.first, isLabelName m.name = true ∧ Plain m.value
  unmarked : ∀ m ∈ g.first, Unmarked m.name ∧ Unmarked m.value
  distinct : (g.first.map Matcher.name).Nodup

instance (g : MatcherGroups) : Decidable g.IsSimple :=
  decidable_of_iff (g.others = [] ∧ (∀ m ∈ g.first, isLabelName m.name = true ∧ Plain m.value) ∧
      (∀ m ∈ g.first, Unmarked m.name ∧ Unmarked m.value) ∧ (g.first.map Matcher.name).Nodup)
    ⟨fun ⟨hsingle, hwritten, hunmarked, hdistinct⟩ => ⟨hsingle, hwritten, hunmarked, hdistinct⟩,
      fun h => ⟨h.single, h.written, h.unmarked, h.distinct⟩⟩

def Leaf.IsSimple : Leaf → Prop
  | groups g => g.IsSimple
  | grouping g => ∀ labels ∈ g.toList, ReadableLabels labels.labels
  | matching m => m = .plain
  | duration d => d.IsLegible ∧ '$' ∉ d.text.toList ∧ '_' ∉ d.text.toList
  | number x => Unmarked (numberText x)
  | instant _ | string _ => False

instance (l : Leaf) : Decidable l.IsSimple :=
  match l with
  | .groups g => inferInstanceAs (Decidable g.IsSimple)
  | .grouping g =>
      inferInstanceAs (Decidable (∀ labels ∈ g.toList, ReadableLabels labels.labels))
  | .matching m => inferInstanceAs (Decidable (m = .plain))
  | .duration d => inferInstanceAs
      (Decidable (d.IsLegible ∧ '$' ∉ d.text.toList ∧ '_' ∉ d.text.toList))
  | .number x => inferInstanceAs (Decidable (Unmarked (numberText x)))
  | .instant _ | .string _ => isFalse id

structure Expr.IsSimple (e : Expr) : Prop where
  metric : ∀ s ∈ e.selectors, ∃ name ∈ s.metric.toList, Unmarked name
  leaves : ∀ l ∈ e.leaves, l.IsSimple

instance (e : Expr) : Decidable e.IsSimple :=
  decidable_of_iff ((∀ s ∈ e.selectors, ∃ name ∈ s.metric.toList, Unmarked name) ∧
      ∀ l ∈ e.leaves, l.IsSimple)
    ⟨fun h => ⟨h.1, h.2⟩, fun h => ⟨h.metric, h.leaves⟩⟩

theorem MatcherGroups.IsSimple.isLegible {g : MatcherGroups} (h : g.IsSimple) : g.IsLegible where
  matchers m hm := by
    have hfirst : m ∈ g.first := by
      simpa [MatcherGroups.matchers, MatcherGroups.toList, h.single] using hm
    exact ⟨.inl (h.written m hfirst).1, (h.written m hfirst).2⟩
  leading hne := absurd h.single hne

theorem Leaf.IsSimple.isLegible {l : Leaf} (h : l.IsSimple) : l.IsLegible := by
  cases l with
  | groups g =>
    have hg : g.IsSimple := h
    exact hg.isLegible
  | grouping g => exact fun labels hlabels name hname =>
      (h labels (Option.mem_toList.mpr hlabels) name hname).1
  | matching m =>
    obtain rfl : m = .plain := h
    exact Expr.isOwnLeaf_plain.legible
  | duration d =>
    have hd : d.IsLegible ∧ _ := h
    exact hd.1
  | number x => trivial
  | instant i => exact absurd h id
  | string text => exact absurd h id

/-- No part of a simple leaf could be taken for a variable. -/
theorem Leaf.IsSimple.clear {l : Leaf} (h : l.IsSimple) :
    l.Keeps TemplateVariable.all ∧
      ∀ part ∈ l.parts, TemplateVariable.Unmixed TemplateVariable.all part.toList := by
  have hunmarked : l.parts = l.texts → (∀ text ∈ l.texts, Unmarked text) →
      l.Keeps TemplateVariable.all ∧
        ∀ part ∈ l.parts, TemplateVariable.Unmixed TemplateVariable.all part.toList :=
    fun hparts htexts => ⟨fun text htext => ((htexts text htext).clear _).keeps,
      fun part hpart => ((htexts part (hparts ▸ hpart)).clear _).unmixed⟩
  cases l with
  | groups g =>
    have hg : g.IsSimple := h
    refine hunmarked rfl fun text htext => ?_
    obtain ⟨m, hm, htext⟩ := List.mem_flatMap.mp htext
    have hfirst : m ∈ g.first := by
      simpa [MatcherGroups.matchers, MatcherGroups.toList, hg.single] using hm
    have hm := hg.unmarked m hfirst
    simp only [List.mem_cons, List.not_mem_nil, or_false] at htext
    rcases htext with rfl | rfl
    · exact hm.1
    · exact hm.2
  | grouping g =>
    refine hunmarked rfl fun text htext => ?_
    obtain ⟨labels, hlabels, htext⟩ := List.mem_flatMap.mp htext
    exact (h labels hlabels text htext).2
  | matching m =>
    obtain rfl : m = .plain := h
    exact ⟨Expr.isOwnLeaf_plain.keeps, Expr.isOwnLeaf_plain.unmixed⟩
  | duration d =>
    have hd : d.IsLegible ∧ '$' ∉ d.text.toList ∧ '_' ∉ d.text.toList := h
    refine ⟨fun text htext => absurd htext List.not_mem_nil, fun part hpart => ?_⟩
    obtain rfl : part = d.text := List.mem_singleton.mp hpart
    exact TemplateVariable.unmixed_of_not_mem _ hd.2.1 hd.2.2
  | number x =>
    refine hunmarked rfl fun text htext => ?_
    obtain rfl : text = numberText x := List.mem_singleton.mp htext
    exact h
  | instant i => exact absurd h id
  | string text => exact absurd h id

theorem Expr.IsSimple.isSettled {e : Expr} (h : e.IsSimple) (hg : e.Grammatical) :
    e.IsSettled where
  grammatical := hg
  clear :=
    { legible := fun l hl => (h.leaves l hl).isLegible
      keeps := fun l hl => (h.leaves l hl).clear.1
      unmixed := by
        intro part hpart
        rcases List.mem_append.mp hpart with hpart | hpart
        · obtain ⟨s, hs, hmetric⟩ := List.mem_filterMap.mp hpart
          obtain ⟨name, hname, hunmarked⟩ := h.metric s hs
          obtain rfl : name = part := by simpa [hmetric] using hname
          exact (hunmarked.clear _).unmixed
        · obtain ⟨l, hl, hpart⟩ := List.mem_flatMap.mp hpart
          exact (h.leaves l hl).clear.2 part hpart
      leading := by
        intro g hg hne
        have hsimple : g.IsSimple := h.leaves _ hg
        exact absurd hsimple.single hne }
  metric s hs := by
    obtain ⟨name, hname, -⟩ := h.metric s hs
    exact Option.isSome_of_mem (Option.mem_toList.mp hname)
  distinct g hg _ := by
    have hsimple : g.IsSimple := h.leaves _ hg
    exact hsimple.distinct

end PromQL

namespace Query

def readChars (chars : List Char) : Except (Halt ParseError) Expr :=
  match Lexer.initial.run (TemplateVariable.encodeChars chars).text with
  | .error cause => .error (.failed (.lexical cause))
  | .ok tokens => Expr.ofTokens tokens

theorem parse_eq (text : String) :
    parse text =
      match readChars text.toList with
      | .ok e => .ok ⟨e, (TemplateVariable.encodeChars text.toList).vars⟩
      | .error halt => .error (halt.map (.parse text)) := by
  cases hrun : Lexer.initial.run (TemplateVariable.encodeChars text.toList).text with
  | error cause =>
    simp [parse, TemplateVariable.encode, Expr.parse, tokenize, readChars, hrun]
  | ok tokens =>
    cases he : Expr.ofTokens tokens with
    | error halt =>
      simp [parse, TemplateVariable.encode, Expr.parse, tokenize, readChars, hrun, he]
    | ok e => simp [parse, TemplateVariable.encode, Expr.parse, tokenize, readChars, hrun, he]

theorem parse_of_readChars {text : String} {e : Expr} (h : readChars text.toList = .ok e) :
    parse text = .ok ⟨e, (TemplateVariable.encodeChars text.toList).vars⟩ := by
  rw [parse_eq, h]

end Query

namespace Catalog

def readsSimple (chars : List Char) : Bool :=
  match Query.readChars chars with
  | .error _ => false
  | .ok e => decide e.IsSimple

theorem exists_of_readsSimple {text : String} (h : readsSimple text.toList = true) :
    ∃ q, Query.parse text = .ok q ∧ q.expr.IsSettled := by
  rw [readsSimple] at h
  split at h
  · simp at h
  next e he =>
    have hparse := Query.parse_of_readChars he
    exact ⟨_, hparse,
      Expr.IsSimple.isSettled (of_decide_eq_true h) (Query.grammatical_of_parse hparse)⟩

theorem readsSimple_defaultQueries : ∀ p ∈ defaultQueries, readsSimple p.2.toList = true := by
  simp only [defaultQueries, List.forall_mem_append, Kubernetes.namedQueries,
    Blackbox.namedQueries, OtelCollector.namedQueries, Tempo.namedQueries, Tempo.latencyQuery,
    braced, String.join, List.foldl_cons, List.foldl_nil, List.forall_mem_cons,
    String.toList_append]
  repeat rw [String.toList_ofList]
  refine ⟨⟨⟨?_, ?_⟩, ?_⟩, ?_⟩
  all_goals decide +kernel

def defaultRegistry : Registry := registerDefaults .empty

theorem get_defaultRegistry : ∀ p ∈ defaultQueries, defaultRegistry.get p.1 = .ok p.2 := by
  decide +kernel

inductive QuerySource.IsSound : QuerySource → Prop
  | named {name : String} {filters : List LabelFilter} :
      name ∈ defaultQueries.map Prod.fst → (∀ f ∈ filters, f.IsReadable) →
      IsSound (.named name filters)
  | built {e : Expr} {filters : List LabelFilter} :
      Aggregation.IsBuilt e → (∀ f ∈ filters, f.IsReadable) → IsSound (.built e filters)

section

open Aggregation

theorem isBuilt_of_mem {build : String → List String → List LabelFilter → Expr}
    (hbuild : build ∈ aggregations) (metric : String) (labels : List String)
    (filters : List LabelFilter) (ht : (⟨metric, labels, filters⟩ : RateTerm).IsReadable) :
    IsBuilt (build metric labels filters) :=
  .aggregation ⟨build, hbuild, _, ht, rfl⟩

theorem isBuilt_podsPerNode : IsBuilt Kubernetes.podsPerNode := by
  refine .groupLeft rfl ?_ ?_ ?_ ?_ ?_
  · exact ⟨sumBy, by simp [aggregations],
      ⟨"kube_pod_info", ["node"], Kubernetes.fromStateMetrics⟩, by decide +kernel, rfl⟩
  · exact ⟨maxBy, by simp [aggregations],
      ⟨"kube_node_info", ["node", "kernel_version"], Kubernetes.fromStateMetrics⟩,
      by decide +kernel, rfl⟩
  all_goals decide +kernel

/-- Every panel query of the four dashboards is a default query or an aggregation. -/
theorem isSound_queries : ∀ b ∈ [Kubernetes.clusterResources, Blackbox.overview,
    OtelCollector.overview, Tempo.overview], ∀ q ∈ b.queries, q.source.IsSound := by
  simp only [Kubernetes.clusterResources, Kubernetes.headlines, Kubernetes.workloads,
    Kubernetes.namespaceUsage, Kubernetes.headline, Blackbox.overview, Blackbox.status,
    Blackbox.timings, OtelCollector.overview, OtelCollector.receivers,
    OtelCollector.receiverRate, OtelCollector.exporters, OtelCollector.process,
    Tempo.overview, Tempo.requests, Tempo.ingest, Tempo.backend, Blueprint.queries,
    PanelBlueprint.single, QueryBlueprint.named, QueryBlueprint.built, List.flatMap_cons,
    List.flatMap_nil, List.cons_append, List.nil_append, List.append_nil, List.forall_mem_cons]
  and_intros
  all_goals first
    | exact .named (by decide) (by decide +kernel)
    | exact .built isBuilt_podsPerNode (by decide +kernel)
    | exact .built (.percentage (by decide +kernel) (by decide +kernel)) (by decide +kernel)
    | exact .built (isBuilt_of_mem (by simp [aggregations]) _ _ _ (by decide +kernel))
        (by decide +kernel)
    | exact List.forall_mem_nil _

end

theorem readsSimple_series {b : Blueprint} {enabled : EnabledDashboards}
    (hb : b ∈ blueprints enabled) : ∀ v ∈ b.vars, readsSimple v.series.toList = true := by
  have h : ∀ b ∈ [Kubernetes.clusterResources, Blackbox.overview, OtelCollector.overview,
      Tempo.overview], ∀ v ∈ b.vars, readsSimple v.series.toList = true := by
    simp only [Kubernetes.clusterResources, Blackbox.overview, OtelCollector.overview,
      Tempo.overview, braced, List.forall_mem_cons, String.toList_append]
    repeat rw [String.toList_ofList]
    decide +kernel
  exact h b ((blueprints_sublist enabled).subset hb)

theorem isSound {b : Blueprint} {enabled : EnabledDashboards} (hb : b ∈ blueprints enabled) :
    ∀ q ∈ b.queries, q.source.IsSound :=
  isSound_queries b ((blueprints_sublist enabled).subset hb)

end Catalog

end MetricScope
