import MetricScope.Proofs.Merging.Tree
import MetricScope.Proofs.PromQL.Traces
import MetricScope.Proofs.RoundTrip

/-!
# Legible queries stay legible

Filters whose matchers can be read again are merged into a tree in which every selector has
a metric name. The tree stays one that reading gives, and its text is read back if it was
read back before.
-/

set_option autoImplicit false

namespace MetricScope

open PromQL

namespace LabelFilter

theorem mem_upsert {f : LabelFilter} {ms : List Matcher} {m : Matcher}
    (h : m ∈ f.upsert ms) : m = f.matcher ∨ m ∈ ms := by
  induction ms with
  | nil => exact .inl (List.mem_singleton.mp h)
  | cons n rest ih =>
    rw [upsert] at h
    split at h
    · exact (List.mem_cons.mp h).imp_right (List.mem_cons_of_mem n)
    · rcases List.mem_cons.mp h with rfl | h
      · exact .inr List.mem_cons_self
      · exact (ih h).imp_right (List.mem_cons_of_mem n)

/-- Every matcher of a merged group was in the group or comes from a filter. -/
theorem mem_mergeGroups {filters : List LabelFilter} {ms : List Matcher} {m : Matcher}
    (h : m ∈ mergeGroups filters ms) :
    m ∈ ms ∨ ∃ f ∈ filters, f.isNoop = false ∧ m = f.matcher := by
  induction filters using List.reverseRecOn with
  | nil => exact .inl h
  | append_singleton filters f ih =>
    have hearlier : m ∈ mergeGroups filters ms →
        m ∈ ms ∨ ∃ g ∈ filters ++ [f], g.isNoop = false ∧ m = g.matcher := by
      intro h
      rcases ih h with h | ⟨g, hg, hm⟩
      · exact .inl h
      · exact .inr ⟨g, List.mem_append_left _ hg, hm⟩
    rw [mergeGroups_snoc, mergeGroup] at h
    cases hf : f.isNoop with
    | true =>
      rw [hf, if_pos rfl] at h
      exact hearlier h
    | false =>
      rw [hf, if_neg (by simp)] at h
      rcases mem_upsert h with h | h
      · exact .inr ⟨f, by simp, hf, h⟩
      · exact hearlier h

theorem exists_mergeGroups_cons (filters : List LabelFilter) (m : Matcher) (ms : List Matcher) :
    ∃ m' ms', mergeGroups filters (m :: ms) = m' :: ms' ∧ m'.name = m.name := by
  induction filters using List.reverseRecOn with
  | nil => exact ⟨m, ms, rfl, rfl⟩
  | append_singleton filters f ih =>
    obtain ⟨m', ms', hmerged, hname⟩ := ih
    rw [mergeGroups_snoc, hmerged, mergeGroup, upsert]
    split
    · exact ⟨m', ms', rfl, hname⟩
    · split
      next hm =>
        exact ⟨f.matcher, ms', rfl, by rw [matcher_name, ← hm, hname]⟩
      · exact ⟨m', f.upsert ms', rfl, hname⟩

theorem mergeGroups_ne_nil (filters : List LabelFilter) {ms : List Matcher} (h : ms ≠ []) :
    mergeGroups filters ms ≠ [] := by
  obtain ⟨m, rest, rfl⟩ := List.exists_cons_of_ne_nil h
  obtain ⟨m', ms', hmerged, -⟩ := exists_mergeGroups_cons filters m rest
  simp [hmerged]

structure IsLegible (f : LabelFilter) : Prop where
  name : isLabelName f.name = true ∨ Plain f.name
  value : Plain f.value
  not_metric : f.name ≠ Selector.metricLabel
  pattern : f.matchType = .regexMatch ∨ f.matchType = .regexNotMatch →
    (Regex.Pattern.compile? (Regex.Pattern.anchored f.value)).isSome = true

theorem IsLegible.isRead {f : LabelFilter} (h : f.IsLegible) : f.matcher.IsRead := by
  have hread : ∀ pattern, Regex.Pattern.compile? (Regex.Pattern.anchored f.value) = some pattern →
      readPattern f.value = .ok pattern ∧ pattern? f.value = some pattern := by
    intro pattern hpattern
    constructor
    · rw [readPattern, hpattern]
    · rw [pattern?, hpattern]
  unfold Matcher.IsRead
  cases hkind : f.matchType with
  | equal => simp [matcher, op, hkind, MatchOp.symbol, Matcher.read]
  | notEqual => simp [matcher, op, hkind, MatchOp.symbol, Matcher.read]
  | regexMatch =>
    obtain ⟨pattern, hpattern⟩ := Option.isSome_iff_exists.mp (h.pattern (.inl hkind))
    obtain ⟨hvalue, hfilter⟩ := hread pattern hpattern
    simp only [matcher, op, hkind, hfilter, MatchOp.symbol, Matcher.read, hvalue]
    rfl
  | regexNotMatch =>
    obtain ⟨pattern, hpattern⟩ := Option.isSome_iff_exists.mp (h.pattern (.inr hkind))
    obtain ⟨hvalue, hfilter⟩ := hread pattern hpattern
    simp only [matcher, op, hkind, hfilter, MatchOp.symbol, Matcher.read, hvalue]
    rfl

end LabelFilter

namespace PromQL

def LeafMap.merge (filters : List LabelFilter) : LeafMap :=
  .ofGroups (·.map (LabelFilter.mergeGroups filters))

theorem Expr.mergeAll_eq_mapLeaves (filters : List LabelFilter) (e : Expr) :
    e.mergeAll filters = e.mapLeaves (.merge filters) := by
  rw [mergeAll_eq_mapSelectors, LeafMap.merge, mapLeaves_ofGroups]
  rfl

variable {filters : List LabelFilter}

theorem MatcherGroups.mem_matchers_merge {g : MatcherGroups} {m : Matcher}
    (h : m ∈ (g.map (LabelFilter.mergeGroups filters)).matchers) :
    m ∈ g.matchers ∨ ∃ f ∈ filters, f.isNoop = false ∧ m = f.matcher := by
  obtain ⟨ms, hms, hm⟩ := List.mem_flatten.mp h
  rw [MatcherGroups.toList_map] at hms
  obtain ⟨group, hgroup, rfl⟩ := List.mem_map.mp hms
  exact (LabelFilter.mem_mergeGroups hm).imp_left fun hm =>
    List.mem_flatten.mpr ⟨group, hgroup, hm⟩

section

variable (hf : ∀ f ∈ filters, f.isNoop = false → f.IsLegible)

include hf

theorem Selector.IsRead.check_merged {s : Selector} (hs : s.IsRead)
    (hm : s.metric.isSome = true) : (s.merged filters).check = .ok () := by
  obtain ⟨name, hname⟩ := Option.isSome_iff_exists.mp hm
  have hcheck := (check_eq_ok_iff hname).mp hs.check
  have hmetric : (s.merged filters).metric = some name := hname
  rw [check_eq_ok_iff hmetric]
  intro m hmem
  rcases MatcherGroups.mem_matchers_merge hmem with hmem | ⟨f, hfilter, hnoop, rfl⟩
  · exact hcheck m hmem
  · exact (hf f hfilter hnoop).not_metric

theorem Selector.IsRead.merged {s : Selector} (hs : s.IsRead)
    (hcheck : (s.merged filters).check = .ok ()) : (s.merged filters).IsRead where
  metric := hs.metric
  matchers m hmem := by
    rcases MatcherGroups.mem_matchers_merge hmem with hmem | ⟨f, hfilter, hnoop, rfl⟩
    · exact hs.matchers m hmem
    · exact (hf f hfilter hnoop).isRead
  alternatives hne ms hms := by
    rw [Selector.merged, MatcherGroups.toList_map] at hms
    obtain ⟨group, hgroup, rfl⟩ := List.mem_map.mp hms
    apply LabelFilter.mergeGroups_ne_nil
    refine hs.alternatives (fun hothers => hne ?_) group hgroup
    simp [Selector.merged, MatcherGroups.map, hothers]
  check := hcheck

/-- Merging such filters gives a tree that reading could give, if every selector passes its
check after the merge. -/
theorem Expr.Grammatical.mergeAll_of_check {e : Expr} (h : e.Grammatical)
    (hcheck : ∀ s ∈ e.selectors, s.IsRead → (s.merged filters).check = .ok ()) :
    (e.mergeAll filters).Grammatical := by
  rw [mergeAll_eq_mapLeaves]
  refine h.mapLeaves ⟨fun s hmem hs => ?_, fun m _ h => h, fun m _ op left right => rfl⟩
  rw [LeafMap.merge, LeafMap.selector_ofGroups]
  exact hs.merged hf (hcheck s hmem hs)

theorem Expr.Grammatical.mergeAll {e : Expr} (h : e.Grammatical)
    (hm : ∀ s ∈ e.selectors, s.metric.isSome = true) : (e.mergeAll filters).Grammatical :=
  h.mergeAll_of_check hf fun s hmem hs => hs.check_merged hf (hm s hmem)

end

/-- A leaf of the merged tree is a leaf of the tree, or a group of matchers after the merge. -/
theorem Expr.mem_leaves_mergeAll {e : Expr} {l : Leaf} (h : l ∈ (e.mergeAll filters).leaves) :
    l ∈ e.leaves ∨ ∃ g, .groups g ∈ e.leaves ∧
      l = .groups (g.map (LabelFilter.mergeGroups filters)) := by
  rw [mergeAll_eq_mapLeaves, leaves_mapLeaves] at h
  obtain ⟨leaf, hleaf, rfl⟩ := List.mem_map.mp h
  cases leaf with
  | groups g => exact .inr ⟨g, hleaf, rfl⟩
  | _ => exact .inl hleaf

theorem MatcherGroups.mem_texts_merge {g : MatcherGroups} {text : String}
    (h : text ∈ (Leaf.groups (g.map (LabelFilter.mergeGroups filters))).texts) :
    text ∈ (Leaf.groups g).texts ∨
      ∃ f ∈ filters, f.isNoop = false ∧ (text = f.name ∨ text = f.value) := by
  obtain ⟨m, hm, htext⟩ := List.mem_flatMap.mp h
  rcases mem_matchers_merge hm with hm | ⟨f, hf, hnoop, rfl⟩
  · exact .inl (List.mem_flatMap.mpr ⟨m, hm, htext⟩)
  · simp only [List.mem_cons, List.not_mem_nil, or_false] at htext
    exact .inr ⟨f, hf, hnoop, htext⟩

theorem MatcherGroups.IsLegible.merge {g : MatcherGroups} (h : g.IsLegible)
    (hf : ∀ f ∈ filters, f.isNoop = false → f.IsLegible)
    (hne : g.others ≠ [] → g.first ≠ []) :
    (g.map (LabelFilter.mergeGroups filters)).IsLegible where
  matchers m hm := by
    rcases mem_matchers_merge hm with hm | ⟨f, hfilter, hnoop, rfl⟩
    · exact h.matchers m hm
    · exact ⟨(hf f hfilter hnoop).name, (hf f hfilter hnoop).value⟩
  leading hothers m hm := by
    have hothers' : g.others ≠ [] := fun hnil => hothers (by simp [map, hnil])
    obtain ⟨first, rest, hfirst⟩ := List.exists_cons_of_ne_nil (hne hothers')
    obtain ⟨m', ms', hmerged, hname⟩ := LabelFilter.exists_mergeGroups_cons filters first rest
    rw [map, hfirst, hmerged, List.head?_cons, Option.mem_some] at hm
    rw [← hm, hname]
    exact h.leading hothers' first (by simp [hfirst])

/-- The merged tree has the parts of the tree, and the texts of filters. -/
theorem Expr.mem_parts_mergeAll {e : Expr} {part : String}
    (h : part ∈ (e.mergeAll filters).parts) :
    part ∈ e.parts ∨
      ∃ f ∈ filters, f.isNoop = false ∧ (part = f.name ∨ part = f.value) := by
  rcases List.mem_append.mp h with h | h
  · left
    rw [selectors_mergeAll, List.filterMap_map] at h
    exact List.mem_append_left _ h
  · obtain ⟨l, hl, hpart⟩ := List.mem_flatMap.mp h
    rcases mem_leaves_mergeAll hl with hl | ⟨g, hg, rfl⟩
    · exact .inl (List.mem_append_right _ (List.mem_flatMap.mpr ⟨l, hl, hpart⟩))
    · rcases MatcherGroups.mem_texts_merge hpart with hpart | hpart
      · exact .inl (List.mem_append_right _ (List.mem_flatMap.mpr ⟨_, hg, hpart⟩))
      · exact .inr hpart

end PromQL

namespace TemplateVariable

/-- A text in which nothing could be taken for a variable, or turns a token into another. -/
structure Clear (vars : List TemplateVariable) (text : String) : Prop where
  keeps : Keeps vars text.toList
  unmixed : Unmixed vars text.toList

theorem Unmixed.mono {vars fewer : List TemplateVariable} {text : List Char}
    (h : Unmixed vars text) (hsub : fewer ⊆ vars) : Unmixed fewer text where
  no_token := h.no_token
  no_extension hw := h.no_extension (hsub hw)

theorem Clear.mono {vars fewer : List TemplateVariable} {text : String} (h : Clear vars text)
    (hsub : fewer ⊆ vars) : Clear fewer text where
  keeps v hv := h.keeps v (hsub hv)
  unmixed := h.unmixed.mono hsub

end TemplateVariable

section

variable (vars : List TemplateVariable)

/-- A filter that can be merged into a legible query. -/
structure LabelFilter.IsClear (f : LabelFilter) : Prop where
  legible : f.IsLegible
  name : TemplateVariable.Clear vars f.name
  value : TemplateVariable.Clear vars f.value

/-- A tree that is written so that it can be read again and told from the variables. -/
structure PromQL.Expr.IsClear (e : Expr) : Prop where
  legible : ∀ l ∈ e.leaves, l.IsLegible
  keeps : ∀ l ∈ e.leaves, l.Keeps vars
  unmixed : ∀ part ∈ e.parts, TemplateVariable.Unmixed vars part.toList
  leading : ∀ g, .groups g ∈ e.leaves → g.others ≠ [] → g.first ≠ []

end

namespace PromQL.Expr

variable {vars : List TemplateVariable} {filters : List LabelFilter} {e : Expr}

theorem IsClear.isLegible (h : e.IsClear vars) (hg : e.Grammatical) :
    Query.IsLegible ⟨e, vars⟩ where
  leaves := h.legible
  keeps := h.keeps
  unmixed := unmixed_text hg h.unmixed

theorem IsClear.mergeAll (h : e.IsClear vars)
    (hf : ∀ f ∈ filters, f.isNoop = false → f.IsClear vars) :
    (e.mergeAll filters).IsClear vars where
  legible l hl := by
    rcases mem_leaves_mergeAll hl with hl | ⟨g, hg, rfl⟩
    · exact h.legible l hl
    · have hlegible : g.IsLegible := h.legible (.groups g) hg
      exact hlegible.merge (fun f hfilter hnoop => (hf f hfilter hnoop).legible) (h.leading g hg)
  keeps l hl text htext := by
    rcases mem_leaves_mergeAll hl with hl | ⟨g, hg, rfl⟩
    · exact h.keeps l hl text htext
    · rcases MatcherGroups.mem_texts_merge htext with htext | ⟨f, hfilter, hnoop, rfl | rfl⟩
      · exact h.keeps _ hg text htext
      · exact (hf f hfilter hnoop).name.keeps
      · exact (hf f hfilter hnoop).value.keeps
  unmixed part hpart := by
    rcases mem_parts_mergeAll hpart with hpart | ⟨f, hfilter, hnoop, rfl | rfl⟩
    · exact h.unmixed part hpart
    · exact (hf f hfilter hnoop).name.unmixed
    · exact (hf f hfilter hnoop).value.unmixed
  leading g hg hne := by
    rcases mem_leaves_mergeAll hg with hg | ⟨g', hg', heq⟩
    · exact h.leading g hg hne
    · obtain rfl := Leaf.groups.inj heq
      apply LabelFilter.mergeGroups_ne_nil
      refine h.leading g' hg' fun hothers => hne ?_
      simp [MatcherGroups.map, hothers]

theorem IsClear.mono {fewer : List TemplateVariable} (h : e.IsClear vars)
    (hsub : fewer ⊆ vars) : e.IsClear fewer where
  legible := h.legible
  keeps l hl text htext v hv := h.keeps l hl text htext v (hsub hv)
  unmixed part hpart := (h.unmixed part hpart).mono hsub
  leading := h.leading

end PromQL.Expr

theorem LabelFilter.IsClear.mono {vars fewer : List TemplateVariable} {f : LabelFilter}
    (h : f.IsClear vars) (hsub : fewer ⊆ vars) : f.IsClear fewer where
  legible := h.legible
  name := h.name.mono hsub
  value := h.value.mono hsub

/-- A clear query is read back with such filters merged into it. -/
theorem Query.readsBack_mergeAll {q : Query} {filters : List LabelFilter}
    (hg : q.expr.Grammatical) (hv : q.vars.Sublist TemplateVariable.all)
    (hm : ∀ s ∈ q.expr.selectors, s.metric.isSome = true) (hq : q.expr.IsClear q.vars)
    (hf : ∀ f ∈ filters, f.isNoop = false → f.IsClear q.vars) :
    (q.mergeAll filters).ReadsBack := by
  have hmerged : (q.mergeAll filters).expr.Grammatical :=
    hg.mergeAll (fun f hfilter hnoop => (hf f hfilter hnoop).legible) hm
  have hclear : (q.mergeAll filters).expr.IsClear q.vars := hq.mergeAll hf
  obtain ⟨vars, hparse, hsame⟩ := parse_text hmerged hv (hclear.isLegible hmerged)
  refine ⟨_, hparse, Expr.matcherGroups_canon _, ?_⟩
  rw [narrow_nil hparse, hsame]

end MetricScope
