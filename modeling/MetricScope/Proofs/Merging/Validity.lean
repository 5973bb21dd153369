import MetricScope.Proofs.Aggregation
import MetricScope.Proofs.Merging.Tree

/-!
# Filters that keep a query valid

A selector without a metric name needs a matcher that rejects the empty value, and a filter
may overwrite the only one. Filters that leave one in every such selector can be merged into
a query that is read back: the result is read back as well.
-/

set_option autoImplicit false

namespace MetricScope

open PromQL

namespace PromQL.Selector

/-- A selector without a metric name has a matcher that rejects the empty value. -/
def RejectsEmpty (s : Selector) : Prop :=
  s.metric = none → ∃ m ∈ s.groups.matchers, m.accepts "" = false

instance (s : Selector) : Decidable s.RejectsEmpty :=
  inferInstanceAs (Decidable (_ → _))

theorem check_eq_ok_iff_of_none {s : Selector} (h : s.metric = none) :
    s.check = .ok () ↔ ∃ m ∈ s.groups.matchers, m.accepts "" = false := by
  rw [check, h]
  dsimp only
  split
  next hall =>
    rw [List.all_eq_true] at hall
    refine ⟨fun hok => absurd hok (by simp), ?_⟩
    rintro ⟨m, hm, hrejects⟩
    exact absurd (hall m hm) (by simp [hrejects])
  next hall =>
    refine ⟨fun _ => ?_, fun _ => rfl⟩
    simpa using hall

/-- One filter that rejects the empty value is enough for every selector. -/
theorem RejectsEmpty.of_filter {s : Selector} {filters : List LabelFilter}
    {f : LabelFilter} (label : String) (hf : LabelFilter.lastOn? filters label = some f)
    (hrejects : f.matcher.accepts "" = false) : (s.merged filters).RejectsEmpty := by
  intro _
  refine ⟨f.matcher, ?_, hrejects⟩
  have hfirst : f.matcher ∈ LabelFilter.mergeGroups filters s.groups.first := by
    have hmem : f.matcher ∈ (LabelFilter.mergeGroups filters s.groups.first).filter
        (fun m => m.name == label) := by
      rw [LabelFilter.filter_mergeGroups, hf]
      exact List.mem_cons_self
    exact (List.mem_filter.mp hmem).1
  exact List.mem_flatten.mpr ⟨_, List.mem_cons_self, hfirst⟩

end PromQL.Selector

namespace Query

/-- Filters keep a clear query valid if every selector without a metric name keeps a matcher
that rejects the empty value. -/
theorem readsBack_narrowed {text : String} {q : Query} {filters : List LabelFilter}
    (hq : parse text = .ok q) (hclear : q.expr.IsClear q.vars)
    (hf : ∀ f ∈ filters, f.isNoop = false → f.IsClear q.vars)
    (hs : ∀ s ∈ q.expr.selectors, (s.merged filters).RejectsEmpty) :
    narrow text filters = .ok (q.mergeAll filters).text ∧ (q.mergeAll filters).ReadsBack := by
  have hlegible : ∀ f ∈ filters, f.isNoop = false → f.IsLegible :=
    fun f hmem hnoop => (hf f hmem hnoop).legible
  have hcheck : ∀ s ∈ q.expr.selectors, s.IsRead → (s.merged filters).check = .ok () := by
    intro s hmem hread
    cases hm : s.metric with
    | some name => exact hread.check_merged hlegible (by rw [hm]; rfl)
    | none =>
      have hmetric : (s.merged filters).metric = none := hm
      exact (Selector.check_eq_ok_iff_of_none hmetric).mpr (hs s hmem hmetric)
  have hmerged : (q.mergeAll filters).expr.Grammatical :=
    (grammatical_of_parse hq).mergeAll_of_check hlegible hcheck
  have hmergedClear : (q.mergeAll filters).expr.IsClear q.vars := hclear.mergeAll hf
  have hvars := vars_sublist_of_parse hq
  obtain ⟨vars, hparse, hsame⟩ := parse_text hmerged hvars (hmergedClear.isLegible hmerged)
  refine ⟨by rw [narrow, hq], _, hparse, Expr.matcherGroups_canon _, ?_⟩
  rw [narrow_nil hparse, hsame]

/-- The only matcher that rejected the empty value gives way, and the other one is overwritten
by a matcher that does. -/
theorem readsBack_narrowed_nameless :
    ∃ q, parse "\x7ba=\"1\",b=\"\"\x7d" = .ok q ∧ q.expr.IsClear q.vars ∧
      (∀ f ∈ [LabelFilter.regex "a" ".*", .equal "b" "$job"], f.isNoop = false →
        f.IsClear q.vars) ∧
      (∀ s ∈ q.expr.selectors,
        (s.merged [LabelFilter.regex "a" ".*", .equal "b" "$job"]).RejectsEmpty) ∧
      narrow "\x7ba=\"1\",b=\"\"\x7d" [.regex "a" ".*", .equal "b" "$job"] =
        .ok (q.mergeAll [.regex "a" ".*", .equal "b" "$job"]).text ∧
      (q.mergeAll [.regex "a" ".*", .equal "b" "$job"]).ReadsBack := by
  have hread : (parse "\x7ba=\"1\",b=\"\"\x7d").map
      (fun q => (q.expr.leaves, q.expr.selectors.map Selector.metric, q.vars)) =
        .ok ([.groups ⟨[⟨"a", .equal, "1"⟩, ⟨"b", .equal, ""⟩], []⟩], [none], []) := by
    decide +kernel
  obtain ⟨q, hq, hparts⟩ := exists_of_map_eq_ok hread
  obtain ⟨hleaves, hmetrics, hvars⟩ : _ ∧ _ ∧ _ := by simpa only [Prod.mk.injEq] using hparts
  have hreadable : ∀ f ∈ [LabelFilter.regex "a" ".*", .equal "b" "$job"], f.IsReadable := by
    decide +kernel
  have hf : ∀ f ∈ [LabelFilter.regex "a" ".*", .equal "b" "$job"], f.isNoop = false →
      f.IsClear q.vars :=
    fun f hmem _ => (hreadable f hmem).isSettled.clear.mono fun v _ => v.mem_all
  have hparts : q.expr.parts = ["a", "1", "b", ""] := by
    have hnames : q.expr.selectors.filterMap Selector.metric = [] := by
      have hnone := congrArg (List.filterMap id) hmetrics
      rwa [List.filterMap_map] at hnone
    rw [Expr.parts, hnames, hleaves]
    rfl
  have hclear : q.expr.IsClear q.vars := by
    refine ⟨?_, ?_, ?_, ?_⟩
    · rw [hleaves]
      intro l hl
      obtain rfl := List.mem_singleton.mp hl
      refine ⟨fun m hm => ?_, fun hne => absurd rfl hne⟩
      simp only [MatcherGroups.matchers, MatcherGroups.toList, List.flatten_cons,
        List.flatten_nil, List.append_nil, List.mem_cons, List.not_mem_nil, or_false] at hm
      rcases hm with rfl | rfl <;> exact ⟨.inl rfl, rfl⟩
    · rw [hvars]
      exact fun l _ text _ v hv => absurd hv List.not_mem_nil
    · rw [hparts]
      have hno : ∀ part ∈ ["a", "1", "b", ""], '$' ∉ part.toList ∧ '_' ∉ part.toList := by decide
      exact fun part hpart => TemplateVariable.unmixed_of_not_mem _ (hno part hpart).1
        (hno part hpart).2
    · rw [hleaves]
      intro g hg hne
      obtain rfl := Leaf.groups.inj (List.mem_singleton.mp hg)
      exact absurd rfl hne
  have hs : ∀ s ∈ q.expr.selectors,
      (s.merged [LabelFilter.regex "a" ".*", .equal "b" "$job"]).RejectsEmpty :=
    fun s _ => Selector.RejectsEmpty.of_filter "b" rfl (by decide)
  exact ⟨q, hq, hclear, hf, hs, readsBack_narrowed hq hclear hf hs⟩

/-- A filter that accepts the empty value overwrites the only matcher that rejects it. -/
theorem not_parse_narrowed :
    (LabelFilter.regex "a" ".*").IsReadable ∧
    ∃ q, parse "\x7ba=\"1\"\x7d" = .ok q ∧ q.ReadsBack ∧
      narrow "\x7ba=\"1\"\x7d" [.regex "a" ".*"] = .ok "\x7ba=~\".*\"\x7d" ∧
      ∀ q', parse "\x7ba=~\".*\"\x7d" ≠ .ok q' := by
  have hfails : (parse "\x7ba=~\".*\"\x7d").isOk = false := by decide +kernel
  refine ⟨by decide +kernel, _, rfl, by decide +kernel, by decide +kernel, fun q' hq' => ?_⟩
  simp [hq', Except.isOk, Except.toBool] at hfails

end Query

end MetricScope
