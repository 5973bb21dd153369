import MetricScope.Proofs.Merging.Tree

/-!
# What a selector selects after a merge

A series is a value for every label, the empty one for labels that it lacks. A
selector without repeated labels selects after a merge what the last filter on each
label accepts and what the untouched matchers selected before. The metric name
stands apart from all this.
-/

set_option autoImplicit false

namespace MetricScope.PromQL

abbrev Series := String → String

def Matcher.selects (m : Matcher) (series : Series) : Bool :=
  m.accepts (series m.name)

def Selector.selects (s : Selector) (series : Series) : Bool :=
  s.groups.toList.any fun group => group.all fun m => m.selects series

def Selector.dropping (labels : List String) (s : Selector) : Selector :=
  { s with groups := s.groups.map fun group => group.filter fun m => !labels.contains m.name }

/-- No group has two matchers on one label. -/
def Selector.Unrepeated (s : Selector) : Prop :=
  ∀ group ∈ s.groups.toList, (group.map Matcher.name).Nodup

theorem filter_tail_eq_nil {group : List Matcher} (h : (group.map Matcher.name).Nodup)
    (label : String) : (group.filter fun m => m.name == label).tail = [] := by
  induction group with
  | nil => rfl
  | cons m rest ih =>
    obtain ⟨hm, hrest⟩ := List.nodup_cons.mp h
    by_cases hl : m.name = label
    · have hnone : rest.filter (fun m => m.name == label) = [] := by
        apply List.filter_eq_nil_iff.mpr
        intro n hn he
        exact hm (hl ▸ beq_iff_eq.mp he ▸ List.mem_map_of_mem hn)
      simp [hl, hnone]
    · simpa [List.filter_cons, hl] using ih hrest

theorem all_selects_iff (group : List Matcher) (series : Series) :
    (group.all fun m => m.selects series) = true ↔
      ∀ label, ∀ m ∈ group.filter (fun m => m.name == label), m.selects series = true := by
  constructor
  · intro h label m hm
    exact List.all_eq_true.mp h m (List.mem_filter.mp hm).1
  · intro h
    apply List.all_eq_true.mpr
    intro m hm
    exact h m.name m (List.mem_filter.mpr ⟨hm, by simp⟩)

theorem group_selects_merged_iff {group : List Matcher}
    (h : (group.map Matcher.name).Nodup) (filters : List LabelFilter) (series : Series) :
    ((LabelFilter.mergeGroups filters group).all fun m => m.selects series) = true ↔
      (∀ label f, LabelFilter.lastOn? filters label = some f →
        f.matcher.selects series = true) ∧
      ((group.filter fun m => !(LabelFilter.labels filters).contains m.name).all
        fun m => m.selects series) = true := by
  rw [all_selects_iff]
  constructor
  · intro hall
    refine ⟨fun label f hf => hall label f.matcher ?_, List.all_eq_true.mpr fun m hm => ?_⟩
    · simp [LabelFilter.filter_mergeGroups, hf]
    · obtain ⟨hm, hfree⟩ := List.mem_filter.mp hm
      refine hall m.name m ?_
      rw [LabelFilter.filter_mergeGroups]
      cases hl : LabelFilter.lastOn? filters m.name with
      | none => simpa using hm
      | some f =>
        have hmem := LabelFilter.lastOn?_isSome_iff.mp (Option.isSome_of_eq_some hl)
        simp [hmem] at hfree
  · rintro ⟨hlast, hrest⟩ label m hm
    rw [LabelFilter.filter_mergeGroups] at hm
    cases hl : LabelFilter.lastOn? filters label with
    | some f =>
      simp only [hl, filter_tail_eq_nil h, List.mem_singleton] at hm
      exact hm ▸ hlast label f hl
    | none =>
      simp only [hl, List.mem_filter, beq_iff_eq] at hm
      obtain ⟨hm, rfl⟩ := hm
      refine List.all_eq_true.mp hrest m (List.mem_filter.mpr ⟨hm, ?_⟩)
      have hfree : m.name ∉ LabelFilter.labels filters := by
        rw [← LabelFilter.lastOn?_isSome_iff, hl]
        simp
      simpa using hfree

theorem mergeAll_selector (filters : List LabelFilter) (s : Selector) :
    (Expr.selector s).mergeAll filters = .selector (s.merged filters) :=
  Expr.mergeAll_eq_mapSelectors filters (.selector s)

theorem lastOn?_accepts_iff (filters : List LabelFilter) (series : Series) :
    (∀ label f, LabelFilter.lastOn? filters label = some f →
        f.matcher.selects series = true) ↔
      ∀ label f, LabelFilter.lastOn? filters label = some f →
        f.matcher.accepts (series label) = true := by
  have hname : ∀ label f, LabelFilter.lastOn? filters label = some f →
      f.matcher.selects series = f.matcher.accepts (series label) := by
    intro label f hf
    rw [Matcher.selects, LabelFilter.matcher_name, LabelFilter.name_of_lastOn? hf]
  constructor
  · intro h label f hf
    exact hname label f hf ▸ h label f hf
  · intro h label f hf
    exact (hname label f hf).trans (h label f hf)

/-- Merging narrows a selector and does nothing else to its meaning: it selects the
series that the last filter on each label accepts, out of those that the matchers on
other labels selected before. -/
theorem selects_mergeAll_iff (s : Selector) (hs : s.Unrepeated) (filters : List LabelFilter) :
    ∃ merged, (Expr.selector s).mergeAll filters = .selector merged ∧
      ∀ series : Series, merged.selects series = true ↔
        (∀ label f, LabelFilter.lastOn? filters label = some f →
          f.matcher.accepts (series label) = true) ∧
        (s.dropping (LabelFilter.labels filters)).selects series = true := by
  refine ⟨s.merged filters, mergeAll_selector filters s, fun series => ?_⟩
  rw [← lastOn?_accepts_iff]
  simp only [Selector.selects, Selector.merged, Selector.dropping,
    MatcherGroups.toList_map, List.any_map, List.any_eq_true, Function.comp_apply]
  constructor
  · rintro ⟨group, hg, h⟩
    obtain ⟨hlast, hrest⟩ := (group_selects_merged_iff (hs group hg) filters series).mp h
    exact ⟨hlast, group, hg, hrest⟩
  · rintro ⟨hlast, group, hg, hrest⟩
    exact ⟨group, hg, (group_selects_merged_iff (hs group hg) filters series).mpr ⟨hlast, hrest⟩⟩

/-- Two alternatives, of which one has a matcher on a label that the filters name twice,
and a filter without a value. -/
theorem selects_mergeAll_alternatives :
    let s : Selector := ⟨some "up",
      ⟨[⟨"job", .equal, "a"⟩, ⟨"env", .notEqual, "dev"⟩], [[⟨"job", .equal, "b"⟩]]⟩, none, none⟩
    let filters := [LabelFilter.equal "env" "test", .equal "zone" "", .equal "env" "prod"]
    s.Unrepeated ∧ ∃ merged, (Expr.selector s).mergeAll filters = .selector merged ∧
      ∀ series : Series, merged.selects series = true ↔
        (∀ label f, LabelFilter.lastOn? filters label = some f →
          f.matcher.accepts (series label) = true) ∧
        (s.dropping (LabelFilter.labels filters)).selects series = true := by
  have hs : Selector.Unrepeated ⟨some "up",
      ⟨[⟨"job", .equal, "a"⟩, ⟨"env", .notEqual, "dev"⟩], [[⟨"job", .equal, "b"⟩]]⟩,
      none, none⟩ := by
    simp [Selector.Unrepeated, MatcherGroups.toList]
  exact ⟨hs, selects_mergeAll_iff _ hs _⟩

end MetricScope.PromQL
