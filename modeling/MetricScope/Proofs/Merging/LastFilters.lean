import MetricScope.Proofs.Merging.Rendering

/-!
# The last filter on each label

Of a list of filters a merge keeps the last one on each label, and the order of the list
only decides where missing labels are added. So filters on different labels may change
places, and filters that come later on all the same labels make up for those before them.
-/

set_option autoImplicit false

namespace MetricScope

open PromQL

namespace LabelFilter

/-- Both lists have the same last filter on every label. -/
def SameLast (filters others : List LabelFilter) : Prop :=
  ∀ label, lastOn? filters label = lastOn? others label

/-- The filters in another order, in which those on one label follow each other as before. -/
structure Reordered (filters others : List LabelFilter) : Prop where
  perm : filters.Perm others
  same_label (label : String) :
    (filters.filter fun f => f.name == label) = others.filter fun f => f.name == label

section

variable {filters others : List LabelFilter}

theorem lastOn?_filter (filters : List LabelFilter) (label : String) :
    lastOn? (filters.filter fun f => f.name == label) label = lastOn? filters label := by
  rw [lastOn?, lastOn?, ← List.filter_reverse, List.find?_filter]
  congr 1
  funext f
  cases f.isNoop <;> cases f.name == label <;> rfl

theorem Reordered.sameLast (h : Reordered filters others) : SameLast filters others := by
  intro label
  rw [← lastOn?_filter filters, h.same_label, lastOn?_filter]

theorem lastOn?_append (filters others : List LabelFilter) (label : String) :
    lastOn? (filters ++ others) label = (lastOn? others label).or (lastOn? filters label) := by
  rw [lastOn?, List.reverse_append, List.find?_append]
  rfl

/-- Later filters on all labels of the earlier ones leave nothing of these. -/
theorem sameLast_append (h : ∀ f ∈ filters, f.isNoop = false →
    ∃ g ∈ others, g.isNoop = false ∧ g.name = f.name) :
    SameLast (filters ++ others) others := by
  intro label
  rw [lastOn?_append]
  cases hfirst : lastOn? filters label with
  | none => rw [Option.or_none]
  | some f =>
    have hf := List.find?_some hfirst
    have hmem := List.mem_reverse.mp (List.mem_of_find?_eq_some hfirst)
    simp only [Bool.and_eq_true, Bool.not_eq_true', beq_iff_eq] at hf
    obtain ⟨g, hg, hnoop, hname⟩ := h f hmem hf.1
    have hsome : (lastOn? others label).isSome := by
      rw [lastOn?, List.find?_isSome]
      exact ⟨g, List.mem_reverse.mpr hg, by simp [hnoop, hname, hf.2]⟩
    obtain ⟨last, hlast⟩ := Option.isSome_iff_exists.mp hsome
    rw [hlast]
    rfl

theorem labels_append_self (filters : List LabelFilter) :
    labels (filters ++ filters) = labels filters := by
  have hnone (names : List String) : names.removeAll names = [] := by
    rw [List.removeAll, List.filter_eq_nil_iff]
    simp
  rw [labels, List.filter_append, List.map_append, List.eraseDups_append, hnone, labels]
  exact List.append_nil _

theorem SameLast.labels_perm (h : SameLast filters others) :
    (labels filters).Perm (labels others) := by
  apply (List.perm_ext_iff_of_nodup (labels_nodup filters) (labels_nodup others)).mpr
  intro label
  rw [← lastOn?_isSome_iff, ← lastOn?_isSome_iff, h label]

/-- What a group becomes depends on the last filters, up to the order of what is added. -/
theorem SameLast.mergeGroups_perm (h : SameLast filters others) (group : List Matcher) :
    (mergeGroups filters group).Perm (mergeGroups others group) := by
  have hlast : lastOn? filters = lastOn? others := funext h
  rw [mergeGroups_eq, mergeGroups_eq, mergedGroup, mergedGroup, overwritten, overwritten,
    added, added, hlast]
  exact ((h.labels_perm.filter _).filterMap _).append_left _

/-- Merging the same filters twice is merging them once. -/
theorem mergeGroups_append_self (filters : List LabelFilter) :
    mergeGroups (filters ++ filters) = mergeGroups filters := by
  have hlast : lastOn? (filters ++ filters) = lastOn? filters :=
    funext (sameLast_append fun f hf hnoop => ⟨f, hf, hnoop, rfl⟩)
  funext group
  rw [mergeGroups_eq, mergeGroups_eq, mergedGroup, mergedGroup, overwritten, overwritten,
    added, added, hlast, labels_append_self]

end

end LabelFilter

namespace PromQL.Expr

/-- The selectors of both trees follow each other with the same groups, in which the
matchers may stand in another order. -/
def SameMatchers (e other : Expr) : Prop :=
  List.Forall₂ (fun s t : Selector => List.Forall₂ List.Perm s.groups.toList t.groups.toList)
    e.selectors other.selectors

variable {filters others : List LabelFilter}

theorem sameMatchers_mergeAll (h : LabelFilter.SameLast filters others) (e : Expr) :
    (e.mergeAll filters).SameMatchers (e.mergeAll others) := by
  rw [SameMatchers, selectors_mergeAll, selectors_mergeAll, List.forall₂_map_left_iff,
    List.forall₂_map_right_iff]
  apply List.forall₂_same.mpr
  intro s _
  simp only [Selector.merged, MatcherGroups.toList_map, List.forall₂_map_left_iff,
    List.forall₂_map_right_iff]
  exact List.forall₂_same.mpr fun group _ => h.mergeGroups_perm group

theorem groups_eq_of_mem_leaves {s : Selector} {g : MatcherGroups} (h : .groups g ∈ s.leaves) :
    s.groups = g := by
  rcases List.mem_cons.mp h with h | h
  · exact (Leaf.groups.inj h).symm
  · simp [instantLeaves, offsetLeaves] at h

/-- The groups among the leaves are those of the selectors. -/
theorem exists_selector_of_mem_leaves {e : Expr} {g : MatcherGroups} (h : .groups g ∈ e.leaves) :
    ∃ s ∈ e.selectors, s.groups = g := by
  induction e with
  | selector s => exact ⟨s, List.mem_singleton_self s, groups_eq_of_mem_leaves h⟩
  | range s length =>
    rcases List.mem_cons.mp h with h | h
    · exact absurd h (by simp)
    · exact ⟨s, List.mem_singleton_self s, groups_eq_of_mem_leaves h⟩
  | subquery e length step offset at? ih =>
    rcases List.mem_append.mp h with h | h
    · exact ih h
    · simp [instantLeaves, offsetLeaves] at h
  | call f arguments ih =>
    rw [leaves, leavesList_eq_flatMap] at h
    obtain ⟨e, he, hleaf⟩ := List.mem_flatMap.mp h
    obtain ⟨s, hs, hg⟩ := ih e he hleaf
    rw [selectors, selectorsList_eq_flatMap]
    exact ⟨s, List.mem_flatMap_of_mem he hs, hg⟩
  | aggregate op grouping parameter e ihp ih =>
    rcases List.mem_cons.mp h with h | h
    · exact absurd h (by simp)
    · rcases List.mem_append.mp h with h | h
      · cases parameter with
        | none => exact absurd h (List.not_mem_nil)
        | some p =>
          obtain ⟨s, hs, hg⟩ := ihp p rfl h
          exact ⟨s, List.mem_append_right _ hs, hg⟩
      · obtain ⟨s, hs, hg⟩ := ih h
        exact ⟨s, List.mem_append_left _ hs, hg⟩
  | binary op matching left right ihl ihr =>
    rcases List.mem_cons.mp h with h | h
    · exact absurd h (by simp)
    · rcases List.mem_append.mp h with h | h
      · obtain ⟨s, hs, hg⟩ := ihl h
        exact ⟨s, List.mem_append_left _ hs, hg⟩
      · obtain ⟨s, hs, hg⟩ := ihr h
        exact ⟨s, List.mem_append_right _ hs, hg⟩
  | negated e ih => exact ih h
  | paren e ih => exact ih h
  | number x => exact absurd h (by simp [leaves])
  | string text => exact absurd h (by simp [leaves])

/-- Of plain selectors the text does not tell in which order the matchers stand. -/
theorem text_mergeAll_of_sameLast (h : LabelFilter.SameLast filters others) {e : Expr}
    (hplain : ∀ s ∈ e.selectors, s.groups.others = []) :
    (e.mergeAll filters).text = (e.mergeAll others).text := by
  rw [mergeAll_eq_mapLeaves, mergeAll_eq_mapLeaves]
  apply text_mapLeaves
  intro l hl
  cases l with
  | groups g =>
    obtain ⟨s, hs, rfl⟩ := exists_selector_of_mem_leaves hl
    obtain ⟨first, rest, hgroups⟩ : ∃ first rest, s.groups = ⟨first, rest⟩ := ⟨_, _, rfl⟩
    obtain rfl : rest = [] := by simpa [hgroups] using hplain s hs
    rw [hgroups]
    exact congrArg ([·]) (MatcherGroups.bracedText_perm (h.mergeGroups_perm first))
  | _ => rfl

/-- Filters that change places, but not with filters on the same label, lead to the same
groups up to the order of their matchers, and to the same text if there are no
alternatives, since the matchers of a plain selector are written in order. -/
theorem mergeAll_reordered (h : LabelFilter.Reordered filters others) (e : Expr) :
    (e.mergeAll filters).SameMatchers (e.mergeAll others) ∧
      ((∀ s ∈ e.selectors, s.groups.others = []) →
        (e.mergeAll filters).text = (e.mergeAll others).text ∧
          renderExpr (e.mergeAll filters) = renderExpr (e.mergeAll others)) := by
  refine ⟨sameMatchers_mergeAll h.sameLast e, fun hplain => ?_⟩
  have htext := text_mergeAll_of_sameLast h.sameLast hplain
  exact ⟨htext, congrArg TemplateVariable.decodeAll htext⟩

/-- A label that one selector repeats and the other one lacks. -/
theorem mergeAll_reordered_repeated :
    let filters := [LabelFilter.equal "a" "3", .equal "b" "1", ⟨"a", .notEqual, "4"⟩]
    let others := [LabelFilter.equal "b" "1", .equal "a" "3", ⟨"a", .notEqual, "4"⟩]
    let e := Expr.binary .div .plain
      (.selector ⟨some "m", ⟨[⟨"a", .equal, "1"⟩, ⟨"a", .equal, "2"⟩], []⟩, none, none⟩)
      (.selector ⟨some "n", .empty, none, none⟩)
    LabelFilter.Reordered filters others ∧ (∀ s ∈ e.selectors, s.groups.others = []) ∧
      (e.mergeAll filters).SameMatchers (e.mergeAll others) ∧
      (e.mergeAll filters).text = (e.mergeAll others).text ∧
      renderExpr (e.mergeAll filters) = renderExpr (e.mergeAll others) ∧
      renderExpr (e.mergeAll others) =
        "m\x7ba!=\"4\",a=\"2\",b=\"1\"\x7d / n\x7ba!=\"4\",b=\"1\"\x7d" := by
  intro filters others e
  have h : LabelFilter.Reordered filters others := by
    refine ⟨by decide, fun label => ?_⟩
    by_cases ha : "a" = label
    · subst ha
      decide
    · by_cases hb : "b" = label <;> simp [filters, others, LabelFilter.equal, ha, hb]
  have hplain : ∀ s ∈ e.selectors, s.groups.others = [] := by decide
  obtain ⟨hmatchers, htexts⟩ := mergeAll_reordered h e
  exact ⟨h, hplain, hmatchers, (htexts hplain).1, (htexts hplain).2, by decide +kernel⟩

/-- The text of alternatives keeps the order in which the filters were given. -/
example :
    let e := Expr.selector ⟨some "m", ⟨[⟨"x", .equal, "1"⟩], [[⟨"y", .equal, "2"⟩]]⟩, none, none⟩
    (e.mergeAll [.equal "a" "1", .equal "b" "2"]).text ≠
      (e.mergeAll [.equal "b" "2", .equal "a" "1"]).text := by
  decide +kernel

/-- Merging the same filters again changes nothing. Filters on all labels of earlier ones
lead to what they would have led to without these, up to the order of the matchers. -/
theorem mergeAll_absorbs (e : Expr) (filters : List LabelFilter) :
    (e.mergeAll filters).mergeAll filters = e.mergeAll filters ∧
      ∀ others : List LabelFilter, (∀ f ∈ filters, f.isNoop = false →
          ∃ g ∈ others, g.isNoop = false ∧ g.name = f.name) →
        ((e.mergeAll filters).mergeAll others).SameMatchers (e.mergeAll others) := by
  constructor
  · rw [← mergeAll_append, mergeAll_eq_mapSelectors, mergeAll_eq_mapSelectors]
    congr 1
    funext s
    rw [Selector.merged, Selector.merged, LabelFilter.mergeGroups_append_self]
  · intro others h
    rw [← mergeAll_append]
    exact sameMatchers_mergeAll (LabelFilter.sameLast_append h) e

/-- Conflicting filters, given again in another order, for two alternatives of which one
repeats a label. -/
theorem mergeAll_absorbs_alternatives :
    let filters := [LabelFilter.equal "b" "1", .equal "a" "2", .equal "b" "3", .equal "z" ""]
    let others := [LabelFilter.equal "a" "4", .regex "b" "["]
    let e := Expr.selector
      ⟨none, ⟨[⟨"a", .equal, "1"⟩, ⟨"a", .equal, "2"⟩], [[⟨"c", .equal, "x"⟩]]⟩, none, none⟩
    (∀ f ∈ filters, f.isNoop = false → ∃ g ∈ others, g.isNoop = false ∧ g.name = f.name) ∧
      (e.mergeAll filters).mergeAll filters = e.mergeAll filters ∧
      ((e.mergeAll filters).mergeAll others).SameMatchers (e.mergeAll others) ∧
      ((e.mergeAll filters).mergeAll others).matcherGroups ≠ (e.mergeAll others).matcherGroups := by
  intro filters others e
  have h : ∀ f ∈ filters, f.isNoop = false → ∃ g ∈ others, g.isNoop = false ∧ g.name = f.name := by
    decide
  obtain ⟨hself, hothers⟩ := mergeAll_absorbs e filters
  exact ⟨h, hself, hothers others h, by decide +kernel⟩

end PromQL.Expr

end MetricScope
