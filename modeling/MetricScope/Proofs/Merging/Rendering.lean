import MetricScope.Proofs.Merging.Legibility

/-!
# Merging before and after reading

The text of a tree is read as the canonical tree, whose matchers may be ordered otherwise.
Merging filters into either of them gives trees with one text, if no label stands twice in a
group: the first matcher on a label is then the only one, and the text orders the matchers.
-/

set_option autoImplicit false

namespace MetricScope

open PromQL

namespace LabelFilter

def DistinctLabels (group : List Matcher) : Prop :=
  (group.map Matcher.name).Nodup

variable {group other : List Matcher}

/-- Where no label stands twice a merge drops all matchers on its label and adds its own. -/
theorem upsert_perm (f : LabelFilter) (h : DistinctLabels group) :
    (f.upsert group).Perm (f.matcher :: group.filter fun m => m.name ≠ f.name) := by
  induction group with
  | nil => exact List.Perm.refl _
  | cons m rest ih =>
    obtain ⟨hm, hrest⟩ := List.nodup_cons.mp h
    rw [upsert]
    by_cases hname : m.name = f.name
    · have hall : rest.filter (fun n => n.name ≠ f.name) = rest := by
        rw [List.filter_eq_self]
        intro n hn
        rw [decide_eq_true_eq, ← hname]
        exact fun hnm => hm (hnm ▸ List.mem_map_of_mem hn)
      rw [if_pos hname, List.filter_cons_of_neg (by simpa using hname), hall]
    · rw [if_neg hname, List.filter_cons_of_pos (by simpa using hname)]
      exact ((ih hrest).cons m).trans (List.Perm.swap _ _ _)

theorem DistinctLabels.perm (h : DistinctLabels group) (hp : other.Perm group) :
    DistinctLabels other :=
  (hp.map Matcher.name).nodup_iff.mpr h

theorem DistinctLabels.mergeGroup (h : DistinctLabels group) (f : LabelFilter) :
    DistinctLabels (f.mergeGroup group) := by
  rw [LabelFilter.mergeGroup]
  split
  · exact h
  · have hrest : DistinctLabels (f.matcher :: group.filter fun m => m.name ≠ f.name) := by
      apply List.nodup_cons.mpr
      constructor
      · simp
      · exact h.sublist (List.filter_sublist.map Matcher.name)
    exact hrest.perm (upsert_perm f h)

theorem DistinctLabels.mergeGroups (h : DistinctLabels group) (filters : List LabelFilter) :
    DistinctLabels (LabelFilter.mergeGroups filters group) := by
  induction filters generalizing group with
  | nil => exact h
  | cons f filters ih => exact ih (h.mergeGroup f)

theorem mergeGroup_perm (f : LabelFilter) (h : DistinctLabels group) (hp : other.Perm group) :
    (f.mergeGroup other).Perm (f.mergeGroup group) := by
  rw [mergeGroup, mergeGroup]
  split
  · exact hp
  · have hother := upsert_perm f (h.perm hp)
    have hfilter := (hp.filter fun m => decide (m.name ≠ f.name)).cons f.matcher
    exact (hother.trans hfilter).trans (upsert_perm f h).symm

/-- The order in which the matchers stand does not matter then. -/
theorem mergeGroups_perm (filters : List LabelFilter) (h : DistinctLabels group)
    (hp : other.Perm group) : (mergeGroups filters other).Perm (mergeGroups filters group) := by
  induction filters generalizing group other with
  | nil => exact hp
  | cons f filters ih => exact ih (h.mergeGroup f) (mergeGroup_perm f h hp)

end LabelFilter

namespace PromQL

namespace MatcherGroups

/-- The text does not tell in which order the matchers of one group stand. -/
theorem bracedText_perm {first other : List Matcher} (h : first.Perm other) :
    bracedText ⟨first, []⟩ = bracedText ⟨other, []⟩ := by
  have hempty : first.isEmpty = other.isEmpty := by
    rw [Bool.eq_iff_iff, List.isEmpty_iff_length_eq_zero, List.isEmpty_iff_length_eq_zero,
      h.length_eq]
  have htext : text ⟨first, []⟩ = text ⟨other, []⟩ := by
    rw [text, text]
    exact congrArg _ (sortTexts_perm (h.map Matcher.text))
  rw [bracedText, bracedText, htext]
  simp only [hempty]

def DistinctLabels (g : MatcherGroups) : Prop :=
  g.others = [] → LabelFilter.DistinctLabels g.first

theorem bracedText_merge_canon (filters : List LabelFilter) {g : MatcherGroups}
    (h : g.DistinctLabels) :
    (g.canon.map (LabelFilter.mergeGroups filters)).bracedText =
      (g.map (LabelFilter.mergeGroups filters)).bracedText := by
  obtain ⟨first, others⟩ := g
  cases others with
  | nil =>
    exact bracedText_perm (LabelFilter.mergeGroups_perm filters (h rfl) (sortBy_perm _ first))
  | cons ms others => rfl

end MatcherGroups

namespace Expr

theorem text_mergeAll_canon (filters : List LabelFilter) {e : Expr}
    (hl : ∀ l ∈ e.leaves, l.IsLegible)
    (hd : ∀ g, .groups g ∈ e.leaves → g.DistinctLabels) :
    (e.canon.mergeAll filters).text = (e.mergeAll filters).text := by
  rw [mergeAll_eq_mapLeaves, mergeAll_eq_mapLeaves, canon_eq_mapLeaves, mapLeaves_mapLeaves]
  apply text_mapLeaves
  intro l hmem
  rw [LeafMap.leaf_comp, Leaf.canon_eq]
  have hwritten := Leaf.written_canon (hl l hmem)
  cases l with
  | groups g =>
    exact congrArg ([·]) (MatcherGroups.bracedText_merge_canon filters (hd g hmem))
  | _ => exact hwritten

end Expr

end PromQL

/-- A tree that is written so that it can be read again. Every selector has a metric name,
and no label stands twice in a group. -/
structure PromQL.Expr.IsSettled (e : Expr) : Prop where
  grammatical : e.Grammatical
  clear : e.IsClear TemplateVariable.all
  metric : ∀ s ∈ e.selectors, s.metric.isSome = true
  distinct : ∀ g, .groups g ∈ e.leaves → g.DistinctLabels

structure LabelFilter.IsSettled (f : LabelFilter) : Prop where
  clear : f.IsClear TemplateVariable.all
  name (v : TemplateVariable) : ¬ v.standIn.toList <:+: f.name.toList
  value (v : TemplateVariable) : ¬ v.standIn.toList <:+: f.value.toList

section

variable {e : Expr} {filters : List LabelFilter}

theorem PromQL.Expr.IsSettled.mergeAll (he : e.IsSettled)
    (hf : ∀ f ∈ filters, f.isNoop = false → f.IsSettled) :
    (e.mergeAll filters).IsSettled where
  grammatical := he.grammatical.mergeAll
    (fun f hfilter hnoop => (hf f hfilter hnoop).clear.legible) he.metric
  clear := he.clear.mergeAll fun f hfilter hnoop => (hf f hfilter hnoop).clear
  metric s hs := by
    rw [Expr.selectors_mergeAll] at hs
    obtain ⟨original, horiginal, rfl⟩ := List.mem_map.mp hs
    exact he.metric original horiginal
  distinct g hg := by
    rcases Expr.mem_leaves_mergeAll hg with hg | ⟨original, horiginal, heq⟩
    · exact he.distinct g hg
    · obtain rfl := Leaf.groups.inj heq
      intro hothers
      have horiginals : original.others = [] := by simpa [MatcherGroups.map] using hothers
      exact (he.distinct original horiginal horiginals).mergeGroups filters

theorem marked_of_marked_mergeAll (he : e.IsSettled)
    (hf : ∀ f ∈ filters, f.isNoop = false → f.IsSettled) {v : TemplateVariable}
    (h : TemplateVariable.marked (TemplateVariable.marks TemplateVariable.all
      (e.mergeAll filters).text.toList) v = true) :
    TemplateVariable.marked (TemplateVariable.marks TemplateVariable.all e.text.toList) v =
      true := by
  have hmeasure := measure_places TemplateVariable.all v
  have hmerged := he.grammatical.mergeAll
    (fun f hfilter hnoop => (hf f hfilter hnoop).clear.legible) he.metric
  rw [← TemplateVariable.places_pos_iff, hmeasure.text hmerged, weigh_pos_iff] at h
  rw [← TemplateVariable.places_pos_iff, hmeasure.text he.grammatical, weigh_pos_iff]
  obtain ⟨part, hpart, hpos⟩ := h
  rcases Expr.mem_parts_mergeAll hpart with hpart | ⟨f, hfilter, hnoop, rfl | rfl⟩
  · exact ⟨part, hpart, hpos⟩
  · rw [TemplateVariable.places_eq_zero ((hf f hfilter hnoop).name v)] at hpos
    exact absurd hpos (Nat.lt_irrefl 0)
  · rw [TemplateVariable.places_eq_zero ((hf f hfilter hnoop).value v)] at hpos
    exact absurd hpos (Nat.lt_irrefl 0)

/-- Filters may be merged into the tree, or into what its text is read as. -/
theorem narrow_renderExpr_of_isSettled (he : e.IsSettled)
    (hf : ∀ f ∈ filters, f.isNoop = false → f.IsSettled) :
    narrow (renderExpr e) filters = .ok (renderExpr (narrowExpr e filters)) := by
  have hparse := Query.parse_text_eq (q := Query.ofExpr e) he.grammatical
    (he.clear.isLegible he.grammatical)
  have htext := Expr.text_mergeAll_canon filters he.clear.legible he.distinct
  have hdecode := TemplateVariable.decodeChars_filter
    fun v (hv : _ = true) => marked_of_marked_mergeAll he hf hv
  rw [text_ofExpr] at hparse
  rw [narrow, hparse, renderExpr, narrowExpr_eq, TemplateVariable.decodeAll]
  dsimp only [Query.text, Query.mergeAll, Query.ofExpr, Query.foundVars]
  rw [htext, TemplateVariable.decode, TemplateVariable.decode, hdecode]

end

end MetricScope
