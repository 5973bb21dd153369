import Mathlib.Data.List.Basic
import Mathlib.Data.List.Induction
import MetricScope.LabelFilter

/-!
# Merging filters into one group of matchers

What a list of filters makes of a group is said here without the order of the
merges: of each label the first matcher gives way to the last filter, and labels
that are missing follow in the order in which the filters first name them. The
merges one after the other lead to the same group.
-/

set_option autoImplicit false

namespace MetricScope

open PromQL

namespace LabelFilter

def hasLabel (label : String) (group : List Matcher) : Bool :=
  group.any fun m => m.name == label

def lastOn? (filters : List LabelFilter) (label : String) : Option LabelFilter :=
  filters.reverse.find? fun f => !f.isNoop && f.name == label

def labels (filters : List LabelFilter) : List String :=
  ((filters.filter fun f => !f.isNoop).map name).eraseDups

/-- The matchers of the group, the first one on each label overwritten. -/
def overwritten (filters : List LabelFilter) (group : List Matcher) : List Matcher :=
  group.mapIdx fun i m =>
    if group.findIdx (fun n => n.name == m.name) = i then
      ((lastOn? filters m.name).map matcher).getD m
    else m

/-- One matcher for every label that the group lacks. -/
def added (filters : List LabelFilter) (group : List Matcher) : List Matcher :=
  ((labels filters).filter fun label => !hasLabel label group).filterMap
    fun label => (lastOn? filters label).map matcher

def mergedGroup (filters : List LabelFilter) (group : List Matcher) : List Matcher :=
  overwritten filters group ++ added filters group

def mergeGroups (filters : List LabelFilter) (group : List Matcher) : List Matcher :=
  filters.foldl (fun ms f => f.mergeGroup ms) group

theorem mergeGroups_snoc (filters : List LabelFilter) (f : LabelFilter) (group : List Matcher) :
    mergeGroups (filters ++ [f]) group = f.mergeGroup (mergeGroups filters group) := by
  simp [mergeGroups]

@[simp] theorem matcher_name (f : LabelFilter) : f.matcher.name = f.name := rfl

theorem lastOn?_snoc_of_noop {filters : List LabelFilter} {f : LabelFilter}
    (h : f.isNoop = true) (label : String) :
    lastOn? (filters ++ [f]) label = lastOn? filters label := by
  simp [lastOn?, h]

theorem lastOn?_snoc {filters : List LabelFilter} {f : LabelFilter}
    (h : f.isNoop = false) (label : String) :
    lastOn? (filters ++ [f]) label =
      if f.name = label then some f else lastOn? filters label := by
  by_cases hl : f.name = label <;> simp [lastOn?, h, hl]

theorem name_of_lastOn? {filters : List LabelFilter} {label : String} {f : LabelFilter}
    (h : lastOn? filters label = some f) : f.name = label := by
  have hf := List.find?_some h
  simp only [Bool.and_eq_true, beq_iff_eq] at hf
  exact hf.2

theorem lastOn?_isSome_iff {filters : List LabelFilter} {label : String} :
    (lastOn? filters label).isSome ↔ label ∈ labels filters := by
  simp [lastOn?, labels, List.find?_isSome, and_assoc]

theorem labels_snoc_of_noop {filters : List LabelFilter} {f : LabelFilter}
    (h : f.isNoop = true) : labels (filters ++ [f]) = labels filters := by
  simp [labels, h]

theorem labels_snoc {filters : List LabelFilter} {f : LabelFilter} (h : f.isNoop = false) :
    labels (filters ++ [f]) =
      if f.name ∈ labels filters then labels filters else labels filters ++ [f.name] := by
  simp only [labels, List.filter_append, List.map_append, List.eraseDups_append]
  by_cases hm : f.name ∈ labels filters
  · have hm' := List.mem_eraseDups.mp hm
    simp [h, List.removeAll, hm']
  · have hm' : f.name ∉ (filters.filter fun f => !f.isNoop).map name :=
      fun hn => hm (List.mem_eraseDups.mpr hn)
    simp [h, List.removeAll, hm', List.eraseDups_cons]

theorem labels_nodup (filters : List LabelFilter) : (labels filters).Nodup := by
  induction filters using List.reverseRecOn with
  | nil => exact List.nodup_nil
  | append_singleton filters f ih =>
    cases h : f.isNoop with
    | true => rwa [labels_snoc_of_noop h]
    | false =>
      rw [labels_snoc h]
      split
      · exact ih
      next hm =>
        rw [List.nodup_append]
        refine ⟨ih, by simp, ?_⟩
        intro l hl n hn he
        rw [List.mem_singleton] at hn
        exact hm (hn ▸ he ▸ hl)

theorem upsert_eq_mapIdx (f : LabelFilter) (ms : List Matcher) :
    f.upsert ms =
      (ms.mapIdx fun i m => if ms.findIdx (fun n => n.name == f.name) = i then f.matcher else m) ++
        if hasLabel f.name ms then [] else [f.matcher] := by
  induction ms with
  | nil => simp [upsert, hasLabel]
  | cons m rest ih =>
    by_cases h : m.name = f.name
    · have hid : rest.mapIdx (fun _ m => m) = rest := by simp [List.mapIdx_eq_iff]
      simp [upsert, hasLabel, h, List.findIdx_cons, hid]
    · have hb : (m.name == f.name) = false := by simpa using h
      simp [upsert, hasLabel, h, hb, List.findIdx_cons, ih]

theorem upsert_append_of_hasLabel {f : LabelFilter} {ms : List Matcher}
    (h : hasLabel f.name ms = true) (rest : List Matcher) :
    f.upsert (ms ++ rest) = f.upsert ms ++ rest := by
  induction ms with
  | nil => simp [hasLabel] at h
  | cons m ms ih =>
    by_cases hm : m.name = f.name
    · simp [upsert, hm]
    · have hms : hasLabel f.name ms = true := by simpa [hasLabel, hm] using h
      simp [upsert, hm, ih hms]

theorem upsert_append_of_not_hasLabel {f : LabelFilter} {ms : List Matcher}
    (h : hasLabel f.name ms = false) (rest : List Matcher) :
    f.upsert (ms ++ rest) = ms ++ f.upsert rest := by
  induction ms with
  | nil => rfl
  | cons m ms ih =>
    have hm : m.name ≠ f.name ∧ hasLabel f.name ms = false := by simpa [hasLabel] using h
    simp [upsert, hm.1, ih hm.2]

theorem overwritten_nil (group : List Matcher) : overwritten [] group = group := by
  simp [overwritten, lastOn?, List.mapIdx_eq_iff]

theorem map_name_overwritten (filters : List LabelFilter) (group : List Matcher) :
    (overwritten filters group).map Matcher.name = group.map Matcher.name := by
  apply List.ext_getElem
  · simp [overwritten]
  · intro i h₁ h₂
    have hi : i < group.length := by simpa using h₂
    simp only [overwritten, List.getElem_map, List.getElem_mapIdx]
    split
    · cases hl : lastOn? filters group[i].name with
      | none => rfl
      | some f => exact name_of_lastOn? hl
    · rfl

theorem hasLabel_overwritten (label : String) (filters : List LabelFilter)
    (group : List Matcher) : hasLabel label (overwritten filters group) = hasLabel label group := by
  have h := congrArg (List.any · (· == label)) (map_name_overwritten filters group)
  simpa only [hasLabel, List.any_map, Function.comp_def] using h

theorem findIdx_overwritten (label : String) (filters : List LabelFilter)
    (group : List Matcher) :
    (overwritten filters group).findIdx (fun m => m.name == label) =
      group.findIdx fun m => m.name == label := by
  have h := congrArg (List.findIdx (· == label)) (map_name_overwritten filters group)
  simpa only [List.findIdx_map, Function.comp_def] using h

/-- One more filter on a label of the group overwrites the first matcher on it once
more. -/
theorem overwritten_snoc_of_hasLabel {f : LabelFilter} {group : List Matcher}
    (hf : f.isNoop = false) (hg : hasLabel f.name group = true) (filters : List LabelFilter) :
    f.upsert (overwritten filters group) = overwritten (filters ++ [f]) group := by
  rw [upsert_eq_mapIdx, hasLabel_overwritten, hg, findIdx_overwritten]
  apply List.ext_getElem
  · simp [overwritten]
  · intro i h₁ h₂
    simp only [overwritten, if_true, List.append_nil, List.getElem_mapIdx, lastOn?_snoc hf]
    have hi : i < group.length := by simpa [overwritten] using h₂
    by_cases hn : f.name = group[i].name
    · simp only [← hn, if_true, Option.map_some, Option.getD_some]
      split
      · rfl
      · rfl
    · rw [if_neg hn, if_neg]
      intro he
      have hfirst : (group[i].name == f.name) = true := by
        subst he
        exact List.findIdx_getElem (p := fun m : Matcher => m.name == f.name)
      exact hn (beq_iff_eq.mp hfirst).symm

theorem overwritten_snoc_of_not_hasLabel {f : LabelFilter} {group : List Matcher}
    (hf : f.isNoop = false) (hg : hasLabel f.name group = false) (filters : List LabelFilter) :
    overwritten (filters ++ [f]) group = overwritten filters group := by
  apply List.mapIdx_eq_mapIdx_iff.mpr
  intro i hi
  have hn : f.name ≠ group[i].name := by
    intro he
    have := List.any_eq_false.mp hg group[i] (List.getElem_mem hi)
    exact this (beq_iff_eq.mpr he.symm)
  rw [lastOn?_snoc hf, if_neg hn]

theorem upsert_filterMap {f : LabelFilter} {last : String → Option LabelFilter}
    {labels : List String} (hd : labels.Nodup)
    (hl : ∀ label ∈ labels, ∃ g, last label = some g ∧ g.name = label) :
    f.upsert (labels.filterMap fun label => (last label).map matcher) =
      (if f.name ∈ labels then labels else labels ++ [f.name]).filterMap
        fun label => (if f.name = label then some f else last label).map matcher := by
  induction labels with
  | nil => simp [upsert]
  | cons label rest ih =>
    obtain ⟨hlabel, hrest⟩ := List.nodup_cons.mp hd
    obtain ⟨g, hg, rfl⟩ := hl label (by simp)
    by_cases he : f.name = g.name
    · rw [if_pos (by simp [he]), List.filterMap_cons, List.filterMap_cons]
      simp only [hg, Option.map_some, upsert, matcher_name, he, if_true]
      congr 1
      apply List.filterMap_congr
      intro label hmem
      have hne : g.name ≠ label := fun h => hlabel (h ▸ hmem)
      rw [if_neg hne]
    · have hrest' := ih hrest fun label hmem => hl label (by simp [hmem])
      have hmem : f.name ∈ g.name :: rest ↔ f.name ∈ rest := by simp [he]
      simp only [List.filterMap_cons, hg, Option.map_some, upsert, matcher_name,
        if_neg (Ne.symm he), hrest', hmem]
      split <;> simp [he, hg]

theorem lastOn?_of_mem_labels {filters : List LabelFilter} {label : String}
    (h : label ∈ labels filters) : ∃ f, lastOn? filters label = some f ∧ f.name = label := by
  obtain ⟨f, hf⟩ := Option.isSome_iff_exists.mp (lastOn?_isSome_iff.mpr h)
  exact ⟨f, hf, name_of_lastOn? hf⟩

/-- A filter on a label of the group adds nothing to it. -/
theorem added_snoc_of_hasLabel {f : LabelFilter} {group : List Matcher}
    (hf : f.isNoop = false) (hg : hasLabel f.name group = true) (filters : List LabelFilter) :
    added (filters ++ [f]) group = added filters group := by
  have hlabels : (labels (filters ++ [f])).filter (fun label => !hasLabel label group) =
      (labels filters).filter fun label => !hasLabel label group := by
    rw [labels_snoc hf]
    split
    · rfl
    · simp [hg]
  rw [added, added, hlabels]
  apply List.filterMap_congr
  intro label hmem
  have hne : f.name ≠ label := by
    intro he
    have := (List.mem_filter.mp hmem).2
    simp [← he, hg] at this
  rw [lastOn?_snoc hf, if_neg hne]

/-- A filter on a label that the group lacks is merged into what is added to it. -/
theorem added_snoc_of_not_hasLabel {f : LabelFilter} {group : List Matcher}
    (hf : f.isNoop = false) (hg : hasLabel f.name group = false) (filters : List LabelFilter) :
    f.upsert (added filters group) = added (filters ++ [f]) group := by
  unfold added
  rw [upsert_filterMap ((labels_nodup filters).filter _)
    fun label hmem => lastOn?_of_mem_labels (List.mem_filter.mp hmem).1]
  simp only [lastOn?_snoc hf, labels_snoc hf]
  split
  next h =>
    rw [if_pos (List.mem_filter.mp h).1]
  next h =>
    rw [if_neg fun hmem => h (List.mem_filter.mpr ⟨hmem, by simp [hg]⟩)]
    simp [hg]

/-- Merging one filter after the other leads to the group that the filters ask for. -/
theorem mergeGroups_eq (filters : List LabelFilter) (group : List Matcher) :
    mergeGroups filters group = mergedGroup filters group := by
  induction filters using List.reverseRecOn with
  | nil => simp [mergeGroups, mergedGroup, overwritten_nil, added, labels]
  | append_singleton filters f ih =>
    rw [mergeGroups_snoc, ih, mergeGroup, mergedGroup, mergedGroup]
    cases hf : f.isNoop with
    | true => simp [overwritten, added, lastOn?_snoc_of_noop hf, labels_snoc_of_noop hf]
    | false =>
      cases hg : hasLabel f.name group with
      | true =>
        rw [if_neg (by simp), upsert_append_of_hasLabel (by rw [hasLabel_overwritten, hg]),
          overwritten_snoc_of_hasLabel hf hg, added_snoc_of_hasLabel hf hg]
      | false =>
        rw [if_neg (by simp), upsert_append_of_not_hasLabel (by rw [hasLabel_overwritten, hg]),
          overwritten_snoc_of_not_hasLabel hf hg, added_snoc_of_not_hasLabel hf hg]

end LabelFilter

end MetricScope
