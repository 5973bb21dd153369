import Mathlib.Data.List.Forall2
import MetricScope.Proofs.Merging.Group
import MetricScope.Proofs.PromQL.Tree
import MetricScope.Query

/-!
# Merging filters into a tree

Merging changes every group of every selector on its own, and nothing else. The
number of matchers on a label that the filters ask for depends on the group alone:
only the first one gives way, so a label that a query repeats stays repeated.
-/

set_option autoImplicit false

namespace MetricScope

open PromQL

namespace PromQL

namespace Selector

def merged (filters : List LabelFilter) (s : Selector) : Selector :=
  { s with groups := s.groups.map (LabelFilter.mergeGroups filters) }

def withoutMatchers (s : Selector) : Selector :=
  { s with groups := .empty }

theorem merged_nil (s : Selector) : s.merged [] = s := by
  have hid : LabelFilter.mergeGroups [] = fun ms => ms := rfl
  simp [merged, hid]

theorem merged_cons (f : LabelFilter) (filters : List LabelFilter) :
    merged (f :: filters) = merged filters ∘ f.mergeSelector := by
  have hcomp : LabelFilter.mergeGroups (f :: filters) =
      LabelFilter.mergeGroups filters ∘ f.mergeGroup := rfl
  funext s
  simp [merged, LabelFilter.mergeSelector, MatcherGroups.map_map, hcomp]

end Selector

namespace Expr

/-- The tree with all lists of matchers erased. -/
def withoutMatchers (e : Expr) : Expr :=
  e.mapSelectors Selector.withoutMatchers

section

variable (e left right : Expr) (s : Selector)

@[simp] theorem withoutMatchers_selector :
    (selector s).withoutMatchers = selector s.withoutMatchers := rfl

@[simp] theorem withoutMatchers_range (length : Duration) :
    (range s length).withoutMatchers = range s.withoutMatchers length := rfl

@[simp] theorem withoutMatchers_subquery (length : Duration) (step : Option Duration)
    (offset : Option Offset) (at? : Option Instant) :
    (subquery e length step offset at?).withoutMatchers =
      subquery e.withoutMatchers length step offset at? := rfl

@[simp] theorem withoutMatchers_call (f : Function) (arguments : List Expr) :
    (call f arguments).withoutMatchers = call f (arguments.map withoutMatchers) := by
  rw [withoutMatchers, mapSelectors, mapSelectorsList_eq_map]
  rfl

@[simp] theorem withoutMatchers_aggregate (op : Aggregator) (grouping : Option Grouping)
    (parameter : Option Expr) :
    (aggregate op grouping parameter e).withoutMatchers =
      aggregate op grouping (parameter.map withoutMatchers) e.withoutMatchers := by
  cases parameter <;> rfl

@[simp] theorem withoutMatchers_binary (op : Operator) (matching : VectorMatching) :
    (binary op matching left right).withoutMatchers =
      binary op matching left.withoutMatchers right.withoutMatchers := rfl

@[simp] theorem withoutMatchers_negated :
    (negated e).withoutMatchers = negated e.withoutMatchers := rfl

@[simp] theorem withoutMatchers_paren : (paren e).withoutMatchers = paren e.withoutMatchers := rfl

@[simp] theorem withoutMatchers_number (x : Binary64) : (number x).withoutMatchers = number x := rfl

@[simp] theorem withoutMatchers_string (text : String) :
    (string text).withoutMatchers = string text := rfl

end

/-- The merges of all filters amount to one change of the selectors. -/
theorem mergeAll_eq_mapSelectors (filters : List LabelFilter) (e : Expr) :
    e.mergeAll filters = e.mapSelectors (Selector.merged filters) := by
  induction filters generalizing e with
  | nil => rw [mergeAll_nil, funext Selector.merged_nil, mapSelectors_id]
  | cons f filters ih =>
    rw [Selector.merged_cons, ← mapSelectors_mapSelectors]
    exact ih (e.merge f)

theorem selectors_mergeAll (filters : List LabelFilter) (e : Expr) :
    (e.mergeAll filters).selectors = e.selectors.map (Selector.merged filters) := by
  rw [mergeAll_eq_mapSelectors, selectors_mapSelectors]

theorem matcherGroups_mergeAll (filters : List LabelFilter) (e : Expr) :
    (e.mergeAll filters).matcherGroups =
      e.matcherGroups.map (LabelFilter.mergeGroups filters) := by
  simp [matcherGroups, selectors_mergeAll, List.flatMap_map, List.map_flatMap,
    Selector.merged]

theorem withoutMatchers_mergeAll (filters : List LabelFilter) (e : Expr) :
    (e.mergeAll filters).withoutMatchers = e.withoutMatchers := by
  rw [mergeAll_eq_mapSelectors, withoutMatchers, mapSelectors_mapSelectors]
  rfl

end Expr

end PromQL

namespace LabelFilter

/-- A merge replaces the first matcher on its label and no other. -/
theorem filter_upsert (f : LabelFilter) (label : String) (ms : List Matcher) :
    (f.upsert ms).filter (fun m => m.name == label) =
      if f.name = label then f.matcher :: (ms.filter fun m => m.name == label).tail
      else ms.filter fun m => m.name == label := by
  induction ms with
  | nil => by_cases h : f.name = label <;> simp [upsert, h]
  | cons m rest ih =>
    by_cases hm : m.name = f.name
    · by_cases h : f.name = label <;> simp [upsert, hm, h]
    · by_cases h : f.name = label
      · have hl : m.name ≠ label := h ▸ hm
        simp [upsert, ih, h, hl]
      · simp [upsert, hm, ih, h, List.filter_cons]

/-- Merging filters replaces the first matcher on a label by the last filter on it,
and leaves the other matchers on the label. -/
theorem filter_mergeGroups (filters : List LabelFilter) (label : String) (ms : List Matcher) :
    (mergeGroups filters ms).filter (fun m => m.name == label) =
      match lastOn? filters label with
      | some f => f.matcher :: (ms.filter fun m => m.name == label).tail
      | none => ms.filter fun m => m.name == label := by
  induction filters using List.reverseRecOn with
  | nil => rfl
  | append_singleton filters f ih =>
    rw [mergeGroups_snoc, mergeGroup]
    cases hf : f.isNoop with
    | true =>
      rw [if_pos rfl, ih, lastOn?_snoc_of_noop hf]
    | false =>
      rw [if_neg (by simp), filter_upsert, lastOn?_snoc hf, ih]
      split
      · split <;> rfl
      · rfl

end LabelFilter

/-- After a merge a label that the filters name has the last filter on it as its only
matcher exactly in the groups that held at most one matcher on the label; in every
group that matcher comes first and further matchers on the label stay behind it. -/
theorem Query.single_matcher_iff (q : Query) (filters : List LabelFilter) (label : String)
    (f : LabelFilter) (hf : LabelFilter.lastOn? filters label = some f) :
    List.Forall₂
      (fun group merged : List Matcher =>
        (merged.filter (fun m => m.name == label) = [f.matcher] ↔
          (group.filter fun m => m.name == label).length ≤ 1) ∧
        merged.filter (fun m => m.name == label) =
          f.matcher :: (group.filter fun m => m.name == label).tail)
      q.expr.matcherGroups (q.mergeAll filters).expr.matcherGroups := by
  rw [Query.mergeAll, Expr.matcherGroups_mergeAll, List.forall₂_map_right_iff]
  apply List.forall₂_same.mpr
  intro group _
  rw [LabelFilter.filter_mergeGroups, hf]
  refine ⟨?_, rfl⟩
  rw [List.cons_eq_cons, ← List.length_eq_zero_iff, List.length_tail]
  simp
  omega

/-- Of two alternatives one repeats the label and one lacks it. -/
theorem Query.single_matcher_of_alternatives :
    LabelFilter.lastOn? [.equal "a" "3", .equal "a" ""] "a" = some (.equal "a" "3") ∧
    ∃ q, Query.parse "\x7ba=\"1\",a=\"2\" or b=\"2\"\x7d" = .ok q ∧
      List.Forall₂
        (fun group merged : List Matcher =>
          (merged.filter (fun m => m.name == "a") = [(LabelFilter.equal "a" "3").matcher] ↔
            (group.filter fun m => m.name == "a").length ≤ 1) ∧
          merged.filter (fun m => m.name == "a") =
            (LabelFilter.equal "a" "3").matcher ::
              (group.filter fun m => m.name == "a").tail)
        q.expr.matcherGroups
        (q.mergeAll [.equal "a" "3", .equal "a" ""]).expr.matcherGroups :=
  ⟨rfl, _, rfl, Query.single_matcher_iff _ _ "a" _ rfl⟩

/-- A query that repeats a label keeps the second matcher on it, so the merged group
has two. -/
theorem Query.repeated_label_stays :
    LabelFilter.lastOn? [.equal "a" "3"] "a" = some (.equal "a" "3") ∧
    ∃ q, Query.parse "m\x7ba=\"1\",a=\"2\"\x7d" = .ok q ∧
      (q.mergeAll [.equal "a" "3"]).expr.matcherGroups =
        [[⟨"a", .equal, "3"⟩, ⟨"a", .equal, "2"⟩]] :=
  ⟨rfl, _, rfl, rfl⟩

end MetricScope
