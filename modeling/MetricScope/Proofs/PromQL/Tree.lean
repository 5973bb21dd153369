import MetricScope.PromQL.Expr

/-!
# Induction over trees and the selectors in them

The children of calls and aggregations stand in lists and options. The induction
principle speaks of their members, so that a proof needs one case for each
constructor. Occurrence is defined apart from both traversals and agrees with them.
-/

set_option autoImplicit false

namespace MetricScope.PromQL

namespace Expr

@[elab_as_elim, induction_eliminator]
theorem induction {motive : Expr → Prop}
    (selector : ∀ s, motive (selector s))
    (range : ∀ s length, motive (range s length))
    (subquery : ∀ e length step offset at?, motive e →
      motive (subquery e length step offset at?))
    (call : ∀ f arguments, (∀ e ∈ arguments, motive e) → motive (call f arguments))
    (aggregate : ∀ op grouping parameter e, (∀ p ∈ parameter, motive p) → motive e →
      motive (aggregate op grouping parameter e))
    (binary : ∀ op matching left right, motive left → motive right →
      motive (binary op matching left right))
    (negated : ∀ e, motive e → motive (negated e))
    (paren : ∀ e, motive e → motive (paren e))
    (number : ∀ x, motive (number x))
    (string : ∀ text, motive (string text)) (e : Expr) : motive e :=
  @Expr.rec motive (fun es => ∀ e ∈ es, motive e) (fun e? => ∀ e ∈ e?, motive e)
    selector range subquery call aggregate binary negated paren number string
    (by simp) (fun e rest he hrest => by simpa using ⟨he, hrest⟩)
    (by simp) (fun e he => by simpa using he) e

theorem mapSelectorsList_eq_map (f : Selector → Selector) (es : List Expr) :
    mapSelectorsList f es = es.map (mapSelectors f) := by
  induction es with
  | nil => rfl
  | cons e rest ih => rw [mapSelectorsList, ih, List.map_cons]

theorem mapSelectorsOption_eq_map (f : Selector → Selector) (e? : Option Expr) :
    mapSelectorsOption f e? = e?.map (mapSelectors f) := by
  cases e? <;> rfl

theorem selectorsList_eq_flatMap (es : List Expr) :
    selectorsList es = es.flatMap selectors := by
  induction es with
  | nil => rfl
  | cons e rest ih => rw [selectorsList, ih, List.flatMap_cons]

theorem mapSelectors_mapSelectors (f g : Selector → Selector) (e : Expr) :
    (e.mapSelectors f).mapSelectors g = e.mapSelectors (g ∘ f) := by
  induction e with
  | selector s => rfl
  | range s length => rfl
  | subquery e length step offset at? ih => simp [mapSelectors, ih]
  | call function arguments ih =>
    simp only [mapSelectors, mapSelectorsList_eq_map, List.map_map, call.injEq, true_and]
    exact List.map_congr_left ih
  | aggregate op grouping parameter e ihp ih =>
    simp only [mapSelectors, mapSelectorsOption_eq_map, Option.map_map, ih,
      aggregate.injEq, true_and, and_true]
    exact Option.map_congr ihp
  | binary op matching left right ihl ihr => simp [mapSelectors, ihl, ihr]
  | negated e ih => simp [mapSelectors, ih]
  | paren e ih => simp [mapSelectors, ih]
  | number x => rfl
  | string text => rfl

theorem mapSelectors_id (e : Expr) : e.mapSelectors (fun s => s) = e := by
  induction e with
  | selector s => rfl
  | range s length => rfl
  | subquery e length step offset at? ih => simp [mapSelectors, ih]
  | call f arguments ih =>
    simp only [mapSelectors, mapSelectorsList_eq_map, call.injEq, true_and]
    simpa using List.map_congr_left ih
  | aggregate op grouping parameter e ihp ih =>
    simp only [mapSelectors, mapSelectorsOption_eq_map, ih, aggregate.injEq, true_and, and_true]
    simpa using Option.map_congr ihp
  | binary op matching left right ihl ihr => simp [mapSelectors, ihl, ihr]
  | negated e ih => simp [mapSelectors, ih]
  | paren e ih => simp [mapSelectors, ih]
  | number x => rfl
  | string text => rfl

end Expr

inductive Selector.OccursIn (s : Selector) : Expr → Prop
  | selector : OccursIn s (.selector s)
  | range {length : Duration} : OccursIn s (.range s length)
  | subquery {e : Expr} {length : Duration} {step : Option Duration}
      {offset : Option Offset} {at? : Option Instant} :
      OccursIn s e → OccursIn s (.subquery e length step offset at?)
  | call {f : Function} {arguments : List Expr} {e : Expr} :
      e ∈ arguments → OccursIn s e → OccursIn s (.call f arguments)
  | aggregated {op : Aggregator} {grouping : Option Grouping} {parameter : Option Expr}
      {e : Expr} : OccursIn s e → OccursIn s (.aggregate op grouping parameter e)
  | parameter {op : Aggregator} {grouping : Option Grouping} {p e : Expr} :
      OccursIn s p → OccursIn s (.aggregate op grouping (some p) e)
  | left {op : Operator} {matching : VectorMatching} {left right : Expr} :
      OccursIn s left → OccursIn s (.binary op matching left right)
  | right {op : Operator} {matching : VectorMatching} {left right : Expr} :
      OccursIn s right → OccursIn s (.binary op matching left right)
  | negated {e : Expr} : OccursIn s e → OccursIn s (.negated e)
  | paren {e : Expr} : OccursIn s e → OccursIn s (.paren e)

namespace Selector

theorem mem_selectors_of_occursIn {s : Selector} {e : Expr} (h : s.OccursIn e) :
    s ∈ e.selectors := by
  induction h with
  | selector => simp [Expr.selectors]
  | range => simp [Expr.selectors]
  | subquery _ ih => exact ih
  | call hmem _ ih =>
    rw [Expr.selectors, Expr.selectorsList_eq_flatMap]
    exact List.mem_flatMap_of_mem hmem ih
  | aggregated _ ih => exact List.mem_append_left _ ih
  | parameter _ ih => exact List.mem_append_right _ ih
  | left _ ih => exact List.mem_append_left _ ih
  | right _ ih => exact List.mem_append_right _ ih
  | negated _ ih => exact ih
  | paren _ ih => exact ih

theorem occursIn_of_mem_selectors {s : Selector} {e : Expr} (h : s ∈ e.selectors) :
    s.OccursIn e := by
  induction e with
  | selector t =>
    rw [Expr.selectors, List.mem_singleton] at h
    subst h
    exact .selector
  | range t length =>
    rw [Expr.selectors, List.mem_singleton] at h
    subst h
    exact .range
  | subquery e length step offset at? ih => exact .subquery (ih h)
  | call f arguments ih =>
    rw [Expr.selectors, Expr.selectorsList_eq_flatMap] at h
    obtain ⟨e, hmem, he⟩ := List.mem_flatMap.mp h
    exact .call hmem (ih e hmem he)
  | aggregate op grouping parameter e ihp ih =>
    rcases List.mem_append.mp h with h | h
    · exact .aggregated (ih h)
    · cases parameter with
      | none => simp [Expr.selectorsOption] at h
      | some p => exact .parameter (ihp p rfl h)
  | binary op matching left right ihl ihr =>
    rcases List.mem_append.mp h with h | h
    · exact .left (ihl h)
    · exact .right (ihr h)
  | negated e ih => exact .negated (ih h)
  | paren e ih => exact .paren (ih h)
  | number x => simp [Expr.selectors] at h
  | string text => simp [Expr.selectors] at h

/-- The traversal visits exactly the selectors that stand in the tree. -/
theorem occursIn_iff {s : Selector} {e : Expr} : s.OccursIn e ↔ s ∈ e.selectors :=
  ⟨mem_selectors_of_occursIn, occursIn_of_mem_selectors⟩

end Selector

end MetricScope.PromQL
