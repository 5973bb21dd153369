import Mathlib.Data.List.Basic
import MetricScope.Proofs.PromQL.Grammar

/-!
# Trees with other leaves

Reading a text back and merging filters both change the leaves of a tree and nothing else.
What depends on the shape of a tree alone is the same afterwards, the new tree is grammatical
if the new leaves are, and it has the same text if the leaves are written alike.
-/

set_option autoImplicit false

namespace MetricScope.PromQL

structure LeafMap where
  groups : MatcherGroups → MatcherGroups
  duration : Duration → Duration
  instant : Instant → Instant
  grouping : Option Grouping → Option Grouping
  matching : VectorMatching → VectorMatching

namespace LeafMap

def ofGroups (groups : MatcherGroups → MatcherGroups) : LeafMap := ⟨groups, id, id, id, id⟩

variable (F : LeafMap)

def leaf : Leaf → Leaf
  | .groups g => .groups (F.groups g)
  | .grouping g => .grouping (F.grouping g)
  | .matching m => .matching (F.matching m)
  | .duration d => .duration (F.duration d)
  | .instant i => .instant (F.instant i)
  | .number x => .number x
  | .string text => .string text

def comp (G F : LeafMap) : LeafMap :=
  ⟨G.groups ∘ F.groups, G.duration ∘ F.duration, G.instant ∘ F.instant,
    G.grouping ∘ F.grouping, G.matching ∘ F.matching⟩

theorem leaf_comp (G F : LeafMap) (l : Leaf) : (G.comp F).leaf l = G.leaf (F.leaf l) := by
  cases l <;> rfl

def offset (o : Offset) : Offset := ⟨o.negative, F.duration o.duration⟩

def selector (s : Selector) : Selector :=
  ⟨s.metric, F.groups s.groups, s.offset.map F.offset, s.at?.map F.instant⟩

end LeafMap

namespace Expr

section

variable (F : LeafMap)

mutual

def mapLeaves : Expr → Expr
  | selector s => selector (F.selector s)
  | range s length => range (F.selector s) (F.duration length)
  | subquery e length step offset at? =>
      subquery e.mapLeaves (F.duration length) (step.map F.duration) (offset.map F.offset)
        (at?.map F.instant)
  | call f arguments => call f (mapLeavesList arguments)
  | aggregate op grouping parameter e =>
      aggregate op (F.grouping grouping) (mapLeavesOption parameter) e.mapLeaves
  | binary op matching left right =>
      binary op (F.matching matching) left.mapLeaves right.mapLeaves
  | negated e => negated e.mapLeaves
  | paren e => paren e.mapLeaves
  | number x => number x
  | string text => string text

def mapLeavesList : List Expr → List Expr
  | [] => []
  | e :: rest => e.mapLeaves :: mapLeavesList rest

def mapLeavesOption : Option Expr → Option Expr
  | none => none
  | some e => some e.mapLeaves

end

theorem mapLeavesList_eq_map (es : List Expr) : mapLeavesList F es = es.map (mapLeaves F) := by
  induction es with
  | nil => rfl
  | cons e rest ih => rw [mapLeavesList, ih, List.map_cons]

theorem mapLeavesOption_eq_map (e? : Option Expr) :
    mapLeavesOption F e? = e?.map (mapLeaves F) := by
  cases e? <;> rfl

theorem selectors_mapLeaves (e : Expr) :
    (e.mapLeaves F).selectors = e.selectors.map F.selector := by
  induction e with
  | selector s => rfl
  | range s length => rfl
  | subquery e length step offset at? ih => exact ih
  | call f arguments ih =>
    simp only [mapLeaves, selectors, mapLeavesList_eq_map, selectorsList_eq_flatMap,
      List.map_flatMap, List.flatMap_map]
    exact List.flatMap_congr fun e he => ih e he
  | aggregate op grouping parameter e ihp ih =>
    cases parameter with
    | none => simp [mapLeaves, mapLeavesOption, selectors, selectorsOption, ih]
    | some p => simp [mapLeaves, mapLeavesOption, selectors, selectorsOption, ih, ihp p rfl]
  | binary op matching left right ihl ihr => simp [mapLeaves, selectors, ihl, ihr]
  | negated e ih => exact ih
  | paren e ih => exact ih
  | number x => rfl
  | string text => rfl

theorem leaves_time (offset : Option Offset) (at? : Option Instant) :
    instantLeaves (at?.map F.instant) ++ offsetLeaves (offset.map F.offset) =
      (instantLeaves at? ++ offsetLeaves offset).map F.leaf := by
  cases offset <;> cases at? <;> rfl

theorem leaves_selector (s : Selector) : (F.selector s).leaves = s.leaves.map F.leaf := by
  rw [Selector.leaves, Selector.leaves, List.map_cons, ← leaves_time]
  rfl

theorem leaves_mapLeaves (e : Expr) : (e.mapLeaves F).leaves = e.leaves.map F.leaf := by
  induction e with
  | selector s => exact leaves_selector F s
  | range s length =>
    rw [mapLeaves, leaves, leaves_selector]
    rfl
  | subquery e length step offset at? ih =>
    rw [mapLeaves, leaves, leaves, ih, leaves_time]
    cases step <;> simp [LeafMap.leaf]
  | call f arguments ih =>
    simp only [mapLeaves, leaves, mapLeavesList_eq_map, leavesList_eq_flatMap, List.map_flatMap,
      List.flatMap_map]
    exact List.flatMap_congr fun e he => ih e he
  | aggregate op grouping parameter e ihp ih =>
    simp only [mapLeaves, leaves, mapLeavesOption_eq_map, leavesOption_eq_flatMap, ih,
      List.map_cons, List.map_append]
    cases parameter with
    | none => rfl
    | some p => simp [ihp p rfl, LeafMap.leaf]
  | binary op matching left right ihl ihr => simp [mapLeaves, leaves, ihl, ihr, LeafMap.leaf]
  | negated e ih => exact ih
  | paren e ih => exact ih
  | number x => rfl
  | string text => rfl

theorem mapLeaves_mapLeaves (G : LeafMap) (e : Expr) :
    (e.mapLeaves F).mapLeaves G = e.mapLeaves (G.comp F) := by
  have hoffset : G.offset ∘ F.offset = (G.comp F).offset := rfl
  have hinstant : G.instant ∘ F.instant = (G.comp F).instant := rfl
  have hduration : G.duration ∘ F.duration = (G.comp F).duration := rfl
  have hselector : ∀ s, G.selector (F.selector s) = (G.comp F).selector s := by
    intro s
    simp only [LeafMap.selector, Option.map_map, hoffset, hinstant]
    rfl
  induction e with
  | selector s => rw [mapLeaves, mapLeaves, mapLeaves, hselector]
  | range s length =>
    rw [mapLeaves, mapLeaves, mapLeaves, hselector]
    rfl
  | subquery e length step offset at? ih =>
    rw [mapLeaves, mapLeaves, mapLeaves, ih, Option.map_map, Option.map_map, Option.map_map,
      hoffset, hinstant, hduration]
    rfl
  | call f arguments ih =>
    rw [mapLeaves, mapLeaves, mapLeaves, mapLeavesList_eq_map, mapLeavesList_eq_map,
      mapLeavesList_eq_map, List.map_map]
    exact congrArg _ (List.map_congr_left ih)
  | aggregate op grouping parameter e ihp ih =>
    rw [mapLeaves, mapLeaves, mapLeaves, mapLeavesOption_eq_map, mapLeavesOption_eq_map,
      mapLeavesOption_eq_map, Option.map_map, ih]
    congr 1
    exact Option.map_congr ihp
  | binary op matching left right ihl ihr =>
    rw [mapLeaves, mapLeaves, mapLeaves, ihl, ihr]
    rfl
  | negated e ih => rw [mapLeaves, mapLeaves, mapLeaves, ih]
  | paren e ih => rw [mapLeaves, mapLeaves, mapLeaves, ih]
  | number x => rfl
  | string text => rfl

theorem type_mapLeaves (e : Expr) : (e.mapLeaves F).type = e.type := by
  induction e with
  | binary op matching left right ihl ihr => simp [mapLeaves, type, ihl, ihr]
  | negated e ih => exact ih
  | paren e ih => exact ih
  | _ => rfl

theorem leftOperators_mapLeaves (e : Expr) :
    (e.mapLeaves F).leftOperators = e.leftOperators := by
  induction e with
  | binary op matching left right ihl ihr => simp [mapLeaves, leftOperators, ihl]
  | _ => rfl

theorem rightBinders_mapLeaves (e : Expr) : (e.mapLeaves F).rightBinders = e.rightBinders := by
  induction e with
  | binary op matching left right ihl ihr => simp [mapLeaves, rightBinders, ihr]
  | negated e ih => simp [mapLeaves, rightBinders, ih]
  | _ => rfl

theorem mapLeaves_eq_number {e : Expr} {x : Binary64} (h : e.mapLeaves F = number x) :
    e = number x := by
  cases e <;> simp [mapLeaves] at h
  rw [h]

theorem checkTypes_mapLeaves (f : Function) (place : Nat) (es : List Expr) :
    f.checkTypes place (es.map (mapLeaves F)) = f.checkTypes place es := by
  induction es generalizing place with
  | nil => rfl
  | cons e rest ih =>
    rw [List.map_cons, Function.checkTypes, Function.checkTypes, type_mapLeaves, ih]

theorem checkArguments_mapLeaves (f : Function) (es : List Expr) :
    f.checkArguments (es.map (mapLeaves F)) = f.checkArguments es := by
  unfold Function.checkArguments
  rw [List.length_map, checkTypes_mapLeaves]
  cases es with
  | nil => rfl
  | cons e rest => cases e <;> rfl

theorem checkAggregate_mapLeaves (op : Aggregator) (parameter : Option Expr) (e : Expr) :
    checkAggregate op (parameter.map (mapLeaves F)) (e.mapLeaves F) =
      checkAggregate op parameter e := by
  unfold checkAggregate
  rw [type_mapLeaves]
  cases parameter with
  | none => rfl
  | some p =>
    cases op.parameter? with
    | none => rfl
    | some expected => simp only [Option.map_some, type_mapLeaves]

end

structure Admits (e : Expr) (F : LeafMap) : Prop where
  selector : ∀ s ∈ e.selectors, s.IsRead → (F.selector s).IsRead
  matching : ∀ m, .matching m ∈ e.leaves → m.IsRead → (F.matching m).IsRead
  check : ∀ m, .matching m ∈ e.leaves →
    ∀ op left right, checkBinary op (F.matching m) left right = checkBinary op m left right

/-- The parts of a tree admit what the tree admits. -/
theorem Admits.of_subset {e part : Expr} {F : LeafMap} (h : e.Admits F)
    (hs : ∀ s ∈ part.selectors, s ∈ e.selectors) (hl : ∀ l ∈ part.leaves, l ∈ e.leaves) :
    part.Admits F where
  selector s hmem := h.selector s (hs s hmem)
  matching m hmem := h.matching m (hl _ hmem)
  check m hmem := h.check m (hl _ hmem)

theorem Grammatical.mapLeaves {F : LeafMap} {e : Expr} (h : e.Grammatical) (ha : e.Admits F) :
    (e.mapLeaves F).Grammatical := by
  induction h with
  | @selector s hs => exact .selector (ha.selector s List.mem_cons_self hs)
  | @range s length hs => exact .range (ha.selector s List.mem_cons_self hs)
  | @subquery e length step offset at? _ ho ht ih =>
    refine .subquery (ih (ha.of_subset (fun s hs => hs) fun l hl => ?_)) ⟨?_, ?_⟩ ?_
    · exact List.mem_append_left _ hl
    · rw [leftOperators_mapLeaves]
      exact ho.1
    · rw [rightBinders_mapLeaves]
      exact ho.2
    · rw [type_mapLeaves]
      exact ht
  | @call f arguments hf _ hc ih =>
    rw [Expr.mapLeaves, mapLeavesList_eq_map]
    refine .call hf ?_ ((checkArguments_mapLeaves F f arguments).trans hc)
    intro e he
    obtain ⟨argument, hmem, rfl⟩ := List.mem_map.mp he
    refine ih argument hmem (ha.of_subset (fun s hs => ?_) fun l hl => ?_)
    · rw [selectors, selectorsList_eq_flatMap]
      exact List.mem_flatMap_of_mem hmem hs
    · rw [leaves, leavesList_eq_flatMap]
      exact List.mem_flatMap_of_mem hmem hl
  | @aggregate op grouping parameter e hp _ _ hc ihp ih =>
    have hbody : e.Admits F := by
      apply ha.of_subset
      · exact fun s hs => List.mem_append_left _ hs
      · exact fun l hl => List.mem_cons_of_mem _ (List.mem_append_right _ hl)
    rw [Expr.mapLeaves, mapLeavesOption_eq_map]
    refine .aggregate ?_ ?_ (ih hbody) ((checkAggregate_mapLeaves F op parameter e).trans hc)
    · rw [Option.isSome_map]
      exact hp
    · intro p hmem
      obtain ⟨original, horiginal, rfl⟩ := Option.map_eq_some_iff.mp hmem
      subst horiginal
      refine ihp original rfl (ha.of_subset (fun s hs => ?_) fun l hl => ?_)
      · exact List.mem_append_right _ hs
      · exact List.mem_cons_of_mem _ (List.mem_append_left _ hl)
  | @binary op matching left right _ _ hm hclose hopen hc ihl ihr =>
    have hleft : left.Admits F := by
      apply ha.of_subset
      · exact fun s hs => List.mem_append_left _ hs
      · exact fun l hl => List.mem_cons_of_mem _ (List.mem_append_left _ hl)
    have hright : right.Admits F := by
      apply ha.of_subset
      · exact fun s hs => List.mem_append_right _ hs
      · exact fun l hl => List.mem_cons_of_mem _ (List.mem_append_right _ hl)
    refine .binary (ihl hleft) (ihr hright) (ha.matching matching List.mem_cons_self hm) ?_ ?_ ?_
    · intro b hb
      exact hclose b (rightBinders_mapLeaves F left ▸ hb)
    · rw [leftOperators_mapLeaves]
      exact hopen
    · rw [type_mapLeaves, type_mapLeaves, ha.check matching List.mem_cons_self]
      exact hc
  | @negated e _ ho ht hn ih =>
    refine .negated (ih (ha.of_subset (fun s hs => hs) fun l hl => hl)) ?_ ?_ ?_
    · rw [leftOperators_mapLeaves]
      exact ho
    · rw [type_mapLeaves]
      exact ht
    · exact fun x hx => hn x (mapLeaves_eq_number F hx)
  | paren _ ih => exact .paren (ih (ha.of_subset (fun s hs => hs) fun l hl => hl))
  | number hx => exact .number hx
  | string => exact .string

end Expr

def Leaf.written : Leaf → List String
  | groups g => [g.bracedText]
  | grouping g => [groupingText g]
  | matching m => m.words
  | duration d => [d.text]
  | instant i => [i.text]
  | number x => [numberText x]
  | string text => [quote text]

section

variable {F G : LeafMap}

theorem offsetText_map {offset : Option Offset}
    (h : ∀ l ∈ offsetLeaves offset, (F.leaf l).written = (G.leaf l).written) :
    offsetText (offset.map F.offset) = offsetText (offset.map G.offset) := by
  cases offset with
  | none => rfl
  | some o =>
    have ho := h (.duration o.duration) (by simp [offsetLeaves])
    have htext : (F.duration o.duration).text = (G.duration o.duration).text := by
      simpa [LeafMap.leaf, Leaf.written] using ho
    simp only [Option.map_some, offsetText, LeafMap.offset, htext]

theorem instantText_map {at? : Option Instant}
    (h : ∀ l ∈ instantLeaves at?, (F.leaf l).written = (G.leaf l).written) :
    instantText (at?.map F.instant) = instantText (at?.map G.instant) := by
  cases at? with
  | none => rfl
  | some i =>
    have hi := h (.instant i) (by simp [instantLeaves])
    have htext : (F.instant i).text = (G.instant i).text := by
      simpa [LeafMap.leaf, Leaf.written] using hi
    simp only [Option.map_some, instantText, htext]

theorem durationText_map {d : Duration}
    (h : (F.leaf (.duration d)).written = (G.leaf (.duration d)).written) :
    (F.duration d).text = (G.duration d).text := by
  simpa [LeafMap.leaf, Leaf.written] using h

theorem stepText_map {step : Option Duration}
    (h : ∀ l ∈ (step.map Leaf.duration).toList, (F.leaf l).written = (G.leaf l).written) :
    (step.map F.duration).map Duration.text = (step.map G.duration).map Duration.text := by
  cases step with
  | none => rfl
  | some d => exact congrArg some (durationText_map (h _ (by simp)))

namespace Selector

theorem seriesText_map {s : Selector}
    (h : ∀ l ∈ s.leaves, (F.leaf l).written = (G.leaf l).written) :
    (F.selector s).seriesText = (G.selector s).seriesText := by
  have hgroups := h (.groups s.groups) List.mem_cons_self
  have htext : (F.groups s.groups).bracedText = (G.groups s.groups).bracedText := by
    simpa [LeafMap.leaf, Leaf.written] using hgroups
  simp only [seriesText, LeafMap.selector, htext]

theorem timeText_map {s : Selector}
    (h : ∀ l ∈ s.leaves, (F.leaf l).written = (G.leaf l).written) :
    (F.selector s).timeText = (G.selector s).timeText := by
  simp only [leaves, List.mem_cons, List.mem_append] at h
  simp only [timeText, LeafMap.selector]
  rw [instantText_map fun l hl => h l (.inr (.inl hl)),
    offsetText_map fun l hl => h l (.inr (.inr hl))]

end Selector

namespace Expr

theorem textList_eq_map (es : List Expr) : textList es = es.map text := by
  induction es with
  | nil => rfl
  | cons e rest ih => rw [textList, ih, List.map_cons]

/-- Trees with leaves that are written alike have the same text. -/
theorem text_mapLeaves {e : Expr}
    (h : ∀ l ∈ e.leaves, (F.leaf l).written = (G.leaf l).written) :
    (e.mapLeaves F).text = (e.mapLeaves G).text := by
  induction e with
  | selector s =>
    rw [mapLeaves, mapLeaves, text, text, Selector.seriesText_map h, Selector.timeText_map h]
  | range s length =>
    have hs : ∀ l ∈ s.leaves, (F.leaf l).written = (G.leaf l).written :=
      fun l hl => h l (List.mem_cons_of_mem _ hl)
    rw [mapLeaves, mapLeaves, text, text, Selector.seriesText_map hs, Selector.timeText_map hs,
      durationText_map (h _ List.mem_cons_self)]
  | subquery e length step offset at? ih =>
    simp only [leaves, List.mem_append, List.mem_cons] at h
    rw [mapLeaves, mapLeaves, text, text, ih fun l hl => h l (.inl hl),
      durationText_map (h _ (.inr (.inl rfl))),
      stepText_map fun l hl => h l (.inr (.inr (.inl hl))),
      instantText_map fun l hl => h l (.inr (.inr (.inr (.inl hl)))),
      offsetText_map fun l hl => h l (.inr (.inr (.inr (.inr hl))))]
  | call f arguments ih =>
    rw [leaves, leavesList_eq_flatMap] at h
    rw [mapLeaves, mapLeaves, text, text, textList_eq_map, textList_eq_map,
      mapLeavesList_eq_map, mapLeavesList_eq_map, List.map_map, List.map_map]
    congr 3
    refine List.map_congr_left fun e he => ?_
    exact ih e he fun l hl => h l (List.mem_flatMap_of_mem he hl)
  | aggregate op grouping parameter e ihp ih =>
    simp only [leaves, List.mem_cons, List.mem_append] at h
    have hgrouping : groupingText (F.grouping grouping) = groupingText (G.grouping grouping) := by
      simpa [LeafMap.leaf, Leaf.written] using h _ (.inl rfl)
    have hparameter : textOption (mapLeavesOption F parameter) =
        textOption (mapLeavesOption G parameter) := by
      cases parameter with
      | none => rfl
      | some p =>
        rw [mapLeavesOption, mapLeavesOption, textOption, textOption,
          ihp p rfl fun l hl => h l (.inr (.inl hl))]
    rw [mapLeaves, mapLeaves, text, text, hgrouping, hparameter,
      ih fun l hl => h l (.inr (.inr hl))]
  | binary op matching left right ihl ihr =>
    simp only [leaves, List.mem_cons, List.mem_append] at h
    have hmatching : (F.matching matching).words = (G.matching matching).words :=
      h _ (.inl rfl)
    rw [mapLeaves, mapLeaves, text, text, hmatching, ihl fun l hl => h l (.inr (.inl hl)),
      ihr fun l hl => h l (.inr (.inr hl))]
  | negated e ih => rw [mapLeaves, mapLeaves, text, text, ih h]
  | paren e ih => rw [mapLeaves, mapLeaves, text, text, ih h]
  | number x => rfl
  | string text => rfl

end Expr

end

namespace LeafMap

variable (groups : MatcherGroups → MatcherGroups)

@[simp] theorem groups_ofGroups : (ofGroups groups).groups = groups := rfl

@[simp] theorem duration_ofGroups : (ofGroups groups).duration = id := rfl

@[simp] theorem instant_ofGroups : (ofGroups groups).instant = id := rfl

@[simp] theorem grouping_ofGroups : (ofGroups groups).grouping = id := rfl

@[simp] theorem matching_ofGroups : (ofGroups groups).matching = id := rfl

@[simp] theorem offset_ofGroups : (ofGroups groups).offset = id := rfl

theorem selector_ofGroups :
    (ofGroups groups).selector = fun s => { s with groups := groups s.groups } := by
  funext s
  simp [selector]

theorem leaf_ofGroups_id (l : Leaf) : (ofGroups id).leaf l = l := by
  cases l <;> rfl

end LeafMap

namespace Expr

theorem mapLeaves_ofGroups (groups : MatcherGroups → MatcherGroups) (e : Expr) :
    e.mapLeaves (.ofGroups groups) =
      e.mapSelectors fun s => { s with groups := groups s.groups } := by
  rw [← LeafMap.selector_ofGroups]
  induction e with
  | selector s => rfl
  | range s length => rfl
  | subquery e length step offset at? ih => simp [mapLeaves, mapSelectors, ih]
  | call f arguments ih =>
    rw [mapLeaves, mapSelectors, mapLeavesList_eq_map, mapSelectorsList_eq_map]
    exact congrArg _ (List.map_congr_left ih)
  | aggregate op grouping parameter e ihp ih =>
    rw [mapLeaves, mapSelectors, mapLeavesOption_eq_map, mapSelectorsOption_eq_map, ih]
    congr 1
    exact Option.map_congr ihp
  | binary op matching left right ihl ihr => simp [mapLeaves, mapSelectors, ihl, ihr]
  | negated e ih => rw [mapLeaves, mapSelectors, ih]
  | paren e ih => rw [mapLeaves, mapSelectors, ih]
  | number x => rfl
  | string text => rfl

end Expr

end MetricScope.PromQL
