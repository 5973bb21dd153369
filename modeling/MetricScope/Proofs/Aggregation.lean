import MetricScope.Aggregation
import MetricScope.Proofs.Merging.Rendering
import MetricScope.Proofs.PromQL.Numbers

/-!
# Aggregations are written as they are read

The text of an aggregation that was built is the canonical text of a query. Filters may
therefore be merged into the aggregation or into the query that its text is read as.
-/

set_option autoImplicit false

namespace MetricScope

open PromQL

namespace TemplateVariable

/-- A text with no beginning of a token and no stand-in in it. -/
structure Unmarked (text : String) : Prop where
  token : ¬ "$__".toList <:+: text.toList
  standIn (v : TemplateVariable) : ¬ v.standIn.toList <:+: text.toList

theorem unmarked_of_no_sign {text : String}
    (h : ∀ sign ∈ signs, Text.occursIn sign text.toList = false) : Unmarked text where
  token hin := by
    have hsign : ['_', '_'] <:+: "$__".toList := by decide
    have hoccurs := h ['_', '_'] (by decide)
    rw [Text.occursIn_iff_isInfix.mpr (hsign.trans hin)] at hoccurs
    exact absurd hoccurs (by simp)
  standIn := not_standIn_isInfix_of_no_sign h

/-- Most texts have no signs in them, which is quicker to decide than the rest. -/
theorem unmarked_iff {text : String} :
    Unmarked text ↔ (∀ sign ∈ signs, Text.occursIn sign text.toList = false) ∨
      Text.occursIn "$__".toList text.toList = false ∧
        ∀ v ∈ all, Text.occursIn v.standIn.toList text.toList = false := by
  constructor
  · intro h
    simp only [← Bool.not_eq_true, Text.occursIn_iff_isInfix]
    exact .inr ⟨h.token, fun v _ => h.standIn v⟩
  · rintro (h | h)
    · exact unmarked_of_no_sign h
    · simp only [← Bool.not_eq_true, Text.occursIn_iff_isInfix] at h
      exact ⟨h.1, fun v => h.2 v (mem_all v)⟩

instance (text : String) : Decidable (Unmarked text) :=
  decidable_of_iff _ unmarked_iff.symm

theorem Unmarked.clear {text : String} (h : Unmarked text) (vars : List TemplateVariable) :
    Clear vars text where
  keeps v _ _ hin := h.standIn v ((List.prefix_append _ _).isInfix.trans (v.dottedStandIn_eq ▸ hin))
  unmixed :=
    { no_token := by
        intro v hin
        have hstart : "$__".toList <+: v.token.toList := by
          cases v <;> decide
        exact h.token (hstart.isInfix.trans hin)
      no_extension := fun {v w rest} _ _ _ hin =>
        h.standIn w ((List.prefix_append _ _).isInfix.trans hin) }

end TemplateVariable

open TemplateVariable (Unmarked)

/-- A filter on a plain label whose value needs no escapes. -/
structure LabelFilter.IsReadable (f : LabelFilter) : Prop where
  label : isLabelName f.name = true
  not_metric : f.name ≠ Selector.metricLabel
  value : Plain f.value
  pattern : f.matchType = .regexMatch ∨ f.matchType = .regexNotMatch →
    (Regex.Pattern.compile? (Regex.Pattern.anchored f.value)).isSome = true
  unmarked_name : Unmarked f.name
  unmarked_value : Unmarked f.value

instance (text : String) : Decidable (Plain text) :=
  inferInstanceAs (Decidable (text.toList.all Lexer.isPlain = true))

instance (f : LabelFilter) : Decidable f.IsReadable :=
  decidable_of_iff
    (isLabelName f.name = true ∧ f.name ≠ Selector.metricLabel ∧ Plain f.value ∧
      (f.matchType = .regexMatch ∨ f.matchType = .regexNotMatch →
        (Regex.Pattern.compile? (Regex.Pattern.anchored f.value)).isSome = true) ∧
      Unmarked f.name ∧ Unmarked f.value)
    ⟨fun ⟨hlabel, hmetric, hvalue, hpattern, hname, hunmarked⟩ =>
        ⟨hlabel, hmetric, hvalue, hpattern, hname, hunmarked⟩,
      fun h => ⟨h.label, h.not_metric, h.value, h.pattern, h.unmarked_name, h.unmarked_value⟩⟩

theorem LabelFilter.IsReadable.isSettled {f : LabelFilter} (h : f.IsReadable) : f.IsSettled where
  clear := ⟨⟨.inl h.label, h.value, h.not_metric, h.pattern⟩, h.unmarked_name.clear _,
    h.unmarked_value.clear _⟩
  name := h.unmarked_name.standIn
  value := h.unmarked_value.standIn

def ReadableLabels (labels : List String) : Prop :=
  ∀ name ∈ labels, IsLabel name ∧ Unmarked name

instance (name : String) : Decidable (IsLabel name) :=
  decidable_of_iff ((isLabelName name = true ∨ Plain name) ∧
      LabelList.label? (labelToken name) = some (.ok name))
    ⟨fun h => ⟨h.1, h.2⟩, fun h => ⟨h.bare_or_plain, h.label⟩⟩

instance (labels : List String) : Decidable (ReadableLabels labels) :=
  inferInstanceAs (Decidable (∀ name ∈ labels, IsLabel name ∧ Unmarked name))

/-- A metric, labels and filters that are read as they are written. -/
structure Aggregation.RateTerm.IsReadable (t : Aggregation.RateTerm) : Prop where
  metric : IsMetricName t.metric
  unmarked : Unmarked t.metric
  labels : ReadableLabels t.labels
  filters : ∀ f ∈ t.filters, f.IsReadable

instance (name : String) : Decidable (IsMetricName name) :=
  inferInstanceAs (Decidable (Lexer.isWord name.toList = true ∧
    (Lexer.wordToken name).namesMetric = true))

instance (t : Aggregation.RateTerm) : Decidable t.IsReadable :=
  decidable_of_iff (IsMetricName t.metric ∧ Unmarked t.metric ∧ ReadableLabels t.labels ∧
      ∀ f ∈ t.filters, f.IsReadable)
    ⟨fun h => ⟨h.1, h.2.1, h.2.2.1, h.2.2.2⟩,
      fun h => ⟨h.metric, h.unmarked, h.labels, h.filters⟩⟩

namespace PromQL.Expr

theorem isSettled_selector {metric : String} (h : IsMetricName metric) (hu : Unmarked metric) :
    (selector ⟨some metric, .empty, none, none⟩).IsSettled where
  grammatical := .selector
    { metric := by
        intro name hname
        rwa [← Option.mem_some.mp hname]
      matchers := by simp [MatcherGroups.matchers, MatcherGroups.toList, MatcherGroups.empty]
      alternatives := fun hne => absurd rfl hne
      check := rfl }
  clear :=
    { legible := by
        intro l hl
        obtain rfl : l = .groups .empty := List.mem_singleton.mp hl
        exact ⟨by simp [MatcherGroups.matchers, MatcherGroups.toList, MatcherGroups.empty],
          fun hne => absurd rfl hne⟩
      keeps := by
        intro l hl text htext
        obtain rfl : l = .groups .empty := List.mem_singleton.mp hl
        exact absurd htext List.not_mem_nil
      unmixed := by
        intro part hpart
        obtain rfl : part = metric := List.mem_singleton.mp hpart
        exact (hu.clear _).unmixed
      leading := by
        intro g hg hne
        obtain rfl : g = .empty := Leaf.groups.inj (List.mem_singleton.mp hg)
        exact absurd rfl hne }
  metric s hs := by
    obtain rfl := List.mem_singleton.mp hs
    rfl
  distinct g hg _ := by
    obtain rfl : g = .empty := Leaf.groups.inj (List.mem_singleton.mp hg)
    exact List.nodup_nil

structure IsOwnLeaf (l : Leaf) : Prop where
  not_groups : ∀ g, l ≠ .groups g
  legible : l.IsLegible
  keeps : l.Keeps TemplateVariable.all
  unmixed : ∀ part ∈ l.parts, TemplateVariable.Unmixed TemplateVariable.all part.toList

/-- Settled parts make a settled node when its own leaves are settled. -/
theorem isSettled_node {e : Expr} (parts : List Expr) (own : List Leaf)
    (hg : e.Grammatical) (hparts : ∀ part ∈ parts, part.IsSettled)
    (hs : ∀ s ∈ e.selectors, ∃ part ∈ parts, s ∈ part.selectors)
    (hl : ∀ l ∈ e.leaves, l ∈ own ∨ ∃ part ∈ parts, l ∈ part.leaves)
    (hown : ∀ l ∈ own, IsOwnLeaf l) : e.IsSettled where
  grammatical := hg
  clear :=
    { legible := by
        intro l hmem
        rcases hl l hmem with hmem | ⟨part, hpart, hmem⟩
        · exact (hown l hmem).legible
        · exact (hparts part hpart).clear.legible l hmem
      keeps := by
        intro l hmem
        rcases hl l hmem with hmem | ⟨part, hpart, hmem⟩
        · exact (hown l hmem).keeps
        · exact (hparts part hpart).clear.keeps l hmem
      unmixed := by
        intro text htext
        rcases List.mem_append.mp htext with htext | htext
        · obtain ⟨s, hmem, hmetric⟩ := List.mem_filterMap.mp htext
          obtain ⟨part, hpart, hmem⟩ := hs s hmem
          refine (hparts part hpart).clear.unmixed text (List.mem_append_left _ ?_)
          exact List.mem_filterMap.mpr ⟨s, hmem, hmetric⟩
        · obtain ⟨l, hmem, htext⟩ := List.mem_flatMap.mp htext
          rcases hl l hmem with hmem | ⟨part, hpart, hmem⟩
          · exact (hown l hmem).unmixed text htext
          · refine (hparts part hpart).clear.unmixed text (List.mem_append_right _ ?_)
            exact List.mem_flatMap.mpr ⟨l, hmem, htext⟩
      leading := by
        intro g hmem
        rcases hl _ hmem with hmem | ⟨part, hpart, hmem⟩
        · exact absurd rfl ((hown _ hmem).not_groups g)
        · exact (hparts part hpart).clear.leading g hmem }
  metric s hmem := by
    obtain ⟨part, hpart, hmem⟩ := hs s hmem
    exact (hparts part hpart).metric s hmem
  distinct g hmem := by
    rcases hl _ hmem with hmem | ⟨part, hpart, hmem⟩
    · exact absurd rfl ((hown _ hmem).not_groups g)
    · exact (hparts part hpart).distinct g hmem

theorem isSettled_overRange (function : String) {s : Selector}
    (hf : Function.find? function = some (.overRange function)) (h : (selector s).IsSettled) :
    (call (.overRange function) [range s Aggregation.rateInterval]).IsSettled := by
  have hg : (call (.overRange function) [range s Aggregation.rateInterval]).Grammatical := by
    cases h.grammatical with
    | selector hs =>
      refine .call hf ?_ rfl
      intro e he
      obtain rfl := List.mem_singleton.mp he
      exact .range hs
  refine isSettled_node [selector s] [.duration Aggregation.rateInterval] hg
    ?_ ?_ ?_ ?_
  · simpa using h
  · simp [selectors, selectorsList]
  · simp [leaves, leavesList]
  · intro l hl
    obtain rfl := List.mem_singleton.mp hl
    have hcounts : Aggregation.rateInterval.IsLegible := by
      refine ⟨by decide, ?_⟩
      rw [Duration.CountsFit]
      decide +kernel
    refine ⟨by simp, hcounts, fun text htext => absurd htext List.not_mem_nil, ?_⟩
    intro part hpart
    obtain rfl : part = Aggregation.rateInterval.text := List.mem_singleton.mp hpart
    exact TemplateVariable.unmixed_of_not_mem _ (by decide +kernel) (by decide +kernel)

theorem isOwnLeaf_of_unmarked {l : Leaf} (hg : ∀ g, l ≠ .groups g) (hl : l.IsLegible)
    (hparts : l.parts = l.texts) (h : ∀ text ∈ l.texts, Unmarked text) : IsOwnLeaf l where
  not_groups := hg
  legible := hl
  keeps text htext := ((h text htext).clear _).keeps
  unmixed text htext := ((h text (hparts ▸ htext)).clear _).unmixed

theorem isOwnLeaf_grouping {g : Option Grouping}
    (h : ∀ labels ∈ g, ReadableLabels labels.labels) : IsOwnLeaf (.grouping g) := by
  refine isOwnLeaf_of_unmarked (by simp) ?_ rfl ?_
  · exact fun labels hlabels name hname => (h labels hlabels name hname).1
  · intro text htext
    obtain ⟨labels, hlabels, htext⟩ := List.mem_flatMap.mp htext
    exact (h labels (Option.mem_toList.mp hlabels) text htext).2

theorem isOwnLeaf_plain : IsOwnLeaf (.matching .plain) := by
  refine isOwnLeaf_of_unmarked (by simp) ⟨fun _ => rfl, ?_, ?_⟩ rfl ?_
  · simp [VectorMatching.plain]
  · simp [VectorMatching.plain, Cardinality.labels?]
  · exact fun text htext => absurd htext List.not_mem_nil

theorem isOwnLeaf_groupLeft {on group : List String} (hon : ReadableLabels on)
    (hgroup : ReadableLabels group) :
    IsOwnLeaf (.matching ⟨false, some (.including on), .manyToOne group⟩) := by
  refine isOwnLeaf_of_unmarked (by simp) ⟨by simp, ?_, ?_⟩ rfl ?_
  · intro g hg name hname
    obtain rfl := Option.mem_some.mp hg
    exact (hon name hname).1
  · intro labels hlabels name hname
    obtain rfl := Option.mem_some.mp hlabels
    exact (hgroup name hname).1
  · intro text htext
    simp only [Leaf.texts, Option.toList_some, List.flatMap_cons, List.flatMap_nil,
      List.append_nil, Grouping.labels, Cardinality.labels?, List.flatten_cons,
      List.flatten_nil, List.mem_append] at htext
    rcases htext with htext | htext
    · exact (hon text htext).2
    · exact (hgroup text htext).2

theorem isSettled_aggregate {op : Aggregator} {labels : List String} {e : Expr}
    (hop : op.parameter? = none) (ht : e.type = .vector) (hl : ReadableLabels labels)
    (h : e.IsSettled) : (Aggregation.aggregate op labels e).IsSettled := by
  have hg : (Aggregation.aggregate op labels e).Grammatical := by
    refine .aggregate (by simp [hop]) (by simp) h.grammatical ?_
    simp [checkAggregate, ht]
  refine isSettled_node [e]
    [.grouping (if labels.isEmpty then none else some (.including labels))] hg
    ?_ ?_ ?_ ?_
  · simpa using h
  · simp [Aggregation.aggregate, selectors, selectorsOption]
  · simp [Aggregation.aggregate, leaves, leavesOption]
  · intro l hmem
    obtain rfl := List.mem_singleton.mp hmem
    refine isOwnLeaf_grouping fun g hg => ?_
    split at hg
    · exact absurd hg (by simp)
    · obtain rfl := Option.mem_some.mp hg
      exact hl

theorem isSettled_binary {op : Operator} {m : VectorMatching} {left right : Expr}
    (hleft : left.IsSettled) (hright : right.IsSettled) (hm : IsOwnLeaf (.matching m))
    (hg : (binary op m left right).Grammatical) : (binary op m left right).IsSettled := by
  refine isSettled_node [left, right] [.matching m] hg ?_ ?_ ?_ ?_
  · simp [hleft, hright]
  · simp [selectors]
  · simp [leaves]
  · simpa using hm

end PromQL.Expr

namespace Aggregation

def aggregations : List (String → List String → List LabelFilter → Expr) :=
  [sumBy, avgBy, maxBy, minBy, sumByRate, sumByIncrease]

def IsAggregation (e : Expr) : Prop :=
  ∃ build ∈ aggregations, ∃ t : RateTerm, t.IsReadable ∧ e = build t.metric t.labels t.filters

/-- The expressions that panels are made of. -/
inductive IsBuilt : Expr → Prop
  | aggregation {e : Expr} : IsAggregation e → IsBuilt e
  | ratio {numerator denominator : RateTerm} : numerator.IsReadable → denominator.IsReadable →
      IsBuilt (errorCaseRatio numerator denominator)
  | percentage {numerator denominator : RateTerm} : numerator.IsReadable →
      denominator.IsReadable → IsBuilt (errorCasePercentage numerator denominator)
  | groupLeft {op : Operator} {left right : Expr} {on group : List String} :
      op.isSet = false → IsAggregation left → IsAggregation right →
      ReadableLabels on → ReadableLabels group → (∀ label ∈ on, label ∉ group) →
      IsBuilt (onGroupLeft (binary op left right) on group)

theorem foldl_mergeSelector (filters : List LabelFilter) (s : Selector) :
    filters.foldl (fun s f => f.mergeSelector s) s = s.merged filters := by
  induction filters generalizing s with
  | nil => exact (Selector.merged_nil s).symm
  | cons f filters ih => rw [List.foldl_cons, ih, Selector.merged_cons, Function.comp_apply]

/-- The filters of an aggregation are merged into a selector without matchers. -/
theorem selector_eq_mergeAll (metric : String) (filters : List LabelFilter) :
    Expr.selector (selector metric filters) =
      (Expr.selector ⟨some metric, .empty, none, none⟩).mergeAll filters := by
  rw [selector, foldl_mergeSelector, Expr.mergeAll_eq_mapSelectors]
  rfl

theorem RateTerm.IsReadable.isSettled {t : RateTerm} (h : t.IsReadable) :
    (Expr.selector (selector t.metric t.filters)).IsSettled := by
  rw [selector_eq_mergeAll]
  exact (Expr.isSettled_selector h.metric h.unmarked).mergeAll
    fun f hf _ => (h.filters f hf).isSettled

/-- Every aggregation is settled, and a single operand whose values are vectors. -/
theorem IsAggregation.isSettled {e : Expr} (h : IsAggregation e) :
    e.IsSettled ∧ e.type = .vector ∧ e.IsOperand := by
  obtain ⟨build, hbuild, t, ht, rfl⟩ := h
  have hselector := ht.isSettled
  simp only [aggregations, List.mem_cons, List.not_mem_nil, or_false] at hbuild
  rcases hbuild with rfl | rfl | rfl | rfl | rfl | rfl
  · exact ⟨Expr.isSettled_aggregate rfl rfl ht.labels hselector, rfl, rfl, rfl⟩
  · exact ⟨Expr.isSettled_aggregate rfl rfl ht.labels hselector, rfl, rfl, rfl⟩
  · exact ⟨Expr.isSettled_aggregate rfl rfl ht.labels hselector, rfl, rfl, rfl⟩
  · exact ⟨Expr.isSettled_aggregate rfl rfl ht.labels hselector, rfl, rfl, rfl⟩
  · have hrate := Expr.isSettled_overRange "rate" (by decide) hselector
    exact ⟨Expr.isSettled_aggregate rfl rfl ht.labels hrate, rfl, rfl, rfl⟩
  · have hincrease := Expr.isSettled_overRange "increase" (by decide) hselector
    exact ⟨Expr.isSettled_aggregate rfl rfl ht.labels hincrease, rfl, rfl, rfl⟩

theorem RateTerm.IsReadable.isAggregation {t : RateTerm} (h : t.IsReadable) :
    IsAggregation t.expr :=
  ⟨sumByRate, by simp [aggregations], t, h, rfl⟩

theorem isSettled_ratio {numerator denominator : RateTerm} (hn : numerator.IsReadable)
    (hd : denominator.IsReadable) : (errorCaseRatio numerator denominator).IsSettled := by
  obtain ⟨hnumerator, -, hleft⟩ := hn.isAggregation.isSettled
  obtain ⟨hdenominator, -, hright⟩ := hd.isAggregation.isSettled
  refine Expr.isSettled_binary hnumerator hdenominator Expr.isOwnLeaf_plain ?_
  refine .binary hnumerator.grammatical hdenominator.grammatical (fun hne => absurd rfl hne)
    (hleft.closesBefore _) ?_ rfl
  simp [hright.1]

theorem isSettled_hundred : (Expr.number (.ofNat 100)).IsSettled := by
  have htext : numberText (.ofNat 100) = "100" := by decide +kernel
  have hg : (Expr.number (.ofNat 100)).Grammatical :=
    .number (numberReadsBack (Binary64.isLiteral_ofNat 100))
  refine Expr.isSettled_node [] [.number (.ofNat 100)] hg ?_ ?_ ?_ ?_
  · simp
  · simp [Expr.selectors]
  · simp [Expr.leaves]
  · intro l hl
    obtain rfl := List.mem_singleton.mp hl
    refine ⟨by simp, trivial, ?_, ?_⟩
    · intro text hmem
      obtain rfl : text = "100" := htext ▸ List.mem_singleton.mp hmem
      exact TemplateVariable.keeps_of_no_point (by decide)
    · intro text hmem
      obtain rfl : text = "100" := htext ▸ List.mem_singleton.mp hmem
      exact TemplateVariable.unmixed_of_not_mem _ (by decide) (by decide)

theorem isSettled_percentage {numerator denominator : RateTerm} (hn : numerator.IsReadable)
    (hd : denominator.IsReadable) : (errorCasePercentage numerator denominator).IsSettled := by
  have hratio := isSettled_ratio hn hd
  refine Expr.isSettled_binary hratio isSettled_hundred Expr.isOwnLeaf_plain ?_
  refine .binary hratio.grammatical isSettled_hundred.grammatical (fun hne => absurd rfl hne)
    ?_ (by simp [Expr.leftOperators]) rfl
  -- The quotient is on the left of the product, and both bind alike.
  intro b hb
  obtain rfl : b = .operator .div := by
    simpa [errorCaseRatio, binary, Expr.rightBinders, RateTerm.expr, sumByRate, aggregate] using hb
  exact Binder.closes_some.mpr rfl

theorem isSettled_groupLeft {op : Operator} {left right : Expr} {on group : List String}
    (hop : op.isSet = false) (hleft : IsAggregation left) (hright : IsAggregation right)
    (hon : ReadableLabels on) (hgroup : ReadableLabels group)
    (hdisjoint : ∀ label ∈ on, label ∉ group) :
    (onGroupLeft (binary op left right) on group).IsSettled := by
  obtain ⟨hl, htl, hol⟩ := hleft.isSettled
  obtain ⟨hr, htr, hor⟩ := hright.isSettled
  refine Expr.isSettled_binary hl hr (Expr.isOwnLeaf_groupLeft hon hgroup) ?_
  refine .binary hl.grammatical hr.grammatical (fun _ => rfl) (hol.closesBefore _) ?_ ?_
  · simp [hor.1]
  · have hshared : on.find? group.contains = none := by
      rw [List.find?_eq_none]
      exact fun label hlabel => by simpa using hdisjoint label hlabel
    simp only [checkBinary, Cardinality.labels?, hshared]
    simp [htl, htr, hop, VectorMatching.plain]

theorem IsBuilt.isSettled {e : Expr} (h : IsBuilt e) : e.IsSettled := by
  cases h with
  | aggregation h => exact h.isSettled.1
  | ratio hn hd => exact isSettled_ratio hn hd
  | percentage hn hd => exact isSettled_percentage hn hd
  | groupLeft hop hleft hright hon hgroup hdisjoint =>
    exact isSettled_groupLeft hop hleft hright hon hgroup hdisjoint

/-- Filters may be merged into what was built, or into the query that its text is read as. -/
theorem narrow_renderExpr {e : Expr} {filters : List LabelFilter} (he : IsBuilt e)
    (hf : ∀ f ∈ filters, f.IsReadable) :
    narrow (renderExpr e) filters = .ok (renderExpr (narrowExpr e filters)) :=
  narrow_renderExpr_of_isSettled he.isSettled fun f hmem _ => (hf f hmem).isSettled

/-- A rate that takes over a label from another series, with filters on both sides and
after the fact. -/
theorem narrow_renderExpr_node :
    ∃ e, e = onGroupLeft
        (binary .mul (sumByRate "errors_total" ["node"] [.regex "code" "5.."])
          (maxBy "node_info" ["node", "kernel"] [])) ["node"] ["kernel"] ∧
      narrow (renderExpr e) [.equal "cluster" "$cluster", .regex "job" "api|web"] =
        .ok (renderExpr (narrowExpr e [.equal "cluster" "$cluster", .regex "job" "api|web"])) := by
  refine ⟨_, rfl, narrow_renderExpr (.groupLeft rfl ?_ ?_ ?_ ?_ ?_) ?_⟩
  · exact ⟨sumByRate, by simp [aggregations],
      ⟨"errors_total", ["node"], [.regex "code" "5.."]⟩, by decide +kernel, rfl⟩
  · exact ⟨maxBy, by simp [aggregations], ⟨"node_info", ["node", "kernel"], []⟩,
      by decide +kernel, rfl⟩
  all_goals decide +kernel

end Aggregation

end MetricScope
