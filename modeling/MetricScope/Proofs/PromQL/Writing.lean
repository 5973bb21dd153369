import MetricScope.Proofs.PromQL.Canon

/-!
# What is written, and what it is read as

The tree that a text is read as has the same text, the same groups of matchers up to their
order inside a group, and stands in the grammar where the tree stands.
-/

set_option autoImplicit false

namespace MetricScope.PromQL

theorem Selector.check_of_perm {s t : Selector} (h : s.check = .ok ())
    (hm : t.metric = s.metric) (hp : t.groups.matchers.Perm s.groups.matchers) :
    t.check = .ok () := by
  cases hmetric : s.metric with
  | some name =>
    rw [check_eq_ok_iff (hm.trans hmetric)]
    rw [check_eq_ok_iff hmetric] at h
    exact fun m hmem => h m (hp.mem_iff.mp hmem)
  | none =>
    have hall : t.groups.matchers.all (fun m => m.accepts "") =
        s.groups.matchers.all fun m => m.accepts "" := hp.all_eq
    rw [Selector.check, hmetric] at h
    rw [Selector.check, hm, hmetric]
    dsimp only at h ⊢
    rw [hall]
    exact h

theorem Selector.IsRead.canon {s : Selector} (h : s.IsRead) : s.canon.IsRead where
  metric := h.metric
  matchers m hm := h.matchers m (s.groups.matchers_canon.mem_iff.mp hm)
  alternatives hne := by
    have hothers : s.groups.others ≠ [] := by
      rwa [← MatcherGroups.others_canon]
    have hcanon : s.canon.groups = s.groups := MatcherGroups.canon_of_others hothers
    rw [hcanon]
    exact h.alternatives hothers
  check := Selector.check_of_perm h.check rfl s.groups.matchers_canon

namespace Expr

theorem checkBinary_canon (op : Operator) (m : VectorMatching) (left right : ValueType) :
    checkBinary op m.canon left right = checkBinary op m left right := by
  rw [VectorMatching.canon]
  split
  next hm =>
    simp [checkBinary, hm, Grouping.labels]
  · rfl

theorem isRead_matching {m : VectorMatching} (h : m.IsRead)
    (hl : m.labels = some (.excluding []) → m.cardinality = .oneToOne) : m.canon.IsRead := by
  rw [VectorMatching.canon]
  split
  next hm =>
    exact fun hne => absurd (hl hm) hne
  · exact h

/-- The leaves of a legible tree may become those that they are read as. -/
theorem admits_canon {e : Expr} (hl : ∀ l ∈ e.leaves, l.IsLegible) : e.Admits .canon where
  selector _ _ hs := hs.canon
  matching _ hm h := isRead_matching h (hl _ hm).1
  check m _ op left right := checkBinary_canon op m left right

theorem Grammatical.canon {e : Expr} (h : e.Grammatical) (hl : ∀ l ∈ e.leaves, l.IsLegible) :
    e.canon.Grammatical := by
  rw [canon_eq_mapLeaves]
  exact h.mapLeaves (admits_canon hl)

theorem selectors_canon (e : Expr) : e.canon.selectors = e.selectors.map Selector.canon := by
  rw [canon_eq_mapLeaves, selectors_mapLeaves]
  rfl

/-- Only the order of the matchers inside a group can change. -/
theorem matcherGroups_canon (e : Expr) :
    List.Forall₂ List.Perm e.canon.matcherGroups e.matcherGroups := by
  rw [matcherGroups, matcherGroups, selectors_canon]
  induction e.selectors with
  | nil => exact .nil
  | cons s rest ih =>
    rw [List.map_cons, List.flatMap_cons, List.flatMap_cons]
    exact List.rel_append s.groups.perm_canon ih

end Expr

theorem text_step_canon {step : Option Duration}
    (h : ∀ d ∈ step, d.IsLegible) :
    ((step.map Duration.canon).map Duration.text) = step.map Duration.text := by
  cases step with
  | none => rfl
  | some d => exact congrArg some (Duration.text_canon (h d rfl).positive)

theorem offsetText_canon {offset : Option Offset}
    (h : ∀ l ∈ offsetLeaves offset, l.IsLegible) :
    offsetText (offset.map Offset.canon) = offsetText offset := by
  cases offset with
  | none => rfl
  | some o =>
    have ho : o.duration.IsLegible := h (.duration o.duration) (by simp [offsetLeaves])
    rw [Option.map_some, offsetText, offsetText, Offset.canon, Duration.text_canon ho.positive]

theorem instantText_canon {at? : Option Instant}
    (h : ∀ l ∈ instantLeaves at?, l.IsLegible) :
    instantText (at?.map Instant.canon) = instantText at? := by
  cases at? with
  | none => rfl
  | some i =>
    have hi : i.IsLegible := h (.instant i) (by simp [instantLeaves])
    rw [Option.map_some, instantText, instantText, Instant.text_canon hi]

theorem groupingText_canon (g : Option Grouping) :
    groupingText (canonGrouping g) = groupingText g := by
  unfold canonGrouping
  split <;> rfl

theorem words_canon (m : VectorMatching) : m.canon.words = m.words := by
  rw [VectorMatching.canon]
  split
  next hm =>
    simp [VectorMatching.words, matchingWords, hm]
  · rfl

/-- A legible leaf is written as what it is read as. -/
theorem Leaf.written_canon {l : Leaf} (h : l.IsLegible) : l.canon.written = l.written := by
  cases l with
  | groups g => exact congrArg ([·]) g.bracedText_canon
  | grouping g => exact congrArg ([·]) (groupingText_canon g)
  | matching m => exact words_canon m
  | duration d =>
    have hd : d.IsLegible := h
    exact congrArg ([·]) (Duration.text_canon hd.positive)
  | instant i => exact congrArg ([·]) (Instant.text_canon h)
  | number x => rfl
  | string text => rfl

namespace Selector

theorem timeText_canon {s : Selector} (h : ∀ l ∈ s.leaves, l.IsLegible) :
    s.canon.timeText = s.timeText := by
  simp only [leaves, List.mem_cons, List.mem_append] at h
  rw [timeText, timeText, canon, instantText_canon fun l hl => h l (.inr (.inl hl)),
    offsetText_canon fun l hl => h l (.inr (.inr hl))]

end Selector

namespace Expr

/-- The tree that a text is read as has the same text. -/
theorem text_canon {e : Expr} (hl : ∀ l ∈ e.leaves, l.IsLegible) : e.canon.text = e.text := by
  have hkeep : e.mapLeaves (.ofGroups id) = e := by
    rw [mapLeaves_ofGroups]
    exact mapSelectors_id e
  have htext : (e.mapLeaves .canon).text = (e.mapLeaves (.ofGroups id)).text := by
    apply text_mapLeaves
    intro l hmem
    rw [Leaf.canon_eq, Leaf.written_canon (hl l hmem), LeafMap.leaf_ofGroups_id]
  rw [canon_eq_mapLeaves, htext, hkeep]

end Expr

theorem toList_instantText (at? : Option Instant) :
    (instantText at?).toList = instantChars Instant.epochChars at? := by
  cases at? with
  | none => rfl
  | some i => rw [instantText, String.toList_append, Instant.toList_text, instantChars]

namespace Selector

theorem IsRead.first_ne_nil {s : Selector} (h : s.IsRead) (hne : s.groups.others ≠ []) :
    s.groups.first ≠ [] :=
  h.alternatives hne _ List.mem_cons_self

theorem toList_seriesText {s : Selector} (hs : s.IsRead)
    (h : ∀ l ∈ s.leaves, l.IsLegible) : s.seriesText.toList = s.canon.seriesChars := by
  have hgroups : s.groups.IsLegible := h (.groups s.groups) List.mem_cons_self
  rw [seriesText, String.toList_append, MatcherGroups.toList_bracedText hgroups hs.first_ne_nil]
  rfl

theorem toList_timeText {s : Selector} (h : ∀ l ∈ s.leaves, l.IsLegible) :
    s.timeText.toList = s.canon.timeChars Instant.epochChars := by
  rw [← timeText_canon h, timeText, String.toList_append, toList_instantText, timeChars]

end Selector

theorem toList_lengths {length : Duration} {step : Option Duration}
    (hlength : length.IsLegible) (hstep : ∀ d ∈ step, d.IsLegible) :
    ("[" ++ length.text ++ ":" ++ (step.map Duration.text).getD "" ++ "]").toList =
      lengthChars length.canon (step.map Duration.canon) := by
  rw [lengthChars, Duration.text_canon hlength.positive, text_step_canon hstep]
  simp

theorem toList_arguments (texts : List String) :
    ("(" ++ Text.join ", " texts ++ ")").toList =
      '(' :: [',', ' '].intercalate (texts.map String.toList) ++ [')'] := by
  simp [toList_join]

namespace Expr

/-- The text of a tree is that of the tree it is read as. -/
theorem toList_text {e : Expr} (h : e.Grammatical) (hl : ∀ l ∈ e.leaves, l.IsLegible) :
    e.text.toList = e.canon.chars Instant.epochChars := by
  induction h with
  | selector hs =>
    rw [text, String.toList_append, Selector.toList_seriesText hs hl,
      Selector.toList_timeText hl]
    rfl
  | @range s length hs =>
    simp only [leaves, List.mem_cons] at hl
    have hlength : length.IsLegible := hl _ (.inl rfl)
    have hs' : ∀ l ∈ s.leaves, l.IsLegible := fun l hleaf => hl l (.inr hleaf)
    rw [Expr.canon, chars, text]
    simp [Selector.toList_seriesText hs hs', Selector.toList_timeText hs',
      Duration.text_canon hlength.positive]
  | @subquery e length step offset at? _ _ _ ih =>
    simp only [leaves, List.mem_append, List.mem_cons] at hl
    have hlength : length.IsLegible := hl _ (.inr (.inl rfl))
    have hstep : ∀ d ∈ step, d.IsLegible := by
      intro d hd
      exact hl (.duration d) (.inr (.inr (.inl (by simp [Option.mem_def.mp hd]))))
    have hinstant := instantText_canon fun l hleaf => hl l (.inr (.inr (.inr (.inl hleaf))))
    have hoffset := offsetText_canon fun l hleaf => hl l (.inr (.inr (.inr (.inr hleaf))))
    rw [Expr.canon, chars, ← ih fun l hleaf => hl l (.inl hleaf),
      ← toList_lengths hlength hstep, ← toList_instantText, hinstant, hoffset, text]
    simp
  | @call f arguments _ _ _ ih =>
    rw [leaves, leavesList_eq_flatMap] at hl
    have harguments : (textList arguments).map String.toList =
        charsList Instant.epochChars (canonList arguments) := by
      rw [textList_eq_map, charsList_eq_map, canonList_eq_map, List.map_map, List.map_map]
      exact List.map_congr_left fun e he =>
        ih e he fun l hleaf => hl l (List.mem_flatMap_of_mem he hleaf)
    rw [Expr.canon, chars, ← harguments, ← toList_arguments, text]
    simp
  | @aggregate op grouping parameter e _ _ _ _ ihp ih =>
    rw [leaves, leavesOption_eq_flatMap] at hl
    have hparameter : (textOption parameter ++ [e.text]).map String.toList =
        charsOption Instant.epochChars (canonOption parameter) ++
          [e.canon.chars Instant.epochChars] := by
      rw [← ih fun l hleaf => hl l (by simp [hleaf])]
      cases parameter with
      | none => rfl
      | some p =>
        rw [canonOption, charsOption, ← ihp p rfl fun l hleaf => hl l (by simp [hleaf])]
        rfl
    rw [Expr.canon, chars, ← hparameter, ← toList_arguments, groupingText_canon, text]
    simp
  | @binary op matching left right _ _ _ _ _ _ ihl ihr =>
    simp only [leaves, List.mem_cons, List.mem_append] at hl
    rw [Expr.canon, chars, ← ihl fun l hleaf => hl l (.inr (.inl hleaf)),
      ← ihr fun l hleaf => hl l (.inr (.inr hleaf)), text,
      toList_join_blank, VectorMatching.chars, words_canon]
    simp
  | @negated e _ _ _ _ ih =>
    rw [Expr.canon, chars, ← ih hl, text]
    simp
  | @paren e _ ih =>
    rw [Expr.canon, chars, ← ih hl, text]
    simp
  | number _ => rfl
  | string =>
    rw [Expr.canon, chars, text, toList_quote]

end Expr

end MetricScope.PromQL
