import Mathlib.Algebra.BigOperators.Group.List.Basic
import MetricScope.Proofs.PromQL.Undotting
import MetricScope.Proofs.Sorting

/-!
# Counting in the text of a tree

The text of a tree consists of words that are fixed, of separators, and of parts that come
from the query: names, labels, values, numbers and times. What never reaches over a
separator is counted in the text by counting in the parts.
-/

set_option autoImplicit false

namespace MetricScope.PromQL

def separates (c : Char) : Bool :=
  !TemplateVariable.joins c && c != '$'

def fixedWords : List String :=
  Function.all.map Function.name ++ Aggregator.all.map Aggregator.name ++
    Operator.all.map Operator.text ++
    ["by", "without", "on", "ignoring", "group_left", "group_right", "bool", "offset", "start",
      "end"]

theorem Function.name_mem_fixedWords {g : Function} (h : g ∈ Function.all) :
    g.name ∈ fixedWords := by
  simp only [fixedWords, List.mem_append]
  exact .inl (.inl (.inl (List.mem_map_of_mem h)))

theorem Aggregator.name_mem_fixedWords (op : Aggregator) : op.name ∈ fixedWords := by
  simp only [fixedWords, List.mem_append]
  exact .inl (.inl (.inr (List.mem_map_of_mem op.mem_all)))

theorem Operator.text_mem_fixedWords (op : Operator) : op.text ∈ fixedWords := by
  simp only [fixedWords, List.mem_append]
  exact .inl (.inr (List.mem_map_of_mem op.mem_all))

/-- A count of something that has no separator in it and is not in a fixed word. -/
structure Measure (f : List Char → Nat) : Prop where
  nil : f [] = 0
  append_cons {c : Char} (hc : separates c = true) (x y : List Char) :
    f (x ++ c :: y) = f x + f y
  or_append (x : List Char) : f ('o' :: 'r' :: x) = f x
  fixedWord : ∀ word ∈ fixedWords, f word.toList = 0

def weigh (f : List Char → Nat) (texts : List String) : Nat :=
  (texts.map fun text => f text.toList).sum

section

variable (f : List Char → Nat)

@[simp] theorem weigh_nil : weigh f [] = 0 := rfl

@[simp] theorem weigh_cons (text : String) (texts : List String) :
    weigh f (text :: texts) = f text.toList + weigh f texts := by
  simp [weigh]

@[simp] theorem weigh_append (a b : List String) :
    weigh f (a ++ b) = weigh f a + weigh f b := by
  simp [weigh]

theorem weigh_flatMap {α : Type} (g : α → List String) (l : List α) :
    weigh f (l.flatMap g) = (l.map fun a => weigh f (g a)).sum := by
  induction l with
  | nil => rfl
  | cons a l ih => rw [List.flatMap_cons, weigh_append, ih, List.map_cons, List.sum_cons]

theorem weigh_perm {a b : List String} (h : a.Perm b) : weigh f a = weigh f b :=
  (h.map _).sum_nat

theorem weigh_eq_zero_iff {texts : List String} :
    weigh f texts = 0 ↔ ∀ text ∈ texts, f text.toList = 0 := by
  induction texts with
  | nil => simp
  | cons text texts ih => simp [ih]

theorem weigh_pos_iff {texts : List String} :
    0 < weigh f texts ↔ ∃ text ∈ texts, 0 < f text.toList := by
  rw [Nat.pos_iff_ne_zero, Ne, weigh_eq_zero_iff]
  simp [Nat.pos_iff_ne_zero]

end

def Leaf.parts : Leaf → List String
  | duration d => [d.text]
  | instant (.epoch before milliseconds) => [(Instant.epoch before milliseconds).text]
  | l => l.texts

def Expr.parts (e : Expr) : List String :=
  e.selectors.filterMap Selector.metric ++ e.leaves.flatMap Leaf.parts

namespace Measure

variable {f : List Char → Nat} (h : Measure f)

include h

theorem cons {c : Char} (hc : separates c = true) (y : List Char) : f (c :: y) = f y := by
  have happend := h.append_cons hc [] y
  rwa [List.nil_append, h.nil, Nat.zero_add] at happend

theorem append_singleton {c : Char} (hc : separates c = true) (x : List Char) :
    f (x ++ [c]) = f x := by
  rw [h.append_cons hc, h.nil, Nat.add_zero]

theorem between {first last : Char} (hf : separates first = true)
    (hl : separates last = true) (x : List Char) : f (first :: x ++ [last]) = f x := by
  rw [h.append_singleton hl, h.cons hf]

theorem word_append_cons {word : String} (hw : word ∈ fixedWords) {c : Char}
    (hc : separates c = true) (y : List Char) : f (word.toList ++ c :: y) = f y := by
  rw [h.append_cons hc, h.fixedWord word hw, Nat.zero_add]

theorem join {separator : String}
    (hs : ∀ x y, f (x ++ (separator.toList ++ y)) = f x + f y) (texts : List String) :
    f (Text.join separator texts).toList = weigh f texts := by
  induction texts with
  | nil => exact h.nil
  | cons text rest ih =>
    cases rest with
    | nil => simp
    | cons next rest =>
      rw [Text.join_cons_cons, String.toList_append, String.toList_append, List.append_assoc,
        hs, ih, weigh_cons f text]

theorem comma_append (x y : List Char) : f (x ++ (", ".toList ++ y)) = f x + f y := by
  show f (x ++ ',' :: ' ' :: y) = f x + f y
  rw [h.append_cons (by decide), h.cons (by decide)]

theorem alternative_append (x y : List Char) : f (x ++ (" or ".toList ++ y)) = f x + f y := by
  show f (x ++ ' ' :: 'o' :: 'r' :: ' ' :: y) = f x + f y
  rw [h.append_cons (by decide), h.or_append, h.cons (by decide)]

theorem quote (text : String) : f (PromQL.quote text).toList = f text.toList := by
  rw [toList_quote]
  exact h.between (by decide) (by decide) _

theorem labelText (name : String) : f (PromQL.labelText name).toList = f name.toList := by
  rw [PromQL.labelText]
  split
  · rfl
  · exact h.quote name

theorem labelsText (labels : List String) :
    f (PromQL.labelsText labels).toList = weigh f labels := by
  have hnames : weigh f (labels.map PromQL.labelText) = weigh f labels := by
    induction labels with
    | nil => rfl
    | cons name rest ih => rw [List.map_cons, weigh_cons, weigh_cons, ih, h.labelText]
  have hlist : (PromQL.labelsText labels).toList =
      '(' :: (Text.join ", " (labels.map PromQL.labelText)).toList ++ [')'] := by
    simp [PromQL.labelsText]
  rw [hlist, h.between (by decide) (by decide), h.join h.comma_append, hnames]

theorem word_labels (word : String) (hw : word ∈ fixedWords) (labels : List String) :
    f (word ++ " " ++ PromQL.labelsText labels).toList = weigh f labels := by
  have hlist : (word ++ " " ++ PromQL.labelsText labels).toList =
      word.toList ++ ' ' :: (PromQL.labelsText labels).toList := by
    simp
  rw [hlist, h.word_append_cons hw (by decide), h.labelsText]

theorem matcher (m : Matcher) : f m.text.toList = weigh f [m.name, m.value] := by
  have hsymbol : ∃ c tail, separates c = true ∧
      m.op.symbol.text.toList ++ (PromQL.quote m.value).toList = c :: tail ∧
      f tail = f m.value.toList := by
    cases m.op.symbol with
    | equal => exact ⟨'=', _, by decide, rfl, h.quote _⟩
    | notEqual =>
      exact ⟨'!', _, by decide, rfl, (h.cons (c := '=') (by decide) _).trans (h.quote _)⟩
    | regexMatch =>
      exact ⟨'=', _, by decide, rfl, (h.cons (c := '~') (by decide) _).trans (h.quote _)⟩
    | regexNotMatch =>
      exact ⟨'!', _, by decide, rfl, (h.cons (c := '~') (by decide) _).trans (h.quote _)⟩
  obtain ⟨c, tail, hc, htail, hvalue⟩ := hsymbol
  rw [Matcher.text, String.toList_append, String.toList_append, List.append_assoc, htail,
    h.append_cons hc, h.labelText, hvalue]
  simp

theorem matchers (ms : List Matcher) :
    weigh f (ms.map Matcher.text) = weigh f (ms.flatMap fun m => [m.name, m.value]) := by
  induction ms with
  | nil => rfl
  | cons m rest ih =>
    rw [List.map_cons, weigh_cons, ih, h.matcher, List.flatMap_cons, weigh_append]

theorem dropLeadingOr (text : List Char) : f (PromQL.dropLeadingOr text) = f text := by
  unfold PromQL.dropLeadingOr
  split
  · exact (h.or_append _).symm
  · rfl

theorem alternativeText (ms : List Matcher) :
    f (PromQL.alternativeText ms).toList =
      weigh f (ms.flatMap fun m => [m.name, m.value]) := by
  rw [PromQL.alternativeText, h.join h.comma_append, h.matchers]

theorem groupsText (g : MatcherGroups) :
    f g.text.toList = weigh f (Leaf.groups g).parts := by
  show _ = weigh f (g.matchers.flatMap fun m => [m.name, m.value])
  rw [MatcherGroups.text, MatcherGroups.matchers, MatcherGroups.toList]
  cases g.others with
  | nil =>
    have hcomma : ∀ x y, f (x ++ (",".toList ++ y)) = f x + f y :=
      h.append_cons (c := ',') (by decide)
    have hperm := sortBy_perm (· ≤ ·) (g.first.map Matcher.text)
    have hsorted := (weigh_perm f hperm).trans (h.matchers g.first)
    simpa [sortTexts] using (h.join hcomma _).trans hsorted
  | cons ms others =>
    have halternatives : ∀ groups : List (List Matcher),
        weigh f (groups.map PromQL.alternativeText) =
          weigh f (groups.flatten.flatMap fun m => [m.name, m.value]) := by
      intro groups
      induction groups with
      | nil => rfl
      | cons group rest ih =>
        rw [List.map_cons, weigh_cons, ih, h.alternativeText, List.flatten_cons,
          List.flatMap_append, weigh_append]
    dsimp only
    rw [String.toList_ofList, h.dropLeadingOr, h.join h.alternative_append, halternatives]

theorem bracedText (g : MatcherGroups) :
    f g.bracedText.toList = weigh f (Leaf.groups g).parts := by
  rw [MatcherGroups.bracedText]
  split
  next hempty =>
    obtain ⟨hfirst, hothers⟩ : g.first = [] ∧ g.others = [] := by simpa using hempty
    have hparts : (Leaf.groups g).parts = [] := by
      simp [Leaf.parts, Leaf.texts, MatcherGroups.matchers, MatcherGroups.toList, hfirst, hothers]
    rw [hparts]
    exact h.nil
  · have hlist : ("\x7b" ++ g.text ++ "\x7d").toList = '\x7b' :: g.text.toList ++ ['\x7d'] := by
      simp
    rw [hlist, h.between (by decide) (by decide), h.groupsText]

theorem instantText (at? : Option Instant) :
    f (PromQL.instantText at?).toList = weigh f ((instantLeaves at?).flatMap Leaf.parts) := by
  cases at? with
  | none => exact h.nil
  | some i =>
    have hlist : (PromQL.instantText (some i)).toList = ' ' :: '@' :: ' ' :: i.text.toList := by
      simp [PromQL.instantText]
    rw [hlist, h.cons (by decide), h.cons (by decide), h.cons (by decide)]
    have hcall : ∀ word ∈ fixedWords, f (word.toList ++ ['(', ')']) = 0 := by
      intro word hw
      rw [h.word_append_cons hw (by decide), h.cons (by decide), h.nil]
    cases i with
    | start => exact hcall "start" (by decide)
    | finish => exact hcall "end" (by decide)
    | epoch before milliseconds => simp [instantLeaves, Leaf.parts]

theorem offsetText (offset : Option Offset) :
    f (PromQL.offsetText offset).toList =
      weigh f ((offsetLeaves offset).flatMap Leaf.parts) := by
  cases offset with
  | none => exact h.nil
  | some o =>
    have hduration : f ((if o.negative then "-" else "").toList ++ o.duration.text.toList) =
        f o.duration.text.toList := by
      cases o.negative with
      | false => rfl
      | true => exact h.cons (c := '-') (by decide) _
    have hlist : (PromQL.offsetText (some o)).toList = ' ' :: ("offset".toList ++
        ' ' :: ((if o.negative then "-" else "").toList ++ o.duration.text.toList)) := by
      simp [PromQL.offsetText]
    rw [hlist, h.cons (by decide), h.word_append_cons (by decide) (by decide), hduration]
    simp [offsetLeaves, Leaf.parts]

theorem stops_append {x y : List Char} (hy : Lexer.stops y = true) : f (x ++ y) = f x + f y := by
  cases y with
  | nil => rw [List.append_nil, h.nil, Nat.add_zero]
  | cons c y =>
    have hc : separates c = true := by
      have hbreaks : Lexer.breaks c = true := hy
      have hdollar : c ≠ '$' := by
        rintro rfl
        exact absurd hbreaks (by decide)
      simp [separates, not_joins_of_breaks hbreaks, hdollar]
    rw [h.append_cons hc, h.cons hc]

theorem timeText (s : Selector) :
    f s.timeText.toList =
      weigh f ((instantLeaves s.at? ++ offsetLeaves s.offset).flatMap Leaf.parts) := by
  have hstops : Lexer.stops (PromQL.offsetText s.offset).toList = true := stops_offset s.offset
  rw [Selector.timeText, String.toList_append, h.stops_append hstops, h.instantText,
    h.offsetText, List.flatMap_append, weigh_append]

theorem seriesText (s : Selector) :
    f s.seriesText.toList = weigh f s.metric.toList + weigh f (Leaf.groups s.groups).parts := by
  have hstops : Lexer.stops s.groups.bracedText.toList = true := by
    rw [MatcherGroups.bracedText]
    split
    · rfl
    · simp [Lexer.stops, Lexer.breaks]
  have hmetric : f (s.metric.getD "").toList = weigh f s.metric.toList := by
    cases s.metric with
    | none => exact h.nil
    | some name => simp
  rw [Selector.seriesText, String.toList_append, h.stops_append hstops, h.bracedText, hmetric]

theorem groupingText (g : Option Grouping) :
    f (PromQL.groupingText g).toList = weigh f (Leaf.grouping g).parts := by
  have hwords : ∀ word ∈ fixedWords, ∀ labels,
      f (" " ++ word ++ " " ++ PromQL.labelsText labels ++ " ").toList = weigh f labels := by
    intro word hw labels
    have hlist : (" " ++ word ++ " " ++ PromQL.labelsText labels ++ " ").toList =
        ' ' :: (word ++ " " ++ PromQL.labelsText labels).toList ++ [' '] := by
      simp
    rw [hlist, h.between (by decide) (by decide), h.word_labels word hw]
  cases g with
  | none => exact h.nil
  | some g =>
    have hparts : (Leaf.grouping (some g)).parts = g.labels := by
      simp [Leaf.parts, Leaf.texts]
    rw [hparts]
    cases g with
    | including labels =>
      cases labels with
      | nil => exact h.nil
      | cons name rest => exact hwords "by" (by decide) (name :: rest)
    | excluding labels => exact hwords "without" (by decide) labels

theorem matchingWords (m : VectorMatching) :
    weigh f m.words = weigh f (Leaf.matching m).parts := by
  have hlabels : weigh f (PromQL.matchingWords m.labels) =
      weigh f (m.labels.toList.flatMap Grouping.labels) := by
    cases m.labels with
    | none => rfl
    | some g =>
      cases g with
      | including labels =>
        have hon := h.word_labels "on" (by decide) labels
        simpa [PromQL.matchingWords, Grouping.labels] using hon
      | excluding labels =>
        cases labels with
        | nil => rfl
        | cons name rest =>
          have hignoring := h.word_labels "ignoring" (by decide) (name :: rest)
          simpa [PromQL.matchingWords, Grouping.labels] using hignoring
  have hcardinality : weigh f m.cardinality.words =
      weigh f m.cardinality.labels?.toList.flatten := by
    cases m.cardinality with
    | oneToOne => rfl
    | manyToOne labels =>
      have hleft := h.word_labels "group_left" (by decide) labels
      simpa [Cardinality.words, Cardinality.labels?] using hleft
    | oneToMany labels =>
      have hright := h.word_labels "group_right" (by decide) labels
      simpa [Cardinality.words, Cardinality.labels?] using hright
  have hbool : weigh f (if m.returnBool then ["bool"] else []) = 0 := by
    split
    · rw [weigh_cons, weigh_nil, h.fixedWord "bool" (by decide)]
    · rfl
  rw [VectorMatching.words, weigh_append, weigh_append, hbool, hlabels, hcardinality,
    Nat.zero_add]
  exact (weigh_append f _ _).symm

theorem arguments (texts : List String) :
    f ("(" ++ Text.join ", " texts ++ ")").toList = weigh f texts := by
  have hlist : ("(" ++ Text.join ", " texts ++ ")").toList =
      '(' :: (Text.join ", " texts).toList ++ [')'] := by
    simp
  rw [hlist, h.between (by decide) (by decide), h.join h.comma_append]

end Measure

section

variable (f : List Char → Nat)

theorem weigh_parts (e : Expr) :
    weigh f e.parts =
      weigh f (e.selectors.filterMap Selector.metric) + weigh f (e.leaves.flatMap Leaf.parts) :=
  weigh_append f _ _

theorem weigh_parts_arguments (es : List Expr) :
    weigh f ((Expr.selectorsList es).filterMap Selector.metric) +
        weigh f ((Expr.leavesList es).flatMap Leaf.parts) =
      (es.map fun e => weigh f e.parts).sum := by
  induction es with
  | nil => rfl
  | cons e rest ih =>
    rw [Expr.selectorsList, Expr.leavesList, List.filterMap_append, List.flatMap_append,
      weigh_append, weigh_append, List.map_cons, List.sum_cons, ← ih, weigh_parts]
    omega

theorem weigh_parts_aggregate (op : Aggregator) (grouping : Option Grouping)
    (parameter : Option Expr) (e : Expr) :
    weigh f (Expr.aggregate op grouping parameter e).parts =
      weigh f (Leaf.grouping grouping).parts +
        ((parameter.toList ++ [e]).map fun e => weigh f e.parts).sum := by
  cases parameter with
  | none =>
    simp [weigh_parts, Expr.selectors, Expr.selectorsOption, Expr.leaves, Expr.leavesOption]
    omega
  | some p =>
    simp [weigh_parts, Expr.selectors, Expr.selectorsOption, Expr.leaves, Expr.leavesOption]
    omega

theorem weigh_parts_binary (op : Operator) (matching : VectorMatching) (left right : Expr) :
    weigh f (Expr.binary op matching left right).parts =
      weigh f (Leaf.matching matching).parts + weigh f left.parts + weigh f right.parts := by
  simp only [weigh_parts, Expr.selectors, Expr.leaves, List.filterMap_append,
    List.flatMap_append, List.flatMap_cons, weigh_append]
  omega

theorem weigh_textList {es : List Expr} (h : ∀ e ∈ es, f e.text.toList = weigh f e.parts) :
    weigh f (Expr.textList es) = (es.map fun e => weigh f e.parts).sum := by
  rw [Expr.textList_eq_map, weigh, List.map_map]
  congr 1
  exact List.map_congr_left h

end

theorem stops_offsetText (offset : Option Offset) :
    Lexer.stops (offsetText offset).toList = true :=
  stops_offset offset

theorem stops_instantText (at? : Option Instant) :
    Lexer.stops (instantText at?).toList = true := by
  cases at? with
  | none => rfl
  | some i => simp [instantText, Lexer.stops, Lexer.breaks]

theorem stops_parentheses (text : String) : Lexer.stops ("(" ++ text ++ ")").toList = true := by
  simp [Lexer.stops, Lexer.breaks]

theorem stops_timeText (s : Selector) : Lexer.stops s.timeText.toList = true := by
  rw [Selector.timeText, String.toList_append]
  exact Lexer.stops_append (stops_instantText s.at?) (stops_offsetText s.offset)

namespace Measure

variable {f : List Char → Nat} (h : Measure f)

include h

theorem selectorText (s : Selector) :
    f s.seriesText.toList + f s.timeText.toList = weigh f (Expr.selector s).parts := by
  rw [h.seriesText, h.timeText]
  cases hm : s.metric with
  | none => simp [weigh_parts, Expr.selectors, Expr.leaves, Selector.leaves, hm]
  | some name =>
    simp [weigh_parts, Expr.selectors, Expr.leaves, Selector.leaves, hm]
    omega

theorem lengths (length : Duration) (step : Option Duration) :
    f ("[" ++ length.text ++ ":" ++ (step.map Duration.text).getD "" ++ "]").toList =
      weigh f (length.text :: (step.map Duration.text).toList) := by
  have hlist : ("[" ++ length.text ++ ":" ++ (step.map Duration.text).getD "" ++ "]").toList =
      '[' :: (length.text.toList ++ ':' :: ((step.map Duration.text).getD "").toList) ++
        [']'] := by
    simp
  have hstep : f ((step.map Duration.text).getD "").toList =
      weigh f (step.map Duration.text).toList := by
    cases step with
    | none => exact h.nil
    | some d => simp
  rw [hlist, h.between (by decide) (by decide), h.append_cons (by decide), hstep, weigh_cons]

/-- What is counted in the text of a tree is counted in its parts. -/
theorem text {e : Expr} (he : e.Grammatical) : f e.text.toList = weigh f e.parts := by
  induction he with
  | @selector s _ =>
    rw [Expr.text, String.toList_append, h.stops_append (stops_timeText s), h.selectorText]
  | @range s length _ =>
    have hlist : (Expr.range s length).text.toList =
        s.seriesText.toList ++ (('[' :: length.text.toList ++ [']']) ++ s.timeText.toList) := by
      simp [Expr.text]
    have hselector := h.selectorText s
    rw [hlist, h.stops_append (y := _ ++ _) rfl, h.stops_append (stops_timeText s),
      h.between (by decide) (by decide)]
    simp only [weigh_parts, Expr.selectors, Expr.leaves, List.flatMap_cons, weigh_append,
      Leaf.parts, weigh_cons, weigh_nil] at hselector ⊢
    omega
  | @subquery e length step offset at? _ _ _ ih =>
    have hlist : (Expr.subquery e length step offset at?).text.toList =
        e.text.toList ++ (("[" ++ length.text ++ ":" ++ (step.map Duration.text).getD "" ++
          "]").toList ++
            ((PromQL.instantText at?).toList ++ (PromQL.offsetText offset).toList)) := by
      simp [Expr.text]
    have htime := Lexer.stops_append (stops_instantText at?) (stops_offsetText offset)
    have hbracket : Lexer.stops (("[" ++ length.text ++ ":" ++ (step.map Duration.text).getD "" ++
        "]").toList ++ ((PromQL.instantText at?).toList ++ (PromQL.offsetText offset).toList)) =
        true := by
      simp [Lexer.stops, Lexer.breaks]
    have hstep : weigh f (step.map Duration.text).toList =
        weigh f ((step.map Leaf.duration).toList.flatMap Leaf.parts) := by
      cases step <;> rfl
    rw [hlist, h.stops_append hbracket, h.stops_append htime,
      h.stops_append (stops_offsetText offset), h.lengths, h.instantText, h.offsetText, ih]
    simp only [weigh_parts, Expr.selectors, Expr.leaves, List.flatMap_append, List.flatMap_cons,
      weigh_append, Leaf.parts, weigh_cons, weigh_nil, hstep]
    omega
  | @call g arguments hg _ _ ih =>
    have hname := Function.name_mem_fixedWords (List.mem_of_find?_eq_some hg)
    have hlist : (Expr.call g arguments).text.toList =
        g.name.toList ++ ("(" ++ Text.join ", " (Expr.textList arguments) ++ ")").toList := by
      simp [Expr.text]
    rw [hlist, h.stops_append (stops_parentheses _), h.fixedWord _ hname, h.arguments,
      weigh_textList f ih, Nat.zero_add, weigh_parts, Expr.selectors, Expr.leaves,
      weigh_parts_arguments]
  | @aggregate op grouping parameter e _ _ _ _ ihp ih =>
    have hlist : (Expr.aggregate op grouping parameter e).text.toList =
        op.name.toList ++ ((PromQL.groupingText grouping).toList ++
          ("(" ++ Text.join ", " (Expr.textOption parameter ++ [e.text]) ++ ")").toList) := by
      simp [Expr.text]
    have harguments := stops_parentheses (Text.join ", " (Expr.textOption parameter ++ [e.text]))
    have htexts : Expr.textOption parameter ++ [e.text] =
        Expr.textList (parameter.toList ++ [e]) := by
      cases parameter <;> rfl
    have hall : ∀ a ∈ parameter.toList ++ [e], f a.text.toList = weigh f a.parts := by
      intro a ha
      rcases List.mem_append.mp ha with ha | ha
      · exact ihp a (Option.mem_toList.mp ha)
      · rw [List.mem_singleton.mp ha, ih]
    rw [hlist, h.stops_append (Lexer.stops_append (stops_grouping grouping) harguments),
      h.stops_append harguments, h.fixedWord _ op.name_mem_fixedWords, h.groupingText,
      h.arguments, htexts, weigh_textList f hall, weigh_parts_aggregate, Nat.zero_add]
  | @binary op matching left right _ _ _ _ _ _ ihl ihr =>
    have hblank : ∀ x y, f (x ++ (" ".toList ++ y)) = f x + f y :=
      h.append_cons (c := ' ') (by decide)
    rw [Expr.text, h.join hblank, List.cons_append, List.cons_append, weigh_cons, weigh_cons,
      weigh_append, h.fixedWord _ op.text_mem_fixedWords, h.matchingWords, weigh_cons, weigh_nil,
      ihl, ihr, weigh_parts_binary]
    omega
  | @negated e _ _ _ _ ih =>
    have hlist : ("-" ++ e.text).toList = '-' :: e.text.toList := by simp
    rw [Expr.text, hlist, h.cons (by decide), ih]
    rfl
  | @paren e _ ih =>
    have hlist : ("(" ++ e.text ++ ")").toList = '(' :: e.text.toList ++ [')'] := by simp
    rw [Expr.text, hlist, h.between (by decide) (by decide), ih]
    rfl
  | @number x _ => simp [Expr.text, Expr.parts, Expr.selectors, Expr.leaves, Leaf.parts, Leaf.texts]
  | @string text =>
    rw [Expr.text, h.quote]
    simp [Expr.parts, Expr.selectors, Expr.leaves, Leaf.parts, Leaf.texts]

end Measure

end MetricScope.PromQL
