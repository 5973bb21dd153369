import MetricScope.Proofs.PromQL.Writing

/-!
# What decoding and encoding do to the text of a tree

Putting a variable for its stand-in and the stand-in for the variable changes a text only
where the stand-in of a time is followed by a point and zeros. In the text of a tree that is
a time of evaluation, unless a string, a label or a number of the query looks like one.
-/

set_option autoImplicit false

namespace MetricScope

namespace Text

variable {α : Type} [DecidableEq α]

omit [DecidableEq α] in
theorem isInfix_or_of_isInfix_append_cons {p x y : List α} {c : α} (hc : c ∉ p)
    (h : p <:+: x ++ c :: y) : p <:+: x ∨ p <:+: y := by
  induction x with
  | nil =>
    rcases List.infix_cons_iff.mp h with h | h
    · have hp : p <+: [] := prefix_of_prefix_append_cons (x := []) hc h
      exact .inl hp.isInfix
    · exact .inr h
  | cons d x ih =>
    rw [List.cons_append] at h
    rcases List.infix_cons_iff.mp h with h | h
    · have hp : p <+: d :: x := prefix_of_prefix_append_cons hc h
      exact .inl hp.isInfix
    · exact (ih h).imp_left List.infix_cons

end Text

namespace TemplateVariable

def Keeps (vars : List TemplateVariable) (text : List Char) : Prop :=
  ∀ v ∈ vars, v.kind = .timestamp → ¬ v.dottedStandIn <:+: text

section

variable {vars : List TemplateVariable}

theorem Keeps.undotted_eq {text : List Char} (h : Keeps vars text) :
    undotted vars text = text :=
  undotted_eq_self vars h

theorem keeps_of_no_point {text : List Char} (h : '.' ∉ text) : Keeps vars text :=
  fun v _ _ hin => h (hin.subset v.point_mem_dottedStandIn)

theorem Keeps.append_cons {x y : List Char} {c : Char} (hc : joins c = false)
    (hx : Keeps vars x) (hy : Keeps vars y) : Keeps vars (x ++ c :: y) := by
  intro v hv hkind hin
  rcases Text.isInfix_or_of_isInfix_append_cons (not_mem_dottedStandIn hc v) hin with hin | hin
  · exact hx v hv hkind hin
  · exact hy v hv hkind hin

theorem keeps_nil : Keeps vars [] :=
  keeps_of_no_point List.not_mem_nil

theorem Keeps.cons {y : List Char} {c : Char} (hc : joins c = false) (hy : Keeps vars y) :
    Keeps vars (c :: y) :=
  Keeps.append_cons hc keeps_nil hy

theorem Keeps.append_singleton {x : List Char} {c : Char} (hc : joins c = false)
    (hx : Keeps vars x) : Keeps vars (x ++ [c]) :=
  Keeps.append_cons hc hx keeps_nil

theorem keeps_intercalate {c : Char} {separator : List Char} (hc : joins c = false)
    (hs : ∀ y, Keeps vars y → Keeps vars (separator ++ y)) {items : List (List Char)}
    (h : ∀ x ∈ items, Keeps vars x) : Keeps vars ((c :: separator).intercalate items) := by
  induction items with
  | nil => exact keeps_nil
  | cons x rest ih =>
    have hx := h x List.mem_cons_self
    have hrest := ih fun y hy => h y (List.mem_cons_of_mem x hy)
    cases rest with
    | nil => simpa using hx
    | cons y rest =>
      rw [List.intercalate_cons_cons, List.append_assoc, List.cons_append]
      exact hx.append_cons hc (hs _ hrest)

end

section

variable (vars : List TemplateVariable)

theorem undotted_items (items : List (List Char)) :
    undotted vars ([',', ' '].intercalate items) =
      [',', ' '].intercalate (items.map (undotted vars)) := by
  induction items with
  | nil => simp
  | cons x rest ih =>
    cases rest with
    | nil => simp
    | cons y rest =>
      have hcomma : joins ',' = false := by decide
      have hblank : joins ' ' = false := by decide
      rw [List.intercalate_cons_cons, List.append_assoc, List.cons_append,
        undotted_append_cons vars hcomma, List.cons_append, List.nil_append,
        undotted_cons vars hblank, ih]
      simp

theorem undotted_between {first last : Char} (hf : joins first = false)
    (hl : joins last = false) (x : List Char) :
    undotted vars (first :: x ++ [last]) = first :: undotted vars x ++ [last] := by
  rw [List.cons_append, undotted_cons vars hf, undotted_append_cons vars hl, undotted_nil]
  rfl

end

end TemplateVariable

namespace PromQL

open TemplateVariable Lexer

theorem not_mem_of_isWord {text : List Char} (h : isWord text = true) : '.' ∉ text := by
  intro hmem
  have hin : inWords '.' = true := by
    cases text with
    | nil => exact absurd hmem List.not_mem_nil
    | cons c rest =>
      rw [isWord, Bool.and_eq_true, List.all_eq_true] at h
      rcases List.mem_cons.mp hmem with rfl | hmem
      · exact absurd h.1 (by decide)
      · exact h.2 '.' hmem
  exact absurd hin (by decide)

theorem Duration.not_mem_text (d : Duration) : '.' ∉ d.text.toList := fun h =>
  absurd (isAlphanum_of_mem_text h) (by decide)

theorem not_joins_of_breaks {c : Char} (h : breaks c = true) : joins c = false := by
  simp only [breaks, Bool.or_eq_true, beq_iff_eq] at h
  rcases h with ((((rfl | rfl) | rfl) | rfl) | rfl) | rfl <;> decide

section

variable {vars : List TemplateVariable}

theorem undotted_append (vars : List TemplateVariable) (x : List Char) {rest : List Char}
    (h : stops rest = true) :
    undotted vars (x ++ rest) = undotted vars x ++ undotted vars rest := by
  cases rest with
  | nil => simp
  | cons c rest =>
    have hc := not_joins_of_breaks h
    rw [undotted_append_cons vars hc, undotted_cons vars hc]

theorem keeps_append {x rest : List Char} (hx : Keeps vars x) (h : stops rest = true)
    (hr : Keeps vars rest) : Keeps vars (x ++ rest) := by
  cases rest with
  | nil => rwa [List.append_nil]
  | cons c rest =>
    refine hx.append_cons (not_joins_of_breaks h) ?_
    exact fun v hv hkind hin => hr v hv hkind (List.infix_cons hin)

end

def Leaf.texts : Leaf → List String
  | groups g => g.matchers.flatMap fun m => [m.name, m.value]
  | grouping g => g.toList.flatMap Grouping.labels
  | matching m => m.labels.toList.flatMap Grouping.labels ++ m.cardinality.labels?.toList.flatten
  | duration _ => []
  | instant _ => []
  | number x => [numberText x]
  | string text => [text]

def Leaf.Keeps (vars : List TemplateVariable) (l : Leaf) : Prop :=
  ∀ text ∈ l.texts, TemplateVariable.Keeps vars text.toList

section

variable {vars : List TemplateVariable}

theorem Leaf.Keeps.canon {l : Leaf} (h : l.Keeps vars) : l.canon.Keeps vars := by
  intro text htext
  refine h text ?_
  cases l with
  | groups g =>
    obtain ⟨m, hm, htext⟩ := List.mem_flatMap.mp htext
    exact List.mem_flatMap.mpr ⟨m, g.matchers_canon.mem_iff.mp hm, htext⟩
  | grouping g =>
    rw [Leaf.canon] at htext
    unfold canonGrouping at htext
    split at htext
    · exact absurd htext List.not_mem_nil
    · exact htext
  | matching m =>
    rw [Leaf.canon, VectorMatching.canon] at htext
    split at htext
    · exact List.mem_append_right _ htext
    · exact htext
  | duration d => exact absurd htext List.not_mem_nil
  | instant i => exact absurd htext List.not_mem_nil
  | number x => exact htext
  | string text' => exact htext

theorem keeps_quote {text : String} (h : Keeps vars text.toList) :
    Keeps vars (quote text).toList := by
  rw [toList_quote]
  exact (h.cons (by decide)).append_singleton (by decide)

theorem keeps_labelText {name : String} (h : Keeps vars name.toList) :
    Keeps vars (labelText name).toList := by
  rw [labelText]
  split
  · exact h
  · exact keeps_quote h

theorem keeps_matcher {m : Matcher} (hn : Keeps vars m.name.toList)
    (hv : Keeps vars m.value.toList) : Keeps vars m.chars := by
  have hchars : m.chars = (labelText m.name).toList ++
      (m.op.symbol.text.toList ++ (quote m.value).toList) := by
    simp [Matcher.chars, Matcher.text]
  have hlabel := keeps_labelText hn
  have hvalue := keeps_quote hv
  rw [hchars]
  cases m.op.symbol with
  | equal => exact hlabel.append_cons (by decide) hvalue
  | notEqual => exact hlabel.append_cons (by decide) (hvalue.cons (by decide))
  | regexMatch => exact hlabel.append_cons (by decide) (hvalue.cons (by decide))
  | regexNotMatch => exact hlabel.append_cons (by decide) (hvalue.cons (by decide))

theorem keeps_inner {g : MatcherGroups} (h : (Leaf.groups g).Keeps vars) :
    Keeps vars g.inner := by
  have hmatcher : ∀ ms ∈ g.toList, ∀ m ∈ ms, Keeps vars m.chars := by
    intro ms hms m hm
    have hmem : m ∈ g.matchers := List.mem_flatten.mpr ⟨ms, hms, hm⟩
    have hname := h m.name (List.mem_flatMap.mpr ⟨m, hmem, by simp⟩)
    have hvalue := h m.value (List.mem_flatMap.mpr ⟨m, hmem, by simp⟩)
    exact keeps_matcher hname hvalue
  have hblank : joins ' ' = false := by decide
  have hcomma : joins ',' = false := by decide
  have hor : ∀ y, Keeps vars y → Keeps vars (['o', 'r', ' '] ++ y) := fun y hy =>
    Keeps.append_cons (x := ['o', 'r']) hblank (keeps_of_no_point (by decide)) hy
  have hfirst : ∀ x ∈ g.first.map Matcher.chars, Keeps vars x := by
    intro x hx
    obtain ⟨m, hm, rfl⟩ := List.mem_map.mp hx
    exact hmatcher g.first List.mem_cons_self m hm
  rw [MatcherGroups.inner]
  split
  · refine keeps_intercalate hcomma ?_ hfirst
    exact fun y hy => hy
  · refine keeps_intercalate hblank hor fun x hx => ?_
    obtain ⟨ms, hms, rfl⟩ := List.mem_map.mp hx
    refine keeps_intercalate hcomma (fun y hy => hy.cons hblank) fun x hx => ?_
    obtain ⟨m, hm, rfl⟩ := List.mem_map.mp hx
    exact hmatcher ms hms m hm

theorem keeps_groups {g : MatcherGroups} (h : (Leaf.groups g).Keeps vars) :
    Keeps vars g.chars := by
  rw [MatcherGroups.chars]
  split
  · exact keeps_nil
  · exact ((keeps_inner h).cons (by decide)).append_singleton (by decide)

theorem keeps_labels {labels : List String} (h : ∀ name ∈ labels, Keeps vars name.toList) :
    Keeps vars (labelsText labels).toList := by
  rw [labelsText, toList_arguments]
  refine (Keeps.cons (by decide) ?_).append_singleton (by decide)
  refine keeps_intercalate (by decide) (fun y hy => hy.cons (by decide)) fun x hx => ?_
  simp only [List.map_map, List.mem_map, Function.comp_apply] at hx
  obtain ⟨name, hname, rfl⟩ := hx
  exact keeps_labelText (h name hname)

theorem keeps_word_labels (word : List Char) (hw : '.' ∉ word) {labels : List String}
    (h : ∀ name ∈ labels, Keeps vars name.toList) :
    Keeps vars (word ++ ' ' :: (labelsText labels).toList) :=
  (keeps_of_no_point hw).append_cons (by decide) (keeps_labels h)

theorem keeps_grouping {g : Option Grouping} (h : (Leaf.grouping g).Keeps vars) :
    Keeps vars (groupingText g).toList := by
  cases g with
  | none => exact keeps_nil
  | some g =>
    have hlabels : ∀ name ∈ g.labels, Keeps vars name.toList := fun name hname =>
      h name (List.mem_flatMap.mpr ⟨g, by simp, hname⟩)
    cases g with
    | including labels =>
      cases labels with
      | nil => exact keeps_nil
      | cons name rest =>
        have hwords := keeps_word_labels ['b', 'y'] (by decide) hlabels
        simpa [groupingText, Grouping.labels] using
          (hwords.cons (c := ' ') (by decide)).append_singleton (c := ' ') (by decide)
    | excluding labels =>
      have hwords := keeps_word_labels ['w', 'i', 't', 'h', 'o', 'u', 't'] (by decide)
        hlabels
      simpa [groupingText, Grouping.labels] using
        (hwords.cons (c := ' ') (by decide)).append_singleton (c := ' ') (by decide)

theorem stops_grouping (g : Option Grouping) : stops (groupingText g).toList = true := by
  cases g with
  | none => rfl
  | some g =>
    cases g with
    | including labels =>
      cases labels with
      | nil => rfl
      | cons name rest => simp [groupingText, stops, breaks]
    | excluding labels => simp [groupingText, stops, breaks]

theorem stops_words (words : List String) :
    stops (words.flatMap fun word => ' ' :: word.toList) = true := by
  cases words <;> rfl

theorem keeps_words {words : List String} (h : ∀ word ∈ words, Keeps vars word.toList) :
    Keeps vars (words.flatMap fun word => ' ' :: word.toList) := by
  induction words with
  | nil => exact keeps_nil
  | cons word words ih =>
    have hword := h word List.mem_cons_self
    have hwords := ih fun w hw => h w (List.mem_cons_of_mem word hw)
    rw [List.flatMap_cons, List.cons_append]
    exact (keeps_append hword (stops_words words) hwords).cons (by decide)

theorem keeps_matching {m : VectorMatching} (h : (Leaf.matching m).Keeps vars) :
    Keeps vars m.chars := by
  have hlabels : ∀ g ∈ m.labels, ∀ name ∈ g.labels, Keeps vars name.toList := by
    intro g hg name hname
    refine h name (List.mem_append_left _ (List.mem_flatMap.mpr ⟨g, ?_, hname⟩))
    exact Option.mem_toList.mpr hg
  have hjoined : ∀ labels ∈ m.cardinality.labels?, ∀ name ∈ labels,
      Keeps vars name.toList := by
    intro labels hg name hname
    refine h name (List.mem_append_right _ (List.mem_flatten.mpr ⟨labels, ?_, hname⟩))
    exact Option.mem_toList.mpr hg
  refine keeps_words fun word hword => ?_
  simp only [VectorMatching.words, List.mem_append] at hword
  rcases hword with (hword | hword) | hword
  · split at hword
    · obtain rfl := List.mem_singleton.mp hword
      exact keeps_of_no_point (by decide)
    · exact absurd hword List.not_mem_nil
  · cases hm : m.labels with
    | none => simp [hm, matchingWords] at hword
    | some g =>
      have hnames := hlabels g hm
      rw [hm] at hword
      cases g with
      | including labels =>
        obtain rfl := List.mem_singleton.mp hword
        simpa [Grouping.labels] using keeps_word_labels ['o', 'n'] (by decide) hnames
      | excluding labels =>
        cases labels with
        | nil => exact absurd hword List.not_mem_nil
        | cons name rest =>
          obtain rfl := List.mem_singleton.mp hword
          simpa [Grouping.labels] using
            keeps_word_labels ['i', 'g', 'n', 'o', 'r', 'i', 'n', 'g'] (by decide) hnames
  · cases hc : m.cardinality with
    | oneToOne => simp [hc, Cardinality.words] at hword
    | manyToOne labels =>
      have hnames := hjoined labels (by rw [hc]; rfl)
      rw [hc] at hword
      obtain rfl := List.mem_singleton.mp hword
      simpa using keeps_word_labels ['g', 'r', 'o', 'u', 'p', '_', 'l', 'e', 'f', 't']
        (by decide) hnames
    | oneToMany labels =>
      have hnames := hjoined labels (by rw [hc]; rfl)
      rw [hc] at hword
      obtain rfl := List.mem_singleton.mp hword
      simpa using keeps_word_labels
        ['g', 'r', 'o', 'u', 'p', '_', 'r', 'i', 'g', 'h', 't'] (by decide) hnames

end

section

variable (vars : List TemplateVariable) (epochs : Bool → Nat → List Char)

/-- The times of a text once its variables are put back and encoded again. -/
def undottedEpochs (before : Bool) (milliseconds : Nat) : List Char :=
  undotted vars (epochs before milliseconds)

theorem undotted_instantChars (at? : Option Instant) :
    undotted vars (instantChars epochs at?) = instantChars (undottedEpochs vars epochs) at? := by
  cases at? with
  | none => exact undotted_nil vars
  | some i =>
    have hblank : joins ' ' = false := by decide
    have hat : joins '@' = false := by decide
    have hi : undotted vars (i.chars epochs) = i.chars (undottedEpochs vars epochs) := by
      cases i with
      | start => exact undotted_of_no_point vars (show '.' ∉ "start()".toList by decide)
      | finish => exact undotted_of_no_point vars (show '.' ∉ "end()".toList by decide)
      | epoch before milliseconds => rfl
    have hchars : ∀ epochs, instantChars epochs (some i) =
        ' ' :: '@' :: ' ' :: i.chars epochs := fun _ => rfl
    rw [hchars, hchars, undotted_cons vars hblank, undotted_cons vars hat,
      undotted_cons vars hblank, hi]

theorem not_mem_offsetText (offset : Option Offset) : '.' ∉ (offsetText offset).toList := by
  cases offset with
  | none => exact List.not_mem_nil
  | some o =>
    have hsign : '.' ∉ (if o.negative then "-" else "").toList := by
      split <;> decide
    rw [offsetText, String.toList_append, String.toList_append, List.mem_append, List.mem_append]
    rintro ((h | h) | h)
    · exact absurd h (by decide)
    · exact hsign h
    · exact o.duration.not_mem_text h

theorem undotted_time (s : Selector) :
    undotted vars (s.timeChars epochs) = s.timeChars (undottedEpochs vars epochs) := by
  rw [Selector.timeChars, undotted_append vars _ (stops_offset s.offset),
    undotted_instantChars, undotted_of_no_point vars (not_mem_offsetText s.offset)]
  rfl

variable {vars}

theorem undotted_series {s : Selector} (hs : s.IsRead)
    (h : (Leaf.groups s.groups).Keeps vars) : undotted vars s.seriesChars = s.seriesChars := by
  have hmetric : Keeps vars (s.metric.getD "").toList := by
    cases hm : s.metric with
    | none => exact keeps_nil
    | some name => exact keeps_of_no_point (not_mem_of_isWord (hs.metric name hm).1)
  exact (keeps_append hmetric (stops_groups s.groups) (keeps_groups h)).undotted_eq

theorem undotted_lengthChars (length : Duration) (step : Option Duration) :
    undotted vars (lengthChars length step) = lengthChars length step := by
  refine undotted_of_no_point vars ?_
  have hlength := length.not_mem_text
  cases step with
  | none => simp [lengthChars, hlength]
  | some d => simp [lengthChars, hlength, d.not_mem_text]

theorem undotted_arguments {arguments : List Expr}
    (h : ∀ e ∈ arguments,
      undotted vars (e.chars epochs) = e.chars (undottedEpochs vars epochs)) :
    undotted vars
        ('(' :: [',', ' '].intercalate (arguments.map (Expr.chars epochs)) ++ [')']) =
      '(' :: [',', ' '].intercalate (arguments.map (Expr.chars (undottedEpochs vars epochs))) ++
        [')'] := by
  rw [undotted_between vars (by decide) (by decide), undotted_items, List.map_map]
  congr 3
  exact List.map_congr_left h

theorem undotted_chars {e : Expr} (h : e.Grammatical) (hl : ∀ l ∈ e.leaves, l.Keeps vars) :
    undotted vars (e.chars epochs) = e.chars (undottedEpochs vars epochs) := by
  induction h with
  | @selector s hs =>
    have hgroups := hl (.groups s.groups) List.mem_cons_self
    rw [Expr.chars, undotted_append vars _ (stops_time s), undotted_series hs hgroups,
      undotted_time]
    rfl
  | @range s length hs =>
    have hgroups := hl (.groups s.groups) (List.mem_cons_of_mem _ List.mem_cons_self)
    have hlength : '.' ∉ '[' :: length.text.toList ++ [']'] := by
      simp [length.not_mem_text]
    rw [Expr.chars, undotted_append vars _ (stops_time s), undotted_append vars _ rfl,
      undotted_series hs hgroups, undotted_of_no_point vars hlength, undotted_time]
    rfl
  | @subquery e length step offset at? he ho ht ih =>
    rw [Expr.leaves] at hl
    rw [Expr.chars, undotted_append vars _ (stops_offset offset),
      undotted_append vars _ (stops_instant at?), undotted_append vars _ rfl,
      ih fun l hmem => hl l (List.mem_append_left _ hmem), undotted_lengthChars,
      undotted_instantChars, undotted_of_no_point vars (not_mem_offsetText offset)]
    rfl
  | @call f arguments hf ha hc ih =>
    rw [Expr.leaves, Expr.leavesList_eq_flatMap] at hl
    have hname := scans_function f (List.mem_of_find?_eq_some hf)
    have harguments := undotted_arguments epochs fun e he =>
      ih e he fun l hmem => hl l (List.mem_flatMap.mpr ⟨e, he, hmem⟩)
    rw [Expr.chars, Expr.chars, Expr.charsList_eq_map, Expr.charsList_eq_map,
      undotted_append vars _ rfl, undotted_of_no_point vars (not_mem_of_isWord hname.1),
      harguments]
  | @aggregate op grouping parameter e hn hp he hc ihp ih =>
    have hname : '.' ∉ op.name.toList := by
      cases op <;> decide
    have hgrouping := keeps_grouping (hl (.grouping grouping) List.mem_cons_self)
    have hall : ∀ a ∈ parameter.toList ++ [e],
        undotted vars (a.chars epochs) = a.chars (undottedEpochs vars epochs) :=
      Expr.forall_mem_arguments hl ihp ih
    have harguments := undotted_arguments epochs hall
    rw [List.map_append, List.map_append, List.map_singleton, List.map_singleton] at harguments
    have hstart := keeps_append (keeps_of_no_point hname) (stops_grouping grouping) hgrouping
    rw [Expr.chars, Expr.chars, Expr.charsOption_eq_map, Expr.charsOption_eq_map,
      undotted_append vars _ rfl, harguments, hstart.undotted_eq]
  | @binary op matching left right hleft hright hm hclose hfits hc ihl ihr =>
    rw [Expr.leaves] at hl
    have hmatching := keeps_matching (hl (.matching matching) List.mem_cons_self)
    have hblank : joins ' ' = false := by decide
    have hname : '.' ∉ ' ' :: op.text.toList := by
      cases op <;> decide
    have hop : Keeps vars (' ' :: op.text.toList ++ matching.chars) :=
      keeps_append (keeps_of_no_point hname) (stops_words matching.words) hmatching
    rw [Expr.chars, Expr.chars, undotted_append_cons vars hblank, undotted_append vars _ rfl,
      hop.undotted_eq, ihl fun l hmem => hl l (by simp [hmem]),
      ihr fun l hmem => hl l (by simp [hmem])]
  | @negated e he hfits ht hn ih =>
    rw [Expr.chars, Expr.chars, undotted_cons vars (by decide), ih hl]
  | @paren e he ih =>
    rw [Expr.chars, Expr.chars, undotted_between vars (by decide) (by decide), ih hl]
  | @number x hx =>
    have hnumber := hl (.number x) (by simp [Expr.leaves])
    exact (hnumber _ List.mem_cons_self).undotted_eq
  | @string text =>
    have hstring := hl (.string text) (by simp [Expr.leaves]) text List.mem_cons_self
    rw [Expr.chars, Expr.chars, undotted_between vars (by decide) (by decide),
      hstring.undotted_eq]

end

end PromQL

end MetricScope
