import MetricScope.Proofs.PromQL.Grammar

/-!
# The characters of a tree are scanned as its tokens
-/

set_option autoImplicit false

namespace MetricScope.PromQL

open Lexer

theorem scans_items {α : Type} {chars : α → List Char} {tokens : α → List Token}
    {items : List α} (h : ∀ a ∈ items, Scans (chars a) (tokens a)) :
    Scans ([',', ' '].intercalate (items.map chars))
      ([Token.comma].intercalate (items.map tokens)) := by
  have hcomma : ScansAlone [',', ' '] [.comma] :=
    scansAlone_comma.appendAlone scansAlone_blank
  induction items with
  | nil => exact scans_nil
  | cons a rest ih =>
    have ha := h a List.mem_cons_self
    have hrest := ih fun b hb => h b (List.mem_cons_of_mem a hb)
    cases rest with
    | nil => simpa using ha
    | cons b rest => simpa using ha.append (hcomma.append hrest) rfl

theorem scansInBraces_items {α : Type} {chars : α → List Char} {tokens : α → List Token}
    {separator : List Char} {token : Token} (hs : ScansInBraces separator [token])
    {items : List α} (h : ∀ a ∈ items, ScansInBraces (chars a) (tokens a)) :
    ScansInBraces (separator.intercalate (items.map chars))
      ([token].intercalate (items.map tokens)) := by
  induction items with
  | nil => exact scansInBraces_nil
  | cons a rest ih =>
    have ha := h a List.mem_cons_self
    have hrest := ih fun b hb => h b (List.mem_cons_of_mem a hb)
    cases rest with
    | nil => simpa using ha
    | cons b rest => simpa using (ha.append hs).append hrest

theorem isName_of_isLabelName {name : String} (h : isLabelName name = true) :
    isName name.toList = true := by
  rw [isLabelName] at h
  cases hname : name.toList with
  | nil => simp [hname] at h
  | cons c rest =>
    have hdigit : isAlphanumeric = fun d => d == '_' || d.isAlphanum := by
      funext d
      simp [isAlphanumeric, isAlpha, Char.isAlphanum, Bool.or_assoc]
    rw [hname] at h
    rw [isName, hdigit]
    exact h

theorem isWord_of_isName {text : List Char} (h : isName text = true) :
    isWord text = true := by
  cases text with
  | nil => exact h
  | cons c rest =>
    rw [isName, Bool.and_eq_true, List.all_eq_true] at h
    rw [isWord, Bool.and_eq_true, List.all_eq_true]
    refine ⟨?_, fun d hd => ?_⟩
    · rw [startsWord, h.1, Bool.true_or]
    · rw [inWords, h.2 d hd, Bool.true_or]

theorem toList_quote (text : String) : (quote text).toList = '"' :: text.toList ++ ['"'] := by
  simp [quote]

theorem scans_label {name : String} (h : IsLabel name) :
    Scans (labelText name).toList [labelToken name] := by
  rw [labelText, labelToken]
  by_cases hname : isLabelName name = true
  · rw [if_pos hname, if_pos hname]
    have hscan := scans_word (isWord_of_isName (isName_of_isLabelName hname))
    rwa [String.ofList_toList] at hscan
  · rw [if_neg hname, if_neg hname, toList_quote]
    have hscan := scansAlone_string (h.bare_or_plain.resolve_left hname)
    rw [String.ofList_toList] at hscan
    exact hscan.scans

theorem scansAlone_labels {labels : List String} (h : ∀ name ∈ labels, IsLabel name) :
    ScansAlone (labelsText labels).toList (labelsTokens labels) := by
  have hitems : Scans ([',', ' '].intercalate (labels.map fun name => (labelText name).toList))
      ([Token.comma].intercalate (labels.map fun name => [labelToken name])) :=
    scans_items fun name hname => scans_label (h name hname)
  have htext : (labelsText labels).toList =
      '(' :: [',', ' '].intercalate (labels.map fun name => (labelText name).toList) ++
        [')'] := by
    simp [labelsText, toList_join, Function.comp_def]
  rw [htext, labelsTokens]
  exact scansAlone_parentheses hitems

theorem MatchSymbol.exists_text_eq (symbol : MatchSymbol) :
    ∃ c tail, (c = '=' ∨ c = '!') ∧ symbol.text.toList = c :: tail := by
  cases symbol with
  | equal | regexMatch => exact ⟨'=', _, .inl rfl, rfl⟩
  | notEqual | regexNotMatch => exact ⟨'!', _, .inr rfl, rfl⟩

theorem scansInBraces_matcher {m : Matcher} (h : m.IsWritten) :
    ScansInBraces m.chars m.tokens := by
  have hchars : m.chars = (labelText m.name).toList ++
      (m.op.symbol.text.toList ++ ('"' :: m.value.toList ++ ['"'])) := by
    simp [Matcher.chars, Matcher.text, toList_quote]
  have hvalue := scansInBraces_string h.value
  rw [String.ofList_toList] at hvalue
  have hsymbol : ScansInBraces (m.op.symbol.text.toList ++ ('"' :: m.value.toList ++ ['"']))
      ([.matching m.op.symbol] ++ [.string '"' m.value]) := by
    intro depth rest
    rw [List.append_assoc, List.cons_append, List.cons_append, run_symbolInBraces]
    have hrest := hvalue depth rest
    rw [List.cons_append, List.cons_append] at hrest
    rw [hrest, after_after]
  rw [hchars, Matcher.tokens, Matcher.nameToken, labelText]
  by_cases hname : isLabelName m.name = true
  · rw [if_pos hname, if_pos hname]
    obtain ⟨c, tail, hc, hsym⟩ := m.op.symbol.exists_text_eq
    have hword := isName_of_isLabelName hname
    intro depth rest
    have hrest := hsymbol depth rest
    rw [hsym] at hrest ⊢
    have hcall := run_nameInBraces depth hword hc (tail ++ ('"' :: m.value.toList ++ ['"']) ++ rest)
    rw [String.ofList_toList] at hcall
    simp only [List.append_assoc, List.cons_append] at hcall hrest ⊢
    rw [hcall, hrest, after_after]
    rfl
  · rw [if_neg hname, if_neg hname, toList_quote]
    have hscan := scansInBraces_string (h.name.resolve_left hname)
    rw [String.ofList_toList] at hscan
    exact hscan.append hsymbol

theorem scansInBraces_groups {g : MatcherGroups} (h : ∀ m ∈ g.matchers, m.IsWritten) :
    ScansInBraces g.inner g.innerTokens := by
  have hmatcher : ∀ ms ∈ g.toList, ∀ m ∈ ms, ScansInBraces m.chars m.tokens := by
    intro ms hms m hm
    exact scansInBraces_matcher (h m (List.mem_flatten.mpr ⟨ms, hms, hm⟩))
  rw [MatcherGroups.inner, MatcherGroups.innerTokens]
  split
  next hothers =>
    have hlist : g.toList = [g.first] := by rw [MatcherGroups.toList, hothers]
    have hfirst := scansInBraces_items scansInBraces_comma
      (hmatcher g.first List.mem_cons_self)
    simpa [hlist] using hfirst
  · refine scansInBraces_items scansInBraces_alternative fun ms hms => ?_
    exact scansInBraces_items (scansInBraces_comma.append scansInBraces_blank)
      (hmatcher ms hms)

theorem scans_groups {g : MatcherGroups} (h : ∀ m ∈ g.matchers, m.IsWritten) :
    ScansAlone g.chars g.tokens := by
  rw [MatcherGroups.chars, MatcherGroups.tokens]
  split
  · exact scansAlone_nil
  · exact scansAlone_braces (scansInBraces_groups h)

theorem stops_groups (g : MatcherGroups) : stops g.chars = true := by
  rw [MatcherGroups.chars]
  split <;> rfl

theorem scans_blank {text : List Char} {tokens : List Token} (h : Scans text tokens) :
    Scans (' ' :: text) tokens :=
  scansAlone_blank.append h

theorem scans_emptyCall (w : List Char) (hw : isWord w = true) :
    Scans (w ++ ['(', ')']) (wordToken (String.ofList w) :: [.openParen, .closeParen]) :=
  (scans_word hw).append (scansAlone_parentheses scans_nil).scans rfl

theorem scans_seconds {chars : List Char} {i : Instant} (h : i.IsWritten chars) :
    Scans chars [.number (String.ofList chars)] := by
  obtain ⟨phase, hread, hphase⟩ := h.scans
  exact scans_number hread hphase

theorem scans_durationText {d : Duration} (h : d.IsWritten) :
    Scans d.text.toList [.duration d.text] := by
  obtain ⟨phase, hread, hphase⟩ := h.scans
  have hscan := scans_duration hread hphase
  rwa [String.ofList_toList] at hscan

section

variable {epochs : Bool → Nat → List Char}

theorem scans_instant {at? : Option Instant}
    (h : ∀ l ∈ instantLeaves at?, l.IsWritten epochs) :
    Scans (instantChars epochs at?) (instantTokens epochs at?) := by
  cases at? with
  | none => exact scans_nil
  | some i =>
    have hi := h (.instant i) (by simp [instantLeaves])
    have hchars : Scans (i.chars epochs) (i.tokens epochs) := by
      cases i with
      | start => exact scans_emptyCall ['s', 't', 'a', 'r', 't'] rfl
      | finish => exact scans_emptyCall ['e', 'n', 'd'] rfl
      | epoch before milliseconds => exact scans_seconds hi
    exact scans_blank (scansAlone_at.append (scans_blank hchars))

theorem stops_instant (at? : Option Instant) :
    stops (instantChars epochs at?) = true := by
  cases at? <;> rfl

theorem stops_offset (offset : Option Offset) :
    stops (offsetText offset).toList = true := by
  cases offset with
  | none => rfl
  | some o => simp [offsetText, stops, breaks]

theorem scans_offset {offset : Option Offset}
    (h : ∀ l ∈ offsetLeaves offset, l.IsWritten epochs) :
    Scans (offsetText offset).toList (offsetTokens offset) := by
  cases offset with
  | none => exact scans_nil
  | some o =>
    have ho : o.duration.IsWritten := h (.duration o.duration) (by simp [offsetLeaves])
    have hword : Scans ['o', 'f', 'f', 's', 'e', 't'] [.keyword .offset "offset"] :=
      scans_word rfl
    have hduration := scans_durationText ho
    have hlength : Scans (' ' :: ((if o.negative then ['-'] else []) ++ o.duration.text.toList))
        ((if o.negative then [.operator .sub] else []) ++ [.duration o.duration.text]) := by
      refine scans_blank ?_
      split
      · exact scansAlone_minus.append hduration
      · exact hduration
    have hall := scans_blank (hword.append hlength rfl)
    have htext : (offsetText (some o)).toList = ' ' :: (['o', 'f', 'f', 's', 'e', 't'] ++
        ' ' :: ((if o.negative then ['-'] else []) ++ o.duration.text.toList)) := by
      cases hneg : o.negative <;> simp [offsetText, hneg]
    rw [htext]
    simpa [offsetTokens] using hall

theorem scans_time {s : Selector} (h : ∀ l ∈ s.leaves, l.IsWritten epochs) :
    Scans (s.timeChars epochs) (s.timeTokens epochs) := by
  have hinstant : Scans (instantChars epochs s.at?) (instantTokens epochs s.at?) :=
    scans_instant fun l hl => h l (by simp [Selector.leaves, hl])
  have hoffset : Scans (offsetText s.offset).toList (offsetTokens s.offset) :=
    scans_offset fun l hl => h l (by simp [Selector.leaves, hl])
  exact hinstant.append hoffset (stops_offset s.offset)

theorem stops_time (s : Selector) : stops (s.timeChars epochs) = true :=
  stops_append (stops_instant s.at?) (stops_offset s.offset)

theorem scans_series {s : Selector} (hs : s.IsRead)
    (h : ∀ l ∈ s.leaves, l.IsWritten epochs) : Scans s.seriesChars s.seriesTokens := by
  have hgroups : ScansAlone s.groups.chars s.groups.tokens :=
    scans_groups (h (.groups s.groups) List.mem_cons_self)
  have hmetric : Scans (s.metric.getD "").toList (s.metric.map wordToken).toList := by
    cases hm : s.metric with
    | none => exact scans_nil
    | some name =>
      have hscan := scans_word (hs.metric name hm).1
      rwa [String.ofList_toList] at hscan
  exact hmetric.append hgroups.scans (stops_groups s.groups)

theorem scansAlone_word_labels (w : List Char) {token : Token} (hw : isWord w = true)
    (ht : wordToken (String.ofList w) = token) {labels : List String}
    (h : ∀ name ∈ labels, IsLabel name) :
    ScansAlone (' ' :: (w ++ ' ' :: (labelsText labels).toList))
      (token :: labelsTokens labels) := by
  intro depth rest
  have hfirst := scansAlone_blank depth (w ++ ' ' :: ((labelsText labels).toList ++ rest))
  have hword := scans_word hw depth (' ' :: ((labelsText labels).toList ++ rest)) rfl
  have hblank := scansAlone_blank depth ((labelsText labels).toList ++ rest)
  have hassoc : ' ' :: (w ++ ' ' :: (labelsText labels).toList) ++ rest =
      ' ' :: (w ++ ' ' :: ((labelsText labels).toList ++ rest)) := by simp
  rw [List.cons_append, List.nil_append] at hfirst hblank
  rw [hassoc, hfirst, hword, hblank, scansAlone_labels h depth rest, after_after,
    after_after, after_after, ht]
  rfl

theorem scans_grouping {g : Option Grouping} {arguments : List Char} {tokens : List Token}
    (h : (Leaf.grouping g).IsWritten epochs) (ha : Scans arguments tokens)
    (hstop : stops arguments = true) :
    Scans ((groupingText g).toList ++ arguments) (groupingTokens g ++ tokens) ∧
      stops ((groupingText g).toList ++ arguments) = true := by
  cases g with
  | none => exact ⟨ha, hstop⟩
  | some g =>
    have hlabels := h.2 g rfl
    cases g with
    | including labels =>
      cases labels with
      | nil => exact ⟨ha, hstop⟩
      | cons name rest =>
        have hword : ScansAlone _ (.keyword .byLabels "by" :: labelsTokens (name :: rest)) :=
          scansAlone_word_labels ['b', 'y'] rfl rfl hlabels
        refine ⟨?_, by simp [groupingText, stops, breaks]⟩
        simpa [groupingText, groupingTokens] using
          hword.append (scansAlone_blank.append ha)
    | excluding labels =>
      have hword : ScansAlone _ (.keyword .withoutLabels "without" :: labelsTokens labels) :=
        scansAlone_word_labels ['w', 'i', 't', 'h', 'o', 'u', 't'] rfl rfl hlabels
      refine ⟨?_, by simp [groupingText, stops, breaks]⟩
      simpa [groupingText, groupingTokens] using hword.append (scansAlone_blank.append ha)

theorem scans_matching {m : VectorMatching} (h : (Leaf.matching m).IsWritten epochs) :
    Scans m.chars m.tokens ∧ stops m.chars = true := by
  obtain ⟨hne, hlabels, hgroup⟩ := h
  have hbool : Scans ((if m.returnBool then ["bool"] else []).flatMap
      fun word => ' ' :: word.toList) (if m.returnBool then [.keyword .bool "bool"] else []) := by
    have hword : Scans ['b', 'o', 'o', 'l'] [.keyword .bool "bool"] := scans_word rfl
    split
    · exact scans_blank hword
    · exact scans_nil
  have hmatching : Scans ((matchingWords m.labels).flatMap fun word => ' ' :: word.toList)
      (matchingTokens m.labels) := by
    cases hg : m.labels with
    | none => exact scans_nil
    | some g =>
      have hnames := hlabels g hg
      rw [hg] at hne
      cases g with
      | including labels =>
        have hword : ScansAlone _ (.keyword .onLabels "on" :: labelsTokens labels) :=
          scansAlone_word_labels ['o', 'n'] rfl rfl hnames
        simpa [matchingWords, matchingTokens] using hword.scans
      | excluding labels =>
        cases labels with
        | nil => exact absurd rfl hne
        | cons name rest =>
          have hword : ScansAlone _
              (.keyword .ignoringLabels "ignoring" :: labelsTokens (name :: rest)) :=
            scansAlone_word_labels ['i', 'g', 'n', 'o', 'r', 'i', 'n', 'g'] rfl rfl hnames
          simpa [matchingWords, matchingTokens] using hword.scans
  have hcardinality : Scans (m.cardinality.words.flatMap fun word => ' ' :: word.toList)
      m.cardinality.tokens := by
    cases hc : m.cardinality with
    | oneToOne => exact scans_nil
    | manyToOne labels =>
      have hnames := hgroup labels (by rw [hc]; rfl)
      have hword : ScansAlone _ (.keyword .groupLeft "group_left" :: labelsTokens labels) :=
        scansAlone_word_labels ['g', 'r', 'o', 'u', 'p', '_', 'l', 'e', 'f', 't'] rfl rfl
          hnames
      simpa [Cardinality.words, Cardinality.tokens] using hword.scans
    | oneToMany labels =>
      have hnames := hgroup labels (by rw [hc]; rfl)
      have hword : ScansAlone _ (.keyword .groupRight "group_right" :: labelsTokens labels) :=
        scansAlone_word_labels ['g', 'r', 'o', 'u', 'p', '_', 'r', 'i', 'g', 'h', 't'] rfl rfl
          hnames
      simpa [Cardinality.words, Cardinality.tokens] using hword.scans
  have hstop : ∀ words : List String,
      stops (words.flatMap fun word => ' ' :: word.toList) = true := by
    intro words
    cases words <;> rfl
  refine ⟨?_, hstop _⟩
  rw [VectorMatching.chars, VectorMatching.words, VectorMatching.tokens, List.flatMap_append,
    List.flatMap_append]
  exact (hbool.append hmatching (hstop _)).append hcardinality (hstop _)

end

theorem scans_function : ∀ f ∈ Function.all, isWord f.name.toList = true ∧
    wordToken f.name = .identifier f.name := by
  decide +kernel

theorem toList_numberText_neg {x : Binary64} (h : x.isNegative = true) :
    (numberText x).toList = '-' :: (numberText x.neg).toList := by
  cases x with
  | nan => exact absurd h (by simp [Binary64.isNegative])
  | infinite negative =>
    simp only [Binary64.isNegative] at h
    subst h
    rfl
  | finite negative mantissa exponent =>
    simp only [Binary64.isNegative] at h
    subst h
    by_cases hm : mantissa = 0 <;> simp [numberText, Binary64.neg, Binary64.digits, hm]

theorem scansAlone_lengths {length : Duration} {step : Option Duration}
    (hl : length.IsWritten) (hs : ∀ d ∈ step, d.IsWritten) :
    ScansAlone (lengthChars length step) (lengthTokens length step) := by
  obtain ⟨phase, hread, hphase⟩ := hl.scans
  cases step with
  | none =>
    have hscan := scansAlone_length hread hphase
    rw [String.ofList_toList] at hscan
    simpa [lengthChars, lengthTokens] using hscan
  | some d =>
    obtain ⟨phase', hread', hphase'⟩ := (hs d rfl).scans
    have hscan := scansAlone_lengthStep hread hphase hread' hphase'
    rw [String.ofList_toList, String.ofList_toList] at hscan
    simpa [lengthChars, lengthTokens] using hscan

theorem scans_aggregator (op : Aggregator) :
    Scans op.name.toList [.keyword (.aggregator op) op.name] := by
  cases op <;> exact scans_word rfl

theorem scans_arguments {epochs : Bool → Nat → List Char} {arguments : List Expr}
    (h : ∀ e ∈ arguments, Scans (e.chars epochs) (e.tokens epochs)) :
    Scans ('(' :: [',', ' '].intercalate (arguments.map (Expr.chars epochs)) ++ [')'])
      (.openParen :: [Token.comma].intercalate (arguments.map (Expr.tokens epochs)) ++
        [.closeParen]) :=
  (scansAlone_parentheses (scans_items h)).scans

theorem scans_chars {epochs : Bool → Nat → List Char} {e : Expr} (h : e.Grammatical)
    (hl : ∀ l ∈ e.leaves, l.IsWritten epochs) : Scans (e.chars epochs) (e.tokens epochs) := by
  induction h with
  | @selector s hs => exact (scans_series hs hl).append (scans_time hl) (stops_time s)
  | @range s length hs =>
    have hlength : length.IsWritten := hl (.duration length) List.mem_cons_self
    obtain ⟨phase, hread, hphase⟩ := hlength.scans
    have hrange := scansAlone_range hread hphase
    rw [String.ofList_toList] at hrange
    have hs' : ∀ l ∈ s.leaves, l.IsWritten epochs := fun l hmem =>
      hl l (List.mem_cons_of_mem _ hmem)
    have hall := ((scans_series hs hs').append hrange.scans rfl).append (scans_time hs')
      (stops_time s)
    simpa [Expr.chars, Expr.tokens] using hall
  | @subquery e length step offset at? he ho ht ih =>
    simp only [Expr.leaves, List.mem_append, List.mem_cons] at hl
    have hlengths : ScansAlone (lengthChars length step) (lengthTokens length step) := by
      refine scansAlone_lengths (hl (.duration length) (by simp)) fun d hd => ?_
      exact hl (.duration d) (by simp [Option.mem_def.mp hd])
    have hinstant : Scans (instantChars epochs at?) (instantTokens epochs at?) :=
      scans_instant fun l hmem => hl l (by simp [hmem])
    have hoffset : Scans (offsetText offset).toList (offsetTokens offset) :=
      scans_offset fun l hmem => hl l (by simp [hmem])
    have hbody := ih fun l hmem => hl l (by simp [hmem])
    exact ((hbody.append hlengths.scans rfl).append hinstant (stops_instant at?)).append
      hoffset (stops_offset offset)
  | @call f arguments hf ha hc ih =>
    rw [Expr.leaves, Expr.leavesList_eq_flatMap] at hl
    have hname := scans_function f (List.mem_of_find?_eq_some hf)
    have hword := scans_word hname.1
    rw [String.ofList_toList, hname.2] at hword
    have harguments := scans_arguments fun e he =>
      ih e he fun l hmem => hl l (List.mem_flatMap.mpr ⟨e, he, hmem⟩)
    rw [Expr.chars, Expr.tokens, Expr.charsList_eq_map, Expr.tokensList_eq_map]
    exact hword.append harguments rfl
  | @aggregate op grouping parameter e hn hp he hc ihp ih =>
    have harguments : ∀ a ∈ parameter.toList ++ [e],
        Scans (a.chars epochs) (a.tokens epochs) :=
      Expr.forall_mem_arguments hl ihp ih
    have hgrouping := scans_grouping (hl (.grouping grouping) List.mem_cons_self)
      (scans_arguments harguments) rfl
    have hall := (scans_aggregator op).append hgrouping.1 hgrouping.2
    rw [Expr.chars, Expr.tokens, Expr.charsOption_eq_map, Expr.tokensOption_eq_map]
    simpa using hall
  | @binary op matching left right hleft hright hm hclose hfits hc ihl ihr =>
    rw [Expr.leaves] at hl
    have hmatching := scans_matching (hl (.matching matching) List.mem_cons_self)
    have hl' := ihl fun l hmem => hl l (by simp [hmem])
    have hr' := scans_blank (ihr fun l hmem => hl l (by simp [hmem]))
    have hop := scans_blank ((scans_operator op).append hmatching.1 hmatching.2)
    have hall := (hl'.append hop rfl).append hr' rfl
    simpa [Expr.chars, Expr.tokens] using hall
  | @negated e he hfits ht hn ih => exact scansAlone_minus.append (ih hl)
  | @paren e he ih => exact (scansAlone_parentheses (ih hl)).scans
  | @number x hx =>
    rw [Expr.chars, Expr.tokens, numberTokens]
    split
    next hneg =>
      rw [if_pos hneg] at hx
      rw [toList_numberText_neg hneg]
      exact scansAlone_minus.append hx.scans
    next hneg =>
      rw [if_neg hneg] at hx
      exact hx.scans
  | @string text =>
    have htext : Plain text := hl (.string text) (by simp [Expr.leaves])
    have hscan := scansAlone_string htext
    rw [String.ofList_toList] at hscan
    exact hscan.scans

end MetricScope.PromQL
