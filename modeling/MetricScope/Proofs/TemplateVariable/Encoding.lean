import Mathlib.Data.List.Basic
import MetricScope.Proofs.TemplateVariable.Marks

/-!
# Encoding what was decoded

Encoding a decoded text finds the variables again where they were put, if the text
around them does not turn their tokens into others. It gives the text in which the
stand-ins have no further digits, and decoding with the variables that it found is
decoding with those that were given.
-/

set_option autoImplicit false

namespace MetricScope.TemplateVariable

open Text

def word (v : TemplateVariable) : List Char :=
  v.token.toList.tail

theorem token_eq (v : TemplateVariable) : v.token.toList = '$' :: v.word := by
  cases v <;> rfl

theorem dollar_not_mem_word (v : TemplateVariable) : '$' ∉ v.word := by
  cases v <;> decide

theorem standIn_apart_word (v w : TemplateVariable) :
    apart v.standIn.toList w.word = true := by
  have h : ∀ v ∈ all, ∀ w ∈ all, apart v.standIn.toList w.word = true := by
    decide +kernel
  exact h v (mem_all v) w (mem_all w)

theorem token_apart_word (v w : TemplateVariable) :
    apart v.token.toList w.word = true :=
  v.token_apart_of_not_mem w.dollar_not_mem_word

/-- A timestamp's token is the beginning of no other token. -/
theorem timestamp_token_maximal {v w : TemplateVariable} (hw : w.kind = .timestamp)
    (h : w.token.toList <+: v.token.toList) : v = w := by
  have hall : ∀ v ∈ all, ∀ w ∈ all, w.kind = .timestamp →
      w.token.toList <+: v.token.toList → v = w := by
    decide +kernel
  exact hall v (mem_all v) w (mem_all w) hw h

theorem token_injective {v w : TemplateVariable} (h : v.token.toList = w.token.toList) :
    v = w := by
  have hall : ∀ v ∈ all, ∀ w ∈ all, v.token.toList = w.token.toList → v = w := by
    decide +kernel
  exact hall v (mem_all v) w (mem_all w) h

/-- The tokens that go on as longer ones, and what follows them there. -/
theorem extension_eq {v w : TemplateVariable} {rest : List Char} (hne : v ≠ w)
    (h : v.token.toList = w.token.toList ++ rest) :
    w = .interval ∧ rest = "_ms".toList ∨
      w = .range ∧ (rest = "_ms".toList ∨ rest = "_s".toList) := by
  have hrest : rest = v.token.toList.drop w.token.toList.length := by
    rw [h, List.drop_left]
  have hall : ∀ v ∈ all, ∀ w ∈ all, v ≠ w → w.token.toList <+: v.token.toList →
      w = .interval ∧ v.token.toList.drop w.token.toList.length = "_ms".toList ∨
        w = .range ∧ (v.token.toList.drop w.token.toList.length = "_ms".toList ∨
          v.token.toList.drop w.token.toList.length = "_s".toList) := by
    decide +kernel
  rw [hrest]
  exact hall v (mem_all v) w (mem_all w) hne ⟨rest, h.symm⟩

/-- Of two variables the one with the longer token is encoded first. -/
theorem all_pairwise :
    all.Pairwise fun v w => v ≠ w ∧ ¬ v.token.toList <+: w.token.toList := by
  decide

/-- The text around variables that makes their tokens others: a token of its own, or
the rest of a longer token behind a stand-in. -/
structure Unmixed (vars : List TemplateVariable) (text : List Char) : Prop where
  no_token (v : TemplateVariable) : ¬ v.token.toList <:+: text
  no_extension {v w : TemplateVariable} {rest : List Char} (hw : w ∈ vars) (hne : v ≠ w)
    (h : v.token.toList = w.token.toList ++ rest) : ¬ w.standIn.toList ++ rest <:+: text

structure Clean (marks : List Mark) : Prop where
  no_token (v : TemplateVariable) : ¬ v.token.toList.map Mark.char <:+: marks
  no_extension {v w : TemplateVariable} {d : Bool} {rest : List Char} (hne : v ≠ w)
    (h : v.token.toList = w.token.toList ++ rest) :
    ¬ Mark.var w d :: rest.map Mark.char <:+: marks

theorem Clean.tail {m : Mark} {marks : List Mark} (h : Clean (m :: marks)) : Clean marks where
  no_token v hin := h.no_token v (List.infix_cons hin)
  no_extension hne he hin := h.no_extension hne he (List.infix_cons hin)

theorem clean_marks {vars : List TemplateVariable} {text : List Char}
    (h : Unmixed vars text) : Clean (marks vars text) where
  no_token v hin := by
    have hspell : spell Mark.written _ <:+: spell Mark.written _ := spell_isInfix hin
    rw [spell_chars (fun c => rfl), spell_written_marks] at hspell
    exact h.no_token v hspell
  no_extension {v w d rest} hne he hin := by
    have hw := mem_vars_of_mem_marks (hin.mem List.mem_cons_self)
    cases d with
    | true => exact hne (timestamp_token_maximal (hw.2 rfl) ⟨rest, he.symm⟩)
    | false =>
      have hspell : spell Mark.written _ <:+: spell Mark.written _ := spell_isInfix hin
      rw [spell_cons, spell_chars (fun c => rfl), spell_written_marks,
        written_undotted] at hspell
      exact h.no_extension hw.1 hne he hspell

namespace Mark

/-- The spelling when the variables of a list are still to be encoded. -/
def partly (waiting : List TemplateVariable) : Mark → List Char
  | char c => [c]
  | var v _ => if v ∈ waiting then v.token.toList else v.standIn.toList

theorem partly_apart_word (waiting : List TemplateVariable) (w v : TemplateVariable)
    (d : Bool) : apart (partly waiting (.var v d)) w.word = true := by
  rw [partly]
  split
  · exact token_apart_word v w
  · exact standIn_apart_word v w

end Mark

theorem spell_partly_nil (marks : List Mark) :
    spell (Mark.partly []) marks = spell Mark.plain marks := by
  have hf : Mark.partly [] = Mark.plain := by
    funext m
    cases m <;> simp [Mark.partly, Mark.plain]
  rw [hf]

theorem spell_partly_all (marks : List Mark) :
    spell (Mark.partly all) marks = spell Mark.token marks := by
  have hf : Mark.partly all = Mark.token := by
    funext m
    cases m with
    | char c => rfl
    | var v d => simp [Mark.partly, Mark.token, mem_all v]
  rw [hf]

/-- No token of `v` starts at a mark that is not its own. -/
theorem startsNowhere_partly {v : TemplateVariable} {rest : List TemplateVariable}
    (hrest : ∀ w ∈ rest, v ≠ w ∧ ¬ v.token.toList <+: w.token.toList)
    {m : Mark} {marks : List Mark} (hm : ∀ d, m ≠ .var v d) (h : Clean (m :: marks)) :
    StartsNowhere v.token.toList (Mark.partly (v :: rest) m)
      (spell (Mark.partly (v :: rest)) marks) := by
  cases m with
  | char c =>
    refine ⟨fun hp => h.no_token v ?_, trivial⟩
    rw [token_eq, List.nil_append, List.cons_prefix_cons] at hp
    have hword := prefix_of_map_char (fun c => rfl)
      (Mark.partly_apart_word (v :: rest) v) hp.2
    rw [token_eq, List.map_cons, hp.1]
    exact ((List.prefix_cons_inj _).mpr hword).isInfix
  | var w d =>
    have hvw : v ≠ w := fun hvw => hm d (hvw ▸ rfl)
    rw [Mark.partly]
    split
    next hw =>
      have hw := hrest w ((List.mem_cons.mp hw).resolve_left hvw.symm)
      rw [w.token_eq]
      refine ⟨fun hp => ?_, startsNowhere_of_apart _ ?_⟩
      · rw [← List.cons_append, ← token_eq] at hp
        rcases prefix_or_prefix_of_prefix_append hp with hvw' | ⟨tail, htail⟩
        · exact hw.2 hvw'
        · rw [← htail, List.prefix_append_right_inj] at hp
          have hapart : ∀ u d, apart (Mark.partly (v :: rest) (.var u d)) tail = true := by
            intro u d
            have hu := Mark.partly_apart_word (v :: rest) v u d
            have htail' : v.word = w.word ++ tail := by
              rw [v.token_eq, w.token_eq, List.cons_append] at htail
              exact (List.cons.inj htail).2.symm
            exact apart_of_append (htail' ▸ hu)
          have hmarks := prefix_of_map_char (fun c => rfl) hapart hp
          exact h.no_extension hvw htail.symm ((List.prefix_cons_inj _).mpr hmarks).isInfix
      · exact token_apart_word v w
    · rw [v.token_eq]
      exact startsNowhere_of_apart _ (apart_of_head_not_mem w.dollar_not_mem_standIn)

/-- Encoding one variable turns its places into its stand-in and nothing else. -/
theorem replaceAll_spell_partly {v : TemplateVariable} {rest : List TemplateVariable}
    (hrest : ∀ w ∈ rest, v ≠ w ∧ ¬ v.token.toList <+: w.token.toList)
    {marks : List Mark} (h : Clean marks) :
    replaceAll v.token.toList v.standIn.toList (spell (Mark.partly (v :: rest)) marks) =
      spell (Mark.partly rest) marks := by
  have hv : v ∉ rest := fun hmem => (hrest v hmem).1 rfl
  have hne : v.token.toList ≠ [] := by simp [token_eq]
  induction marks with
  | nil => rfl
  | cons m marks ih =>
    have ih := ih h.tail
    by_cases hm : ∃ d, m = .var v d
    · obtain ⟨d, rfl⟩ := hm
      have hown : Mark.partly (v :: rest) (.var v d) = v.token.toList := by
        simp [Mark.partly]
      have hdone : Mark.partly rest (.var v d) = v.standIn.toList := by
        simp [Mark.partly, hv]
      rw [spell_cons, hown, replaceAll_append_self _ _ hne, ih, spell_cons, hdone]
    · have hm : ∀ d, m ≠ .var v d := fun d hd => hm ⟨d, hd⟩
      have hsame : Mark.partly (v :: rest) m = Mark.partly rest m := by
        cases m with
        | char c => rfl
        | var w d =>
          have hwv : w ≠ v := fun hwv => hm d (hwv ▸ rfl)
          simp [Mark.partly, hwv]
      rw [spell_cons, replaceAll_append _ (startsNowhere_partly hrest hm h), ih, spell_cons,
        hsame]

/-- The token of a variable occurs exactly where the variable has a place. -/
theorem occursIn_spell_partly {v : TemplateVariable} {rest : List TemplateVariable}
    (hrest : ∀ w ∈ rest, v ≠ w ∧ ¬ v.token.toList <+: w.token.toList)
    {marks : List Mark} (h : Clean marks) :
    occursIn v.token.toList (spell (Mark.partly (v :: rest)) marks) = marked marks v := by
  rw [Bool.eq_iff_iff, occursIn_iff_isInfix, marked_iff]
  constructor
  · intro hin
    induction marks with
    | nil => simp [token_eq] at hin
    | cons m marks ih =>
      by_cases hm : ∃ d, m = .var v d
      · obtain ⟨d, rfl⟩ := hm
        exact ⟨d, List.mem_cons_self⟩
      · have hm : ∀ d, m ≠ .var v d := fun d hd => hm ⟨d, hd⟩
        have hin := isInfix_of_isInfix_append (startsNowhere_partly hrest hm h) hin
        obtain ⟨d, hd⟩ := ih h.tail hin
        exact ⟨d, List.mem_cons_of_mem m hd⟩
  · rintro ⟨d, hd⟩
    obtain ⟨a, b, rfl⟩ := List.append_of_mem hd
    refine ⟨spell (Mark.partly (v :: rest)) a, spell (Mark.partly (v :: rest)) b, ?_⟩
    simp [Mark.partly]

theorem encodeEach_spell_partly {vars : List TemplateVariable}
    (hvars : vars.Pairwise fun v w => v ≠ w ∧ ¬ v.token.toList <+: w.token.toList)
    {marks : List Mark} (h : Clean marks) :
    encodeEach vars (spell (Mark.partly vars) marks) =
      ⟨spell Mark.plain marks, vars.filter (marked marks)⟩ := by
  induction vars with
  | nil => rw [encodeEach, spell_partly_nil, List.filter_nil]
  | cons v rest ih =>
    have hv := List.pairwise_cons.mp hvars
    have hreplaced := replaceAll_spell_partly hv.1 h
    rw [encodeEach, occursIn_spell_partly hv.1 h, List.filter_cons]
    split
    · rw [hreplaced, ih hv.2]
    next hmarked =>
      have hno : occursIn v.token.toList (spell (Mark.partly (v :: rest)) marks) = false := by
        rw [occursIn_spell_partly hv.1 h, Bool.eq_false_iff]
        exact hmarked
      rw [replaceAll_of_not_occurs _ hno] at hreplaced
      rw [hreplaced, ih hv.2]

def undotted (vars : List TemplateVariable) (text : List Char) : List Char :=
  spell Mark.plain (marks vars text)

/-- Encoding a decoded text finds the variables that were put back. -/
theorem encodeChars_decodeChars {vars : List TemplateVariable} {text : List Char}
    (h : Unmixed vars text) :
    encodeChars (decodeChars vars text) =
      ⟨undotted vars text, all.filter (marked (marks vars text))⟩ := by
  rw [← spell_token_marks, ← spell_partly_all]
  exact encodeEach_spell_partly all_pairwise (clean_marks h)

theorem vars_encodeEach_sublist (vars : List TemplateVariable) (text : List Char) :
    (encodeEach vars text).vars.Sublist vars := by
  induction vars generalizing text with
  | nil => exact List.Sublist.slnil
  | cons v rest ih =>
    rw [encodeEach]
    split
    · exact (ih _).cons_cons v
    · exact (ih _).cons v

theorem filter_eq_of_sublist {l vars : List TemplateVariable} {q : TemplateVariable → Bool}
    (hvars : vars.Sublist l) (hl : l.Nodup) (hq : ∀ v ∈ l, q v = true → v ∈ vars) :
    l.filter q = vars.filter q := by
  induction hvars with
  | slnil => rfl
  | @cons vars l v hsub ih =>
    have hv := List.nodup_cons.mp hl
    have hqv : q v = false := by
      rw [← Bool.not_eq_true]
      exact fun hv' => hv.1 (hsub.subset (hq v List.mem_cons_self hv'))
    rw [List.filter_cons, hqv, ih hv.2 fun w hw => hq w (List.mem_cons_of_mem v hw)]
    rfl
  | @cons_cons vars l v hsub ih =>
    have hv := List.nodup_cons.mp hl
    have hrest : ∀ w ∈ l, q w = true → w ∈ vars := by
      intro w hw hqw
      have hne : w ≠ v := fun hwv => hv.1 (hwv ▸ hw)
      exact (List.mem_cons.mp (hq w (List.mem_cons_of_mem v hw) hqw)).resolve_left hne
    rw [List.filter_cons, List.filter_cons, ih hv.2 hrest]

/-- The variables that are found decode as those that were given. -/
theorem decodeChars_marked {vars : List TemplateVariable} (hvars : vars.Sublist all)
    (text : List Char) :
    decodeChars (all.filter (marked (marks vars text))) text = decodeChars vars text := by
  have hall : all.Nodup := all_pairwise.imp And.left
  rw [filter_eq_of_sublist hvars hall, decodeChars_filter fun v hv => hv]
  intro v _ hv
  obtain ⟨d, hd⟩ := marked_iff.mp hv
  exact (mem_vars_of_mem_marks hd).1

def joins (c : Char) : Bool :=
  c.isAlphanum || c == '_' || c == '.'

theorem joins_of_mem_dottedStandIn (v : TemplateVariable) :
    ∀ c ∈ v.dottedStandIn, joins c = true := by
  rw [← List.all_eq_true]
  cases v <;> rfl

theorem joins_of_mem_standIn {v : TemplateVariable} {c : Char} (h : c ∈ v.standIn.toList) :
    joins c = true :=
  v.joins_of_mem_dottedStandIn c (by simp [dottedStandIn, h])

theorem not_mem_dottedStandIn {c : Char} (hc : joins c = false) (v : TemplateVariable) :
    c ∉ v.dottedStandIn := fun hmem => by
  simp [v.joins_of_mem_dottedStandIn c hmem] at hc

theorem not_mem_standIn {c : Char} (hc : joins c = false) (v : TemplateVariable) :
    c ∉ v.standIn.toList := fun hmem =>
  not_mem_dottedStandIn hc v (by simp [dottedStandIn, hmem])

theorem markStep_append_cons {c : Char} (hc : joins c = false) (v : TemplateVariable)
    (a b : List Mark) :
    markStep (a ++ .char c :: b) v = markStep a v ++ .char c :: markStep b v := by
  have hplain : Mark.char c ∉ v.standIn.toList.map Mark.char := by
    simpa using not_mem_standIn hc v
  have hdotted : Mark.char c ∉ v.dottedStandIn.map Mark.char := by
    simpa using not_mem_dottedStandIn hc v
  rw [markStep, markStep, markStep]
  split
  · rw [replaceAll_append_cons v.dottedStandIn_marks_ne_nil hdotted,
      replaceAll_append_cons v.standIn_marks_ne_nil hplain]
  · rw [replaceAll_append_cons v.standIn_marks_ne_nil hplain]

theorem foldl_markStep_append_cons {c : Char} (hc : joins c = false)
    (l : List TemplateVariable) (a b : List Mark) :
    l.foldl markStep (a ++ .char c :: b) =
      l.foldl markStep a ++ .char c :: l.foldl markStep b := by
  induction l generalizing a b with
  | nil => rfl
  | cons v l ih => rw [List.foldl_cons, markStep_append_cons hc, ih]; rfl

variable (vars : List TemplateVariable)

theorem undotted_append_cons {c : Char} (hc : joins c = false) (x y : List Char) :
    undotted vars (x ++ c :: y) = undotted vars x ++ c :: undotted vars y := by
  rw [undotted, marks, List.map_append, List.map_cons, foldl_markStep_append_cons hc,
    spell_append, spell_cons]
  rfl

@[simp] theorem undotted_nil : undotted vars [] = [] := by
  suffices h : ∀ l : List TemplateVariable, l.foldl markStep [] = [] by
    rw [undotted, marks, List.map_nil, h, spell_nil]
  intro l
  induction l with
  | nil => rfl
  | cons v l ih =>
    have hstep : markStep [] v = [] := by
      rw [markStep]
      split <;> rfl
    rw [List.foldl_cons, hstep, ih]

theorem undotted_cons {c : Char} (hc : joins c = false) (y : List Char) :
    undotted vars (c :: y) = c :: undotted vars y := by
  have h := undotted_append_cons vars hc [] y
  rwa [undotted_nil, List.nil_append, List.nil_append] at h

theorem spell_plain_of_no_dotted {ms : List Mark} (h : ∀ v, .var v true ∉ ms) :
    spell Mark.plain ms = spell Mark.written ms := by
  induction ms with
  | nil => rfl
  | cons m ms ih =>
    have hm : Mark.plain m = Mark.written m := by
      cases m with
      | char c => rfl
      | var v d =>
        cases d with
        | true => exact absurd List.mem_cons_self (h v)
        | false => rw [written_undotted, Mark.plain]
    rw [spell_cons, spell_cons, hm, ih fun v hv => h v (List.mem_cons_of_mem m hv)]

theorem undotted_eq_self {text : List Char}
    (h : ∀ v ∈ vars, v.kind = .timestamp → ¬ v.dottedStandIn <:+: text) :
    undotted vars text = text := by
  rw [undotted, spell_plain_of_no_dotted, spell_written_marks]
  intro v hv
  have hmem := mem_vars_of_mem_marks hv
  obtain ⟨a, b, hab⟩ := List.append_of_mem hv
  have hspell : spell Mark.written [.var v true] <:+: spell Mark.written (marks vars text) :=
    spell_isInfix ⟨a, b, by rw [hab, List.append_assoc, List.singleton_append]⟩
  rw [spell_written_marks, spell_cons, spell_nil, List.append_nil, written_dotted] at hspell
  exact h v hmem.1 (hmem.2 rfl) hspell

theorem point_mem_dottedStandIn (v : TemplateVariable) : '.' ∈ v.dottedStandIn := by
  cases v <;> decide

theorem undotted_of_no_point {text : List Char} (h : '.' ∉ text) :
    undotted vars text = text :=
  undotted_eq_self vars fun v _ _ hin => h (hin.subset v.point_mem_dottedStandIn)

theorem eq_nil_of_spell_written_eq_nil {ms : List Mark} (h : spell Mark.written ms = []) :
    ms = [] := by
  cases ms with
  | nil => rfl
  | cons m ms =>
    rw [spell_cons, List.append_eq_nil_iff] at h
    cases m with
    | char c => exact absurd h.1 (by simp [Mark.written])
    | var v d => exact absurd (List.append_eq_nil_iff.mp h.1).1 v.standIn_ne_nil

/-- Of three digits behind a point, zeros may go with the point. -/
theorem undotted_fixed {whole fraction : List Char} (hw : '.' ∉ whole)
    (hf : '.' ∉ fraction) (hlen : fraction.length = 3) :
    undotted vars (whole ++ '.' :: fraction) = whole ++ '.' :: fraction ∨
      fraction = ['0', '0', '0'] ∧ undotted vars (whole ++ '.' :: fraction) = whole := by
  by_cases hdot : ∃ v, .var v true ∈ marks vars (whole ++ '.' :: fraction)
  · right
    obtain ⟨v, hv⟩ := hdot
    obtain ⟨a, b, hab⟩ := List.append_of_mem hv
    have hspell := spell_written_marks vars (whole ++ '.' :: fraction)
    have hsplit : whole ++ '.' :: fraction =
        (spell Mark.written a ++ v.standIn.toList) ++
          '.' :: (['0', '0', '0'] ++ spell Mark.written b) := by
      rw [← hspell, hab, spell_append, spell_cons, Mark.written, if_pos rfl]
      simp
    obtain ⟨hwhole, -, hfraction⟩ := (List.append_cons_inj_of_notMem hw hf).mp hsplit
    have hb : b = [] := by
      refine eq_nil_of_spell_written_eq_nil (List.length_eq_zero_iff.mp ?_)
      have hlength := congrArg List.length hfraction
      rw [hlen, List.length_append] at hlength
      simpa using hlength.symm
    subst hb
    have ha : ∀ w, .var w true ∉ a := by
      intro w hmem
      obtain ⟨x, y, rfl⟩ := List.append_of_mem hmem
      refine hw ?_
      rw [hwhole, spell_append, spell_cons, written_dotted]
      simp [w.point_mem_dottedStandIn]
    refine ⟨hfraction, ?_⟩
    rw [undotted, hab, spell_append, spell_plain_of_no_dotted ha, hwhole]
    simp [Mark.plain]
  · left
    have hdot : ∀ v, .var v true ∉ marks vars (whole ++ '.' :: fraction) :=
      fun v hv => hdot ⟨v, hv⟩
    rw [undotted, spell_plain_of_no_dotted hdot, spell_written_marks]

end MetricScope.TemplateVariable
