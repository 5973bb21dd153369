import MetricScope.Proofs.TemplateVariable.Scanning

/-!
# Encoding as one substitution

Encoding replaces the token of one variable after the other in the whole text. It does
what one pass from left to right does that replaces the longest token wherever one
starts: no token is split by a shorter one, and none arises from a stand-in and the text
around it.
-/

set_option autoImplicit false

namespace MetricScope.TemplateVariable

open Text

/-- One pass over a text puts the stand-in for the longest token where tokens start and
copies every other character. The variables are those of the tokens that it met. -/
inductive Substitutes : List Char → List Char → List TemplateVariable → Prop where
  | nil : Substitutes [] [] []
  | token {v : TemplateVariable} {rest text : List Char} {met : List TemplateVariable}
      (longest : ∀ w : TemplateVariable, w.token.toList <+: v.token.toList ++ rest →
        w.token.toList.length ≤ v.token.toList.length)
      (pass : Substitutes rest text met) :
      Substitutes (v.token.toList ++ rest) (v.standIn.toList ++ text) (v :: met)
  | char {c : Char} {rest text : List Char} {met : List TemplateVariable}
      (none : ∀ w : TemplateVariable, ¬ w.token.toList <+: c :: rest)
      (pass : Substitutes rest text met) : Substitutes (c :: rest) (c :: text) met

def varsOf (marks : List Mark) : List TemplateVariable :=
  marks.filterMap fun
    | .char _ => none
    | .var v _ => some v

theorem marked_eq_decide (marks : List Mark) (v : TemplateVariable) :
    marked marks v = decide (v ∈ varsOf marks) := by
  rw [Bool.eq_iff_iff, marked_iff, decide_eq_true_eq, varsOf, List.mem_filterMap]
  constructor
  · rintro ⟨d, hd⟩
    exact ⟨.var v d, hd, rfl⟩
  · rintro ⟨m, hm, hv⟩
    cases m with
    | char c => exact absurd hv (by simp)
    | var w d => exact ⟨d, Option.some.inj hv ▸ hm⟩

theorem substitutes_scan (text : List Char) :
    Substitutes text (spell Mark.plain (scan text)) (varsOf (scan text)) := by
  induction text using scan_induction with
  | nil => exact .nil
  | token v rest h ih =>
    rw [scan_token h]
    exact .token (leading?_eq_some_iff.mp h).2 ih
  | item c rest h ih =>
    rw [scan_cons h]
    exact .char (leading?_eq_none_iff.mp h) ih

/-- There is one pass only, and it takes the marks of the text. -/
theorem Substitutes.eq_scan {query text : List Char} {met : List TemplateVariable}
    (h : Substitutes query text met) :
    text = spell Mark.plain (scan query) ∧ met = varsOf (scan query) := by
  induction h with
  | nil => exact ⟨rfl, rfl⟩
  | @token v rest text met longest pass ih =>
    have hleading := leading?_eq_some_iff.mpr ⟨List.prefix_append v.token.toList rest, longest⟩
    rw [scan_token hleading, ih.1, ih.2]
    exact ⟨rfl, rfl⟩
  | char none pass ih =>
    rw [scan_cons (leading?_eq_none_iff.mpr none), ih.1, ih.2]
    exact ⟨rfl, rfl⟩

theorem encodeEach_of_no_token {text : List Char}
    (h : ∀ v : TemplateVariable, ¬ v.token.toList <:+: text) (vars : List TemplateVariable) :
    encodeEach vars text = ⟨text, []⟩ := by
  induction vars with
  | nil => rfl
  | cons v rest ih => rw [encodeEach, if_neg (mt occursIn_iff_isInfix.mp (h v)), ih]

/-- Encoding is one pass that takes the longest token wherever one starts. It tells which
variables were met in the order of the table, each of them once. In an encoded text no
token is left, so it is encoded already. -/
theorem encode_eq_onePass (query : String) :
    (∃ met, (∀ text used, Substitutes query.toList text used ↔
        text = (encode query).1.toList ∧ used = met) ∧
      (encode query).2 = all.filter (· ∈ met)) ∧
    (encode query).2.Nodup ∧
    (∀ v : TemplateVariable, ¬ v.token.toList <:+: (encode query).1.toList) ∧
    encode (encode query).1 = ((encode query).1, []) := by
  have htext : (encode query).1.toList = spell Mark.plain (scan query.toList) := by
    rw [encode, encodeChars_eq_scan, String.toList_ofList]
  have hvars : (encode query).2 = all.filter (· ∈ varsOf (scan query.toList)) := by
    rw [encode, encodeChars_eq_scan]
    exact List.filter_congr fun v _ => marked_eq_decide (scan query.toList) v
  have hno : ∀ v : TemplateVariable, ¬ v.token.toList <:+: (encode query).1.toList := by
    intro v
    rw [htext, ← spell_partly_nil]
    exact not_token_isInfix_plain (clean_scan query.toList) v
  refine ⟨⟨varsOf (scan query.toList), fun text used => ⟨fun h => ?_, ?_⟩, hvars⟩, ?_, hno, ?_⟩
  · rw [htext]
    exact h.eq_scan
  · rintro ⟨rfl, rfl⟩
    rw [htext]
    exact substitutes_scan query.toList
  · rw [hvars]
    exact List.Nodup.sublist List.filter_sublist (by decide)
  · rw [encode, encodeChars, encodeEach_of_no_token hno, String.ofList_toList]

end MetricScope.TemplateVariable
