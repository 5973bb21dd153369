import MetricScope.Proofs.PromQL.Parts
import MetricScope.Proofs.Text.Occurrences

/-!
# What looks like a variable in the text of a tree

Tokens and stand-ins have no separators in them, so they are in the text of a tree only if
they are in one of its parts. The same holds of the places that decoding finds.
-/

set_option autoImplicit false

namespace MetricScope

namespace TemplateVariable

open Text

def places (vars : List TemplateVariable) (v : TemplateVariable) (text : List Char) : Nat :=
  (marks vars text).countP fun m => decide (m = .var v true ∨ m = .var v false)

theorem places_pos_iff {vars : List TemplateVariable} {v : TemplateVariable}
    {text : List Char} : 0 < places vars v text ↔ marked (marks vars text) v = true := by
  rw [places, List.countP_pos_iff, marked, decide_eq_true_eq]
  simp only [decide_eq_true_eq]
  constructor
  · rintro ⟨m, hm, rfl | rfl⟩
    · exact .inl hm
    · exact .inr hm
  · rintro (hm | hm)
    · exact ⟨_, hm, .inl rfl⟩
    · exact ⟨_, hm, .inr rfl⟩

theorem standIn_isInfix_of_mem_marks {vars : List TemplateVariable} {v : TemplateVariable}
    {d : Bool} {text : List Char} (h : .var v d ∈ marks vars text) :
    v.standIn.toList <:+: text := by
  obtain ⟨a, b, hab⟩ := List.append_of_mem h
  have hspell := spell_written_marks vars text
  rw [hab, spell_append, spell_cons, Mark.written] at hspell
  refine ⟨spell Mark.written a, (if d then ".000".toList else []) ++ spell Mark.written b, ?_⟩
  rw [← hspell]
  simp

theorem places_eq_zero {vars : List TemplateVariable} {v : TemplateVariable}
    {text : List Char} (h : ¬ v.standIn.toList <:+: text) : places vars v text = 0 := by
  apply Nat.eq_zero_of_not_pos
  rw [places_pos_iff, marked_iff]
  rintro ⟨d, hd⟩
  exact h (standIn_isInfix_of_mem_marks hd)

theorem marks_append_cons {c : Char} (hc : joins c = false) (vars : List TemplateVariable)
    (x y : List Char) : marks vars (x ++ c :: y) = marks vars x ++ .char c :: marks vars y := by
  rw [marks, List.map_append, List.map_cons, foldl_markStep_append_cons hc]
  rfl

/-- Parts of stand-ins: each stand-in has an eight, a nine or two underscores in a row. -/
def signs : List (List Char) :=
  [['8'], ['9'], ['_', '_']]

theorem exists_sign (v : TemplateVariable) : ∃ sign ∈ signs, sign <:+: v.standIn.toList := by
  cases v <;> decide +kernel

theorem not_standIn_isInfix_of_no_sign {text : List Char}
    (h : ∀ sign ∈ signs, occursIn sign text = false) (v : TemplateVariable) :
    ¬ v.standIn.toList <:+: text := by
  intro hin
  obtain ⟨sign, hsign, hv⟩ := v.exists_sign
  have hoccurs := h sign hsign
  rw [occursIn_iff_isInfix.mpr (hv.trans hin)] at hoccurs
  exact absurd hoccurs (by simp)

/-- No stand-in starts with a letter of the word for alternatives. -/
theorem head?_standIn (v : TemplateVariable) :
    v.standIn.toList.head? ≠ some 'o' ∧ v.standIn.toList.head? ≠ some 'r' := by
  cases v <;> exact ⟨by decide, by decide⟩

theorem head?_dottedStandIn (v : TemplateVariable) :
    v.dottedStandIn.head? = v.standIn.toList.head? := by
  cases v <;> decide

theorem markStep_cons {c : Char} {v : TemplateVariable} (hc : v.standIn.toList.head? ≠ some c)
    (ms : List Mark) : markStep (.char c :: ms) v = .char c :: markStep ms v := by
  have hhead : ∀ p : List Char, p.head? = v.standIn.toList.head? →
      (p.map Mark.char).head? ≠ some (.char c) := by
    intro p hp hhead
    rw [List.head?_map, hp, Option.map_eq_some_iff] at hhead
    obtain ⟨d, hd, hdc⟩ := hhead
    exact hc (by rw [hd, Mark.char.inj hdc])
  have hplain := hhead _ rfl
  have hdotted := hhead _ v.head?_dottedStandIn
  rw [markStep, markStep]
  split
  · rw [replaceAll_cons_of_head v.dottedStandIn_marks_ne_nil hdotted,
      replaceAll_cons_of_head v.standIn_marks_ne_nil hplain]
  · rw [replaceAll_cons_of_head v.standIn_marks_ne_nil hplain]

theorem marks_cons {c : Char} (hc : ∀ v : TemplateVariable, v.standIn.toList.head? ≠ some c)
    (vars : List TemplateVariable) (x : List Char) :
    marks vars (c :: x) = .char c :: marks vars x := by
  suffices h : ∀ (l : List TemplateVariable) (ms : List Mark),
      l.foldl markStep (.char c :: ms) = .char c :: l.foldl markStep ms from
    h (decodingOrder vars) (x.map Mark.char)
  intro l
  induction l with
  | nil => intro ms; rfl
  | cons v l ih => intro ms; rw [List.foldl_cons, markStep_cons (hc v), ih, List.foldl_cons]

end TemplateVariable

namespace PromQL

open TemplateVariable

theorem not_joins_of_separates {c : Char} (h : separates c = true) : joins c = false := by
  rw [separates, Bool.and_eq_true, Bool.not_eq_true'] at h
  exact h.1

theorem standIn_not_in_fixedWord :
    ∀ word ∈ fixedWords, ∀ v : TemplateVariable, ¬ v.standIn.toList <:+: word.toList := by
  have h : ∀ word ∈ fixedWords, ∀ sign ∈ signs, Text.occursIn sign word.toList = false := by
    decide +kernel
  exact fun word hword => not_standIn_isInfix_of_no_sign (h word hword)

theorem measure_places (vars : List TemplateVariable) (v : TemplateVariable) :
    Measure (places vars v) where
  nil := places_eq_zero (by simpa using v.standIn_ne_nil)
  append_cons hc x y := by
    rw [places, marks_append_cons (not_joins_of_separates hc), List.countP_append,
      List.countP_cons]
    simp [places]
  or_append x := by
    rw [places, marks_cons fun v => v.head?_standIn.1, marks_cons fun v => v.head?_standIn.2]
    simp [places]
  fixedWord word hword := places_eq_zero (standIn_not_in_fixedWord word hword v)

/-- Characters that are in the text of a tree only if they are in one of its parts. -/
structure Stretch (p : List Char) : Prop where
  ne_nil : p ≠ []
  unseparated : ∀ c ∈ p, separates c = false
  first : p.head? ≠ some 'o' ∧ p.head? ≠ some 'r'
  fixedWord : ∀ word ∈ fixedWords, ¬ p <:+: word.toList

section

variable {p : List Char} (hp : Stretch p)

include hp

theorem Stretch.measure : Measure (Text.occurrences p) where
  nil := rfl
  append_cons hc x y := by
    apply Text.occurrences_append_cons hp.ne_nil
    intro hmem
    rw [hp.unseparated _ hmem] at hc
    exact absurd hc (by simp)
  or_append x := by
    obtain ⟨c, tail, rfl⟩ := List.exists_cons_of_ne_nil hp.ne_nil
    obtain ⟨ho, hr⟩ := hp.first
    rw [Text.occurrences_cons_of_no_match, Text.occurrences_cons_of_no_match]
    · rw [List.cons_prefix_cons]
      exact fun h => hr (congrArg some h.1)
    · rw [List.cons_prefix_cons]
      exact fun h => ho (congrArg some h.1)
  fixedWord word hword := (Text.occurrences_eq_zero_iff hp.ne_nil).mpr (hp.fixedWord word hword)

/-- What is in no part of a tree is not in its text. -/
theorem Stretch.not_isInfix_text {e : Expr} (he : e.Grammatical)
    (h : ∀ part ∈ e.parts, ¬ p <:+: part.toList) : ¬ p <:+: e.text.toList := by
  rw [← Text.occurrences_eq_zero_iff hp.ne_nil, hp.measure.text he, weigh_eq_zero_iff]
  intro part hpart
  exact (Text.occurrences_eq_zero_iff hp.ne_nil).mpr (h part hpart)

end

theorem stretch_standIn_append (v : TemplateVariable) {rest : List Char}
    (hrest : ∀ c ∈ rest, separates c = false) : Stretch (v.standIn.toList ++ rest) where
  ne_nil := by simp [v.standIn_ne_nil]
  unseparated c hc := by
    rcases List.mem_append.mp hc with hc | hc
    · simp [separates, joins_of_mem_standIn hc]
    · exact hrest c hc
  first := by
    rw [List.head?_append_of_ne_nil _ v.standIn_ne_nil]
    exact v.head?_standIn
  fixedWord word hword hin :=
    standIn_not_in_fixedWord word hword v ((List.prefix_append _ _).isInfix.trans hin)

theorem stretch_token (v : TemplateVariable) : Stretch v.token.toList where
  ne_nil := by simp [token_eq]
  unseparated c hc := by
    have h : v.token.toList.all (fun c => !separates c) = true := by
      cases v <;> decide +kernel
    simpa using List.all_eq_true.mp h c hc
  first := by
    rw [token_eq]
    exact ⟨by simp, by simp⟩
  fixedWord word hword hin := by
    have hdollar : ∀ word ∈ fixedWords, '$' ∉ word.toList := by decide +kernel
    exact hdollar word hword (hin.subset (by simp [token_eq]))

theorem unmixed_text {vars : List TemplateVariable} {e : Expr} (he : e.Grammatical)
    (h : ∀ part ∈ e.parts, Unmixed vars part.toList) : Unmixed vars e.text.toList where
  no_token v := (stretch_token v).not_isInfix_text he fun part hpart =>
    (h part hpart).no_token v
  no_extension {v w rest} hw hne heq := by
    have hrest : ∀ c ∈ rest, separates c = false := fun c hc =>
      (stretch_token v).unseparated c (heq ▸ List.mem_append_right _ hc)
    exact (stretch_standIn_append w hrest).not_isInfix_text he fun part hpart =>
      (h part hpart).no_extension hw hne heq

end PromQL

end MetricScope
