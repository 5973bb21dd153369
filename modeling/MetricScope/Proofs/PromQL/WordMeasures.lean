import MetricScope.Proofs.PromQL.Lexemes
import MetricScope.Proofs.PromQL.Traces

/-!
# What is not in the words of the language

Stand-ins and tokens have no capital letters, so they are in no word of the language however
it is written. No stand-in reaches over the point behind such a word.
-/

set_option autoImplicit false

namespace MetricScope

namespace Text

variable {α β : Type} [DecidableEq α] [DecidableEq β]

theorem apart_of_map (g : α → β) {old text : List α}
    (h : apart (old.map g) (text.map g) = true) : apart old text = true := by
  induction text with
  | nil => rfl
  | cons c text ih =>
    rw [List.map_cons, apart_cons_iff, ← List.map_cons] at h
    exact apart_cons_iff.mpr ⟨fun hp => h.1 (hp.map g), fun hp => h.2.1 (hp.map g), ih h.2.2⟩

end Text

namespace PromQL

open TemplateVariable

/-- What has no capital letters is in no word of the language if it is in none of the list. -/
theorem not_isInfix_of_isKeywordText {p text : List Char} (hp : p.map Char.toLower = p)
    (hno : ∀ word ∈ keywordTexts, ¬ p <:+: word.toList) (h : IsKeywordText text) :
    ¬ p <:+: text := by
  intro hin
  have hlower := hin.map Char.toLower
  rw [hp] at hlower
  exact hno _ h (by rwa [String.toList_ofList])

theorem map_toLower_standIn (v : TemplateVariable) :
    v.standIn.toList.map Char.toLower = v.standIn.toList := by
  cases v <;> decide +kernel

theorem map_toLower_dottedStandIn (v : TemplateVariable) :
    v.dottedStandIn.map Char.toLower = v.dottedStandIn := by
  cases v <;> decide +kernel

theorem map_toLower_token (v : TemplateVariable) :
    v.token.toList.map Char.toLower = v.token.toList := by
  cases v <;> decide +kernel

/-- No stand-in starts in a word of the language or at the point behind it. -/
theorem standIn_apart_keyword (v : TemplateVariable) :
    ∀ word ∈ keywordTexts, Text.apart v.standIn.toList (word.toList ++ ['.']) = true ∧
      Text.apart v.dottedStandIn (word.toList ++ ['.']) = true := by
  have h : ∀ v ∈ TemplateVariable.all, ∀ word ∈ keywordTexts,
      Text.apart v.standIn.toList (word.toList ++ ['.']) = true ∧
        Text.apart v.dottedStandIn (word.toList ++ ['.']) = true := by
    decide +kernel
  exact h v (mem_all v)

theorem standIn_apart_point {text : List Char} (h : IsKeywordText text) (v : TemplateVariable) :
    Text.apart v.standIn.toList (text ++ ['.']) = true ∧
      Text.apart v.dottedStandIn (text ++ ['.']) = true := by
  have happend : (text ++ ['.']).map Char.toLower =
      (String.ofList (text.map Char.toLower)).toList ++ ['.'] := by
    rw [List.map_append, String.toList_ofList]
    rfl
  have hword := standIn_apart_keyword v _ h
  rw [← happend, ← map_toLower_standIn v, ← map_toLower_dottedStandIn v] at hword
  exact ⟨Text.apart_of_map _ hword.1, Text.apart_of_map _ hword.2⟩

theorem markStep_append_of_apart {v : TemplateVariable} {text : List Char}
    (hplain : Text.apart v.standIn.toList text = true)
    (hdotted : Text.apart v.dottedStandIn text = true) (ms : List Mark) :
    markStep (text.map .char ++ ms) v = text.map .char ++ markStep ms v := by
  have hmarks : ∀ old : List Char, Text.apart old text = true →
      Text.apart (old.map Mark.char) (text.map Mark.char) = true := by
    intro old hold
    apply Text.apart_of_map fun m : Mark => m.plain.headD ' '
    simpa [Function.comp_def, Mark.plain] using hold
  have hstarts := fun old hold ms => Text.startsNowhere_of_apart ms (hmarks old hold)
  rw [markStep, markStep]
  split
  · rw [Text.replaceAll_append _ (hstarts _ hdotted _),
      Text.replaceAll_append _ (hstarts _ hplain _)]
  · rw [Text.replaceAll_append _ (hstarts _ hplain _)]

theorem marks_keyword_append {text : List Char} (h : IsKeywordText text)
    (vars : List TemplateVariable) (rest : List Char) :
    marks vars (text ++ '.' :: rest) = (text ++ ['.']).map .char ++ marks vars rest := by
  suffices hsteps : ∀ (l : List TemplateVariable) (ms : List Mark),
      l.foldl markStep ((text ++ ['.']).map .char ++ ms) =
        (text ++ ['.']).map .char ++ l.foldl markStep ms by
    have happend : (text ++ '.' :: rest).map Mark.char =
        (text ++ ['.']).map Mark.char ++ rest.map Mark.char := by simp
    rw [marks, happend, hsteps]
    rfl
  intro l
  induction l with
  | nil => intro ms; rfl
  | cons v l ih =>
    intro ms
    have hv := standIn_apart_point h v
    rw [List.foldl_cons, markStep_append_of_apart hv.1 hv.2, ih, List.foldl_cons]

theorem standIn_not_in_keyword (v : TemplateVariable) :
    ∀ word ∈ keywordTexts, ¬ v.standIn.toList <:+: word.toList := fun word hword hin =>
  Text.not_isInfix_of_apart v.standIn_ne_nil (standIn_apart_keyword v word hword).1
    (hin.trans (List.prefix_append _ _).isInfix)

theorem wordMeasure_places (vars : List TemplateVariable) (v : TemplateVariable) :
    WordMeasure (places vars v) where
  toMeasure := measure_places vars v
  keyword h := places_eq_zero
    (not_isInfix_of_isKeywordText (map_toLower_standIn v) (standIn_not_in_keyword v) h)
  keyword_point h rest := by
    have hpoint : ∀ w : TemplateVariable, w.standIn.toList.head? ≠ some '.' := by
      intro w
      cases w <;> decide
    rw [places, places, marks_keyword_append h, marks_cons hpoint, List.countP_append]
    simp

theorem Stretch.wordMeasure {p : List Char} (hp : Stretch p) (hlower : p.map Char.toLower = p)
    (hpoint : '.' ∉ p) (hno : ∀ word ∈ keywordTexts, ¬ p <:+: word.toList) :
    WordMeasure (Text.occurrences p) where
  toMeasure := hp.measure
  keyword h := (Text.occurrences_eq_zero_iff hp.ne_nil).mpr
    (not_isInfix_of_isKeywordText hlower hno h)
  keyword_point {text} h rest := by
    have hzero := (Text.occurrences_eq_zero_iff hp.ne_nil).mpr
      (not_isInfix_of_isKeywordText hlower hno h)
    have hrest := Text.occurrences_append_cons hp.ne_nil hpoint [] rest
    rw [Text.occurrences_append_cons hp.ne_nil hpoint, hzero, Nat.zero_add]
    rw [List.nil_append] at hrest
    rw [hrest]
    exact (Nat.zero_add _).symm

end PromQL

end MetricScope
