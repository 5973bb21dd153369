import MetricScope.LabelFilter
import MetricScope.PromQL.Printer
import MetricScope.Proofs.Regex.Literal

/-!
# Values that are no regular expressions

Template forms such as lists of chosen values are no regular expressions until the dashboard
fills them in. A filter that asks for a match with such a value asks for the value itself,
which it writes as it is.
-/

set_option autoImplicit false

namespace MetricScope.LabelFilter

open PromQL Regex

variable {value : String} {p : Pattern}

theorem pattern?_of_compile? (h : Pattern.compile? (Pattern.anchored value) = some p) :
    pattern? value = some p := by
  rw [pattern?, h]

theorem pattern?_of_not_compile? (h : Pattern.compile? (Pattern.anchored value) = none) :
    pattern? value = Pattern.compile? ("^" ++ Pattern.escape value ++ "$") := by
  rw [pattern?, h]

/-- A matcher with a pattern, or with the value itself where there is none. -/
theorem accepts_regexMatch (name value sample : String) :
    (LabelFilter.mk name .regexMatch value).matcher.accepts sample =
      match pattern? value with
      | some p => p.isMatch sample
      | none => value == sample := by
  rw [matcher, Matcher.accepts, op]
  cases pattern? value <;> rfl

theorem accepts_regexNotMatch (name value sample : String) :
    (LabelFilter.mk name .regexNotMatch value).matcher.accepts sample =
      !(LabelFilter.mk name .regexMatch value).matcher.accepts sample := by
  rw [accepts_regexMatch, matcher, Matcher.accepts, op]
  cases pattern? value <;> rfl

/-- Neither the escaped value nor the comparison that takes its place accepts anything else. -/
theorem accepts_regexMatch_iff (h : Pattern.compile? (Pattern.anchored value) = none)
    (name sample : String) :
    (LabelFilter.mk name .regexMatch value).matcher.accepts sample = true ↔ sample = value := by
  rw [accepts_regexMatch, pattern?_of_not_compile? h]
  cases hp : Pattern.compile? ("^" ++ Pattern.escape value ++ "$") with
  | none => exact beq_iff_eq.trans eq_comm
  | some p => exact Pattern.isMatch_of_compile?_escape hp sample

theorem text_of_pattern? (h : pattern? value = some p) (name : String) :
    (LabelFilter.mk name .regexMatch value).matcher.text =
        labelText name ++ "=~" ++ quote value ∧
      (LabelFilter.mk name .regexNotMatch value).matcher.text =
        labelText name ++ "!~" ++ quote value := by
  simp only [matcher, op, h]
  exact ⟨rfl, rfl⟩

/-- A filter for a match with a value that is no regular expression accepts that value alone,
its negation everything else, and both are written with the value as it is. Other values
are matched as regular expressions. In any case the negation accepts what the filter
rejects. -/
theorem regex_filter_accepts (name value : String) :
    let matching := (LabelFilter.mk name .regexMatch value).matcher
    let excluding := (LabelFilter.mk name .regexNotMatch value).matcher
    (Pattern.compile? (Pattern.anchored value) = none →
      (∀ sample, (matching.accepts sample = true ↔ sample = value) ∧
        (excluding.accepts sample = true ↔ sample ≠ value)) ∧
      ((Pattern.compile? ("^" ++ Pattern.escape value ++ "$")).isSome →
        matching.text = labelText name ++ "=~" ++ quote value ∧
          excluding.text = labelText name ++ "!~" ++ quote value)) ∧
    (∀ p, Pattern.compile? (Pattern.anchored value) = some p →
      ∀ sample, matching.accepts sample = p.isMatch sample) ∧
    ∀ sample, excluding.accepts sample = !matching.accepts sample := by
  intro matching excluding
  have hnegation : ∀ sample, excluding.accepts sample = !matching.accepts sample :=
    accepts_regexNotMatch name value
  refine ⟨fun h => ⟨fun sample => ?_, fun hescaped => ?_⟩, fun p hp sample => ?_, hnegation⟩
  · have hmatching := accepts_regexMatch_iff h name sample
    refine ⟨hmatching, ?_⟩
    rw [hnegation, Bool.not_eq_true', ← Bool.not_eq_true]
    exact not_congr hmatching
  · obtain ⟨p, hp⟩ := Option.isSome_iff_exists.mp hescaped
    exact text_of_pattern? ((pattern?_of_not_compile? h).trans hp) name
  · exact (accepts_regexMatch name value sample).trans (by rw [pattern?_of_compile? hp])

/-- A bracket that stays open, with a quote, a line feed, a brace and a backslash. -/
theorem regex_filter_accepts_bracket :
    let value := "[a\"\n\x7b\\"
    Pattern.compile? (Pattern.anchored value) = none ∧
    (Pattern.compile? ("^" ++ Pattern.escape value ++ "$")).isSome ∧
    (∀ sample, (LabelFilter.regex "job" value).matcher.accepts sample = true ↔ sample = value) ∧
    (LabelFilter.regex "job" value).matcher.text = "job=~\"[a\"\n\x7b\\\"" ∧
    (∃ p, Pattern.compile? (Pattern.anchored "5..") = some p ∧
      ∀ sample, (LabelFilter.regex "code" "5..").matcher.accepts sample = p.isMatch sample) ∧
    ∀ sample, (LabelFilter.mk "code" .regexNotMatch "5..").matcher.accepts sample =
      !(LabelFilter.regex "code" "5..").matcher.accepts sample := by
  intro value
  have hnone : Pattern.compile? (Pattern.anchored value) = none := by decide +kernel
  have hescaped : (Pattern.compile? ("^" ++ Pattern.escape value ++ "$")).isSome := by
    decide +kernel
  obtain ⟨hliteral, -, -⟩ := regex_filter_accepts "job" value
  obtain ⟨-, hpattern, hnegation⟩ := regex_filter_accepts "code" "5.."
  obtain ⟨p, hp⟩ : ∃ p, Pattern.compile? (Pattern.anchored "5..") = some p :=
    Option.isSome_iff_exists.mp (by decide +kernel)
  obtain ⟨haccepts, htext⟩ := hliteral hnone
  exact ⟨hnone, hescaped, fun sample => (haccepts sample).1,
    (htext hescaped).1.trans (by decide +kernel), ⟨p, hp, hpattern p hp⟩, hnegation⟩

end MetricScope.LabelFilter
