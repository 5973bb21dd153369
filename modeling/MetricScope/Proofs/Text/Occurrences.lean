import MetricScope.Proofs.Text.Replace

/-!
# Counting occurrences

The places at which a pattern starts, those that overlap included.
-/

set_option autoImplicit false

namespace MetricScope.Text

variable {α : Type} [DecidableEq α] {old : List α}

def occurrences (old : List α) : List α → Nat
  | [] => 0
  | c :: rest => (if old.isPrefixOf (c :: rest) then 1 else 0) + occurrences old rest

theorem occurrences_cons_of_no_match {c : α} {rest : List α} (h : ¬ old <+: c :: rest) :
    occurrences old (c :: rest) = occurrences old rest := by
  rw [occurrences, if_neg (mt List.isPrefixOf_iff_prefix.mp h), Nat.zero_add]

theorem occurrences_eq_zero_iff (hold : old ≠ []) {text : List α} :
    occurrences old text = 0 ↔ ¬ old <:+: text := by
  induction text with
  | nil => simp [occurrences, hold]
  | cons c rest ih =>
    rw [List.infix_cons_iff, not_or, ← ih]
    by_cases h : old <+: c :: rest
    · rw [occurrences, if_pos (List.isPrefixOf_iff_prefix.mpr h)]
      simp [h]
    · rw [occurrences_cons_of_no_match h]
      simp [h]

theorem occurrences_append_cons (hold : old ≠ []) {c : α} (hc : c ∉ old) (x y : List α) :
    occurrences old (x ++ c :: y) = occurrences old x + occurrences old y := by
  induction x with
  | nil =>
    have hp : ¬ old <+: c :: y := fun hp => by
      obtain ⟨d, tail, rfl⟩ := List.exists_cons_of_ne_nil hold
      exact hc (by simp [(List.cons_prefix_cons.mp hp).1])
    rw [List.nil_append, occurrences_cons_of_no_match hp, occurrences, Nat.zero_add]
  | cons d x ih =>
    have hd : old <+: d :: (x ++ c :: y) ↔ old <+: d :: x := by
      constructor
      · exact fun hp => prefix_of_prefix_append_cons (x := d :: x) hc hp
      · exact fun hp => hp.trans ⟨c :: y, rfl⟩
    rw [List.cons_append, occurrences, occurrences, ih]
    simp only [List.isPrefixOf_iff_prefix, hd]
    omega

end MetricScope.Text
