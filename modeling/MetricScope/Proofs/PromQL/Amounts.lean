import MetricScope.Proofs.PromQL.Adjacency
import MetricScope.Proofs.PromQL.Shares

/-!
# The characters of numbers and durations

Whatever is written for a number or a duration has letters, digits, points and minus signs
only, so no token is in it.
-/

set_option autoImplicit false

namespace MetricScope.PromQL

def isNumeric (c : Char) : Bool := c.isAlphanum || c == '.' || c == '-'

theorem isNumeric_of_mem_decimalText {whole fraction : List Char} (hw : Binary64.IsDigits whole)
    (hf : Binary64.IsDigits fraction) {c : Char} (h : c ∈ Binary64.decimalText whole fraction) :
    isNumeric c = true := by
  rcases mem_decimalText h with hc | rfl | hc
  · simp [isNumeric, isAlphanum_of_isDigit (hw c hc)]
  · rfl
  · simp [isNumeric, isAlphanum_of_isDigit (hf c hc)]

theorem isNumeric_of_mem_numberText {x : Binary64} {c : Char} (h : c ∈ (numberText x).toList) :
    isNumeric c = true := by
  have hpositional : ∀ n places, ∀ c ∈ Binary64.positional n places, isNumeric c = true := by
    intro n places c hc
    obtain ⟨fraction, hfraction, heq, -⟩ := Binary64.positional_eq n places
    rw [heq] at hc
    exact isNumeric_of_mem_decimalText (Binary64.isDigits_toDigits _) hfraction hc
  cases x with
  | nan =>
    have hnan : (numberText .nan).toList.all isNumeric = true := by decide
    exact List.all_eq_true.mp hnan c h
  | infinite negative =>
    have hinfinite : (numberText (.infinite negative)).toList.all isNumeric = true := by
      cases negative <;> decide
    exact List.all_eq_true.mp hinfinite c h
  | finite negative mantissa exponent =>
    have hsign : (if negative then ['-'] else []).all isNumeric = true := by
      cases negative <;> decide
    rw [numberText, String.toList_ofList, Binary64.digits] at h
    · dsimp only at h
      split at h
      all_goals
        rcases List.mem_append.mp h with hc | hc
        · exact List.all_eq_true.mp hsign c hc
      · obtain rfl := List.mem_singleton.mp hc
        rfl
      · exact hpositional _ _ c hc
    · simp

theorem isNumeric_of_mem_epoch {before : Bool} {milliseconds : Nat} {c : Char}
    (h : c ∈ (Instant.epoch before milliseconds).text.toList) : isNumeric c = true := by
  have hchars := Instant.epochChars_eq before milliseconds
  rw [Instant.epochChars] at hchars
  rw [hchars, Binary64.secondsText_eq] at h
  exact isNumeric_of_mem_decimalText (Binary64.isDigits_toDigits _) (Binary64.isDigits_padded _ _) h

theorem Token.isNumeric_of_mem_writtenAt {t : Token} (ht : t.isAmount = true) {place : Place}
    {written : String} (h : t.writtenAt place = .ok written) {c : Char}
    (hc : c ∈ written.toList) : isNumeric c = true := by
  have hnumber : ∀ x : Checked Binary64, x.map numberText = .ok written → isNumeric c = true := by
    intro x hx
    cases x with
    | error cause => exact absurd hx (by simp [Except.map])
    | ok x =>
      obtain rfl := Except.ok.inj hx
      exact isNumeric_of_mem_numberText hc
  have hduration : ∀ d : Checked Duration, d.map Duration.text = .ok written →
      isNumeric c = true := by
    intro d hd
    cases d with
    | error cause => exact absurd hd (by simp [Except.map])
    | ok d =>
      obtain rfl := Except.ok.inj hd
      simp [isNumeric, Duration.isAlphanum_of_mem_text hc]
  have hinstant : ∀ (before : Bool) (x : Checked Binary64), (do
      let x ← x
      let i ← Instant.ofSeconds before x
      pure i.text) = .ok written → isNumeric c = true := by
    intro before x hx
    obtain ⟨x, -, hx⟩ := bind_eq_ok_iff.mp hx
    obtain ⟨i, hi, hx⟩ := bind_eq_ok_iff.mp hx
    obtain ⟨milliseconds, rfl⟩ := Instant.exists_epoch_of_ofSeconds hi
    obtain rfl := Except.ok.inj hx
    exact isNumeric_of_mem_epoch hc
  cases t with
  | number _ | duration _ =>
    cases place with
    | scalar => exact hnumber _ h
    | length => exact hduration _ h
    | instant before => exact hinstant before _ h
  | _ => exact absurd ht (by simp [isAmount])

end MetricScope.PromQL
