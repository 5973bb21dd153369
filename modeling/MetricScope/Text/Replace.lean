/-!
# Occurrences and replacement

Occurrences of a pattern are taken from left to right and never overlap, so a
text is cut into occurrences and the characters between them in one way only. The
items of a text need not be characters.
-/

set_option autoImplicit false

namespace MetricScope.Text

variable {α : Type} [DecidableEq α]

def occursIn (pattern : List α) : List α → Bool
  | [] => pattern.isEmpty
  | c :: rest => pattern.isPrefixOf (c :: rest) || occursIn pattern rest

def replaceAfter (old new : List α) : Nat → List α → List α
  | _, [] => []
  | skip + 1, _ :: rest => replaceAfter old new skip rest
  | 0, c :: rest =>
      if old.isPrefixOf (c :: rest) then
        new ++ replaceAfter old new (old.length - 1) rest
      else c :: replaceAfter old new 0 rest

def replaceAll (old new text : List α) : List α :=
  replaceAfter old new 0 text

@[simp] theorem replaceAll_nil (old new : List α) :
    replaceAll old new [] = [] := rfl

theorem replaceAfter_eq_drop (old new : List α) (n : Nat) (text : List α) :
    replaceAfter old new n text = replaceAll old new (text.drop n) := by
  induction n generalizing text with
  | zero => rfl
  | succ n ih =>
    cases text with
    | nil => simp [replaceAfter]
    | cons c rest => simpa [replaceAfter] using ih rest

theorem replaceAll_of_not_occurs {old : List α} (new : List α)
    {text : List α} (h : occursIn old text = false) :
    replaceAll old new text = text := by
  induction text with
  | nil => rfl
  | cons c rest ih =>
    simp only [occursIn, Bool.or_eq_false_iff] at h
    simp only [replaceAll, replaceAfter, h.1, Bool.false_eq_true, if_false]
    exact congrArg (c :: ·) (ih h.2)

end MetricScope.Text
