import Mathlib.Data.ENat.Basic
import Mathlib.Tactic.Ring
import MetricScope.Proofs.PromQL.Parts

/-!
# Counting in what is being read

What is counted in the text of a tree is counted in its parts. While the tree is being built
the parts are values that may be faults; a fault counts as infinitely much. Building a node
keeps the count, unless it ends in a fault.
-/

set_option autoImplicit false

namespace MetricScope.PromQL

def tally {α : Type} (w : α → Nat) : Checked α → ℕ∞
  | .ok a => w a
  | .error _ => ⊤

/-- What was counted before is counted after, unless there is a fault. -/
def Kept (before after : ℕ∞) : Prop :=
  after ≠ ⊤ → before = after

section

variable {α β : Type} {a b c d : ℕ∞}

@[simp] theorem tally_ok (w : α → Nat) (a : α) : tally w (.ok a) = w a := rfl

@[simp] theorem tally_pure (w : α → Nat) (a : α) : tally w (pure a) = w a := rfl

@[simp] theorem tally_error (w : α → Nat) (halt : Halt ParseError) :
    tally w (.error halt) = ⊤ := rfl

theorem tally_map (w : β → Nat) (g : α → β) (x : Checked α) :
    tally w (x.map g) = tally (fun a => w (g a)) x := by
  cases x <;> rfl

theorem kept_of_eq (h : a = b) : Kept a b :=
  fun _ => h

theorem kept_top (a : ℕ∞) : Kept a ⊤ :=
  fun h => absurd rfl h

theorem Kept.trans (hab : Kept a b) (hbc : Kept b c) : Kept a c := by
  intro hc
  have hb := hbc hc
  rw [← hb] at hc ⊢
  exact hab hc

theorem Kept.add (hab : Kept a b) (hcd : Kept c d) : Kept (a + c) (b + d) := by
  intro h
  rw [hab fun hb => h (by rw [hb, top_add]), hcd fun hd => h (by rw [hd, add_top])]

theorem Kept.add_right (hab : Kept a b) (c : ℕ∞) : Kept (a + c) (b + c) :=
  hab.add (kept_of_eq rfl)

theorem Kept.add_left (hab : Kept a b) (c : ℕ∞) : Kept (c + a) (c + b) :=
  (kept_of_eq rfl).add hab

theorem kept_map {w : α → Nat} {w' : β → Nat} (x : Checked α) {g : α → β}
    (h : ∀ a, w a = w' (g a)) : Kept (tally w x) (tally w' (x >>= fun a => pure (g a))) := by
  cases x with
  | error cause => exact kept_top _
  | ok a => exact kept_of_eq (congrArg _ (h a))

end

section

variable (f : List Char → Nat)

def Expr.weight (e : Expr) : Nat := weigh f e.parts

def Expr.weights (es : List Expr) : Nat := (es.map (weight f)).sum

def textWeight (text : String) : Nat := f text.toList

def numberWeight (x : Binary64) : Nat := textWeight f (numberText x)

def Duration.weight (d : Duration) : Nat := textWeight f d.text

def Instant.weight (i : Instant) : Nat := weigh f (Leaf.instant i).parts

def Grouping.weight (g : Grouping) : Nat := weigh f g.labels

def VectorMatching.weight (m : VectorMatching) : Nat := weigh f (Leaf.matching m).parts

def Matcher.weight (m : Matcher) : Nat := weigh f [m.name, m.value]

def MatcherGroups.weight (g : MatcherGroups) : Nat := weigh f (Leaf.groups g).parts

end

theorem Measure.numberWeight_neg {f : List Char → Nat} (h : Measure f) (x : Binary64) :
    numberWeight f x.neg = numberWeight f x := by
  cases hx : x.isNegative with
  | true =>
    rw [numberWeight, numberWeight, textWeight, textWeight, toList_numberText_neg hx,
      h.cons (by decide)]
  | false =>
    cases hneg : x.neg.isNegative with
    | true =>
      rw [numberWeight, numberWeight, textWeight, textWeight, toList_numberText_neg hneg,
        h.cons (by decide), x.neg_neg]
    | false =>
      have hnan : x.neg = x := by
        cases x <;> simp_all [Binary64.isNegative, Binary64.neg]
      rw [hnan]

namespace Expr

variable {f : List Char → Nat}

theorem kept_checked {n : ℕ∞} {e : Expr} (h : n = e.weight f) :
    Kept n (tally (weight f) e.checked) := by
  rw [checked]
  split
  · exact kept_of_eq h
  · exact kept_top n

theorem weight_selector (s : Selector) :
    (selector s).weight f = weigh f s.metric.toList + s.groups.weight f +
      weigh f ((instantLeaves s.at?).flatMap Leaf.parts) +
      weigh f ((offsetLeaves s.offset).flatMap Leaf.parts) := by
  cases h : s.metric <;>
    simp [weight, weigh_parts, selectors, leaves, Selector.leaves, MatcherGroups.weight, h,
      Nat.add_assoc]

theorem weight_range (s : Selector) (length : Duration) :
    (range s length).weight f = (selector s).weight f + length.weight f := by
  simp only [weight, weigh_parts, selectors, leaves, Duration.weight, textWeight, Leaf.parts,
    List.flatMap_cons, weigh_append, weigh_cons, weigh_nil]
  omega

theorem weight_subquery (e : Expr) (length : Duration) (step : Option Duration)
    (offset : Option Offset) (at? : Option Instant) :
    (subquery e length step offset at?).weight f = e.weight f + length.weight f +
      weigh f (step.map Duration.text).toList +
      weigh f ((instantLeaves at?).flatMap Leaf.parts) +
      weigh f ((offsetLeaves offset).flatMap Leaf.parts) := by
  have hstep : weigh f ((step.map Leaf.duration).toList.flatMap Leaf.parts) =
      weigh f (step.map Duration.text).toList := by
    cases step <;> rfl
  simp only [weight, weigh_parts, selectors, leaves, Duration.weight, textWeight, Leaf.parts,
    List.flatMap_append, List.flatMap_cons, weigh_append, weigh_cons, weigh_nil, hstep]
  omega

theorem weight_call (g : Function) (arguments : List Expr) :
    (call g arguments).weight f = weights f arguments := by
  rw [weight, weigh_parts, selectors, leaves, weigh_parts_arguments]
  rfl

theorem weight_paren (e : Expr) : (paren e).weight f = e.weight f := rfl

theorem weight_number (x : Binary64) : (number x).weight f = numberWeight f x := by
  simp [weight, parts, selectors, leaves, Leaf.parts, Leaf.texts, numberWeight, textWeight]

theorem weight_string (text : String) : (string text).weight f = textWeight f text := by
  simp [weight, parts, selectors, leaves, Leaf.parts, Leaf.texts, textWeight]

theorem kept_number? (x : Checked Binary64) :
    Kept (tally (numberWeight f) x) (tally (weight f) (number? x)) :=
  kept_map x fun x => (weight_number x).symm

theorem kept_string? (text : Checked String) :
    Kept (tally (textWeight f) text) (tally (weight f) (string? text)) :=
  kept_map text fun text => (weight_string text).symm

theorem kept_paren? (e : Checked Expr) :
    Kept (tally (weight f) e) (tally (weight f) (paren? e)) :=
  kept_map e fun e => (weight_paren e).symm

theorem kept_selector? (metric : Option String) (groups : Checked MatcherGroups) :
    Kept (weigh f metric.toList + tally (MatcherGroups.weight f) groups)
      (tally (weight f) (selector? metric groups)) := by
  cases groups with
  | error cause => exact kept_top _
  | ok groups =>
    apply kept_checked
    rw [weight_selector]
    simp [instantLeaves, offsetLeaves]

theorem kept_metric (name : String) :
    Kept (textWeight f name) (tally (weight f) (metric name)) := by
  have h := kept_selector? (f := f) (some name) (.ok .empty)
  have hempty : MatcherGroups.empty.weight f = 0 := rfl
  rw [tally_ok, hempty] at h
  rw [metric]
  simpa [textWeight] using h

theorem kept_binary? (op : Operator) (left : Checked Expr) (matching : Checked VectorMatching)
    (right : Checked Expr) :
    Kept (tally (weight f) left + tally (VectorMatching.weight f) matching +
      tally (weight f) right) (tally (weight f) (binary? op left matching right)) := by
  cases left with
  | error cause => exact kept_top _
  | ok left =>
    cases matching with
    | error cause => exact kept_top _
    | ok matching =>
      cases right with
      | error cause => exact kept_top _
      | ok right =>
        apply kept_checked
        rw [weight, weigh_parts_binary]
        simp [weight, VectorMatching.weight]
        ring

theorem kept_call? (h : Measure f) (name : String) (arguments : Checked (List Expr)) :
    Kept (textWeight f name + tally (weights f) arguments)
      (tally (weight f) (call? name arguments)) := by
  cases hg : Function.find? name with
  | none =>
    rw [call?, hg]
    exact kept_top _
  | some g =>
    have hname : textWeight f name = 0 := by
      have heq : g.name = name := by simpa using List.find?_some hg
      rw [← heq]
      exact h.fixedWord _ (Function.name_mem_fixedWords (List.mem_of_find?_eq_some hg))
    rw [call?, hg, hname]
    cases arguments with
    | error cause => exact kept_top _
    | ok arguments =>
      apply kept_checked
      simp [weight_call]

theorem kept_aggregate? (op : Aggregator) (grouping : Checked (Option Grouping))
    (arguments : Checked (List Expr)) :
    Kept (tally (fun g => weigh f (Leaf.grouping g).parts) grouping + tally (weights f) arguments)
      (tally (weight f) (aggregate? op grouping arguments)) := by
  cases grouping with
  | error cause => exact kept_top _
  | ok grouping =>
    cases arguments with
    | error cause => exact kept_top _
    | ok arguments =>
      simp only [aggregate?, Bind.bind, Except.bind]
      split
      · exact kept_top _
      · split
        · exact kept_top _
        · split
          · apply kept_checked
            rw [weight, weigh_parts_aggregate]
            simp [weights, weight]
          · apply kept_checked
            rw [weight, weigh_parts_aggregate]
            simp [weights, weight]
          · exact kept_top _

theorem kept_signed? (h : Measure f) (negative : Bool) (e : Checked Expr) :
    Kept (tally (weight f) e) (tally (weight f) (signed? negative e)) := by
  cases e with
  | error cause => exact kept_top _
  | ok e =>
    cases negative with
    | false => exact kept_of_eq rfl
    | true =>
      simp only [signed?, Bind.bind, Except.bind, if_true]
      split
      next x =>
        apply kept_of_eq
        rw [tally_ok, tally_pure, weight_number, weight_number, h.numberWeight_neg]
      · exact kept_top _
      · exact kept_top _
      · exact kept_checked rfl

theorem kept_range? (e : Checked Expr) (length : Checked Duration) :
    Kept (tally (weight f) e + tally (Duration.weight f) length)
      (tally (weight f) (range? e length)) := by
  cases e with
  | error cause => exact kept_top _
  | ok e =>
    cases length with
    | error cause => exact kept_top _
    | ok length =>
      simp only [range?, Bind.bind, Except.bind]
      split
      · split
        · exact kept_top _
        · split
          · exact kept_top _
          · apply kept_of_eq
            simp [weight_range]
      · exact kept_top _

theorem kept_subquery? (e : Checked Expr) (length : Checked Duration)
    (step : Checked (Option Duration)) :
    Kept (tally (weight f) e + tally (Duration.weight f) length +
        tally (fun step => weigh f (step.map Duration.text).toList) step)
      (tally (weight f) (subquery? e length step)) := by
  cases e with
  | error cause => exact kept_top _
  | ok e =>
    cases length with
    | error cause => exact kept_top _
    | ok length =>
      cases step with
      | error cause => exact kept_top _
      | ok step =>
        apply kept_checked
        rw [weight_subquery]
        simp [instantLeaves, offsetLeaves]

theorem kept_offset? (e : Checked Expr) (negative : Bool) (duration : Checked Duration) :
    Kept (tally (weight f) e + tally (Duration.weight f) duration)
      (tally (weight f) (offset? e negative duration)) := by
  have hnew : weigh f ((offsetLeaves none).flatMap Leaf.parts) = 0 := rfl
  cases e with
  | error cause => exact kept_top _
  | ok e =>
    cases duration with
    | error cause => exact kept_top _
    | ok duration =>
      have hleaves : weigh f ((offsetLeaves (some ⟨negative, duration⟩)).flatMap Leaf.parts) =
          duration.weight f := by
        simp [offsetLeaves, Leaf.parts, Duration.weight, textWeight]
      simp only [offset?, Bind.bind, Except.bind]
      split
      · split
        · exact kept_top _
        next s hs =>
          have hs : s.offset = none := by simpa using hs
          apply kept_of_eq
          simp [weight_selector, hs, hnew, hleaves]
      · split
        · exact kept_top _
        next s length hs =>
          have hs : s.offset = none := by simpa using hs
          apply kept_of_eq
          simp [weight_range, weight_selector, hs, hnew, hleaves]
          ring
      · split
        · exact kept_top _
        next e length step old at? hold =>
          have hold : old = none := by simpa using hold
          apply kept_of_eq
          simp [weight_subquery, hold, hnew, hleaves]
      · exact kept_top _

theorem kept_at? (e : Checked Expr) (instant : Checked Instant) :
    Kept (tally (weight f) e + tally (Instant.weight f) instant)
      (tally (weight f) (at? e instant)) := by
  have hnew : weigh f ((instantLeaves none).flatMap Leaf.parts) = 0 := rfl
  cases e with
  | error cause => exact kept_top _
  | ok e =>
    cases instant with
    | error cause => exact kept_top _
    | ok instant =>
      have hleaves : weigh f ((instantLeaves (some instant)).flatMap Leaf.parts) =
          instant.weight f := by
        simp [instantLeaves, Instant.weight]
      simp only [at?, Bind.bind, Except.bind]
      split
      · split
        · exact kept_top _
        next s hs =>
          have hs : s.at? = none := by simpa using hs
          apply kept_of_eq
          simp [weight_selector, hs, hnew, hleaves]
          ring
      · split
        · exact kept_top _
        next s length hs =>
          have hs : s.at? = none := by simpa using hs
          apply kept_of_eq
          simp [weight_range, weight_selector, hs, hnew, hleaves]
          ring
      · split
        · exact kept_top _
        next e length step offset old hold =>
          have hold : old = none := by simpa using hold
          apply kept_of_eq
          simp [weight_subquery, hold, hnew, hleaves]
          ring
      · exact kept_top _

end Expr

end MetricScope.PromQL
