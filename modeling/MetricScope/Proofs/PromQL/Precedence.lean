import MetricScope.Proofs.PromQL.Tree
import MetricScope.PromQL.Parser

/-!
# Which operand belongs to which operator

A tree without parentheses of its own reads back only if the operators on its edges
bind as the tree has them. The operators on the left edge are those that wait for the
first operand of the tree, the binders on the right edge those that take the last.
-/

set_option autoImplicit false

namespace MetricScope.PromQL

inductive Binder where
  | sign
  | operator (op : Operator)
  deriving DecidableEq

namespace Binder

def bindsBefore : Binder → Operator → Bool
  | sign, next => decide (next.level ≤ Operator.signLevel)
  | operator op, next => op.bindsBefore next

def Closes (b : Binder) (next : Option Operator) : Prop :=
  ∀ op, next = some op → b.bindsBefore op = true

theorem closes_none (b : Binder) : b.Closes none := by
  intro op h
  exact absurd h (by simp)

theorem closes_some {b : Binder} {op : Operator} :
    b.Closes (some op) ↔ b.bindsBefore op = true := by
  simp [Closes]

/-- Nothing takes the operand in front of an operator that binds more tightly than signs
do. -/
theorem not_bindsBefore_of_lt {op : Operator} (h : Operator.signLevel < op.level)
    (b : Binder) : b.bindsBefore op = false := by
  cases b with
  | sign => simp [bindsBefore, h]
  | operator o =>
    revert h
    cases op <;> cases o <;> decide

end Binder

namespace Expr

def leftOperators : Expr → List Operator
  | binary op _ left _ => op :: left.leftOperators
  | _ => []

def rightBinders : Expr → List Binder
  | binary op _ _ right => .operator op :: right.rightBinders
  | negated e => .sign :: e.rightBinders
  | number x => if x.isNegative then [.sign] else []
  | _ => []

/-- A tree that is one operand for every operator around it. -/
def IsOperand (e : Expr) : Prop :=
  e.leftOperators = [] ∧ e.rightBinders = []

def ClosesBefore (e : Expr) (next : Option Operator) : Prop :=
  ∀ b ∈ e.rightBinders, b.Closes next

theorem closesBefore_none (e : Expr) : e.ClosesBefore none :=
  fun b _ => b.closes_none

theorem IsOperand.closesBefore {e : Expr} (h : e.IsOperand) (next : Option Operator) :
    e.ClosesBefore next := by
  intro b hb
  rw [h.2] at hb
  exact absurd hb (by simp)

end Expr

namespace Frame

def binder? : Frame → Option Binder
  | signed _ => some .sign
  | operand _ op _ => some (.operator op)
  | paren | arguments _ _ => none

def close : Frame → Checked Expr → Checked Expr
  | signed negative, e => Expr.signed? negative e
  | operand left op matching, e => Expr.binary? op left matching e
  | paren, e | arguments _ _, e => e

def Admits (f : Frame) (operators : List Operator) : Prop :=
  ∀ b, f.binder? = some b → ∀ op ∈ operators, b.bindsBefore op = false

end Frame

def Admits : List Frame → List Operator → Prop
  | [], _ => True
  | f :: _, operators => f.Admits operators

theorem admits_nil (frames : List Frame) : Admits frames [] := by
  cases frames with
  | nil => trivial
  | cons f frames =>
    intro b _ op hop
    exact absurd hop (by simp)

theorem admits_cons {frames : List Frame} {op : Operator} {operators : List Operator} :
    Admits frames (op :: operators) ↔ Admits frames [op] ∧ Admits frames operators := by
  cases frames with
  | nil => simp [Admits]
  | cons f frames =>
    simp only [Admits, Frame.Admits, List.mem_cons, List.not_mem_nil, or_false,
      forall_eq_or_imp, forall_eq]
    constructor
    · intro h
      exact ⟨fun b hb => (h b hb).1, fun b hb => (h b hb).2⟩
    · rintro ⟨h, hs⟩ b hb
      exact ⟨h b hb, hs b hb⟩

/-- A frame that does not take its operand in front of `op` leaves it to `op`. -/
theorem admits_of_not_closes {f : Frame} {b : Binder} (hb : f.binder? = some b) {op : Operator}
    (h : ¬ b.Closes (some op)) (frames : List Frame) : Admits (f :: frames) [op] := by
  intro b' hb' o ho
  rw [hb] at hb'
  obtain rfl := Option.some.inj hb'
  obtain rfl := List.mem_singleton.mp ho
  rw [Binder.closes_some] at h
  simpa using h

namespace Parser

/-- A frame that takes its operand in front of `next` is closed. -/
theorem unwind_cons_of_closes {next : Option Operator} {f : Frame} {b : Binder}
    (hb : f.binder? = some b) (h : b.Closes next) (frames : List Frame)
    (e : Checked Expr) : unwind next (f :: frames) e = unwind next frames (f.close e) := by
  cases next with
  | none => cases f <;> first | rfl | exact absurd hb (by simp [Frame.binder?])
  | some op =>
    rw [Binder.closes_some] at h
    cases f with
    | signed negative =>
      obtain rfl : Binder.sign = b := Option.some.inj hb
      simp only [Binder.bindsBefore, decide_eq_true_eq] at h
      rw [unwind]
      simp [h, Frame.close]
    | operand left o matching =>
      obtain rfl : Binder.operator o = b := Option.some.inj hb
      simp only [Binder.bindsBefore] at h
      rw [unwind]
      simp [h, Frame.close]
    | paren | arguments _ _ => exact absurd hb (by simp [Frame.binder?])

/-- A frame that leaves its operand to `op` stays, and all frames below it. -/
theorem unwind_some_of_admits {op : Operator} {frames : List Frame}
    (h : Admits frames [op]) (e : Checked Expr) :
    unwind (some op) frames e = (frames, e) := by
  cases frames with
  | nil => rfl
  | cons f frames =>
    cases f with
    | signed negative =>
      have hb := h .sign rfl op (by simp)
      simp only [Binder.bindsBefore, decide_eq_false_iff_not] at hb
      rw [unwind]
      simp [hb]
    | operand left o matching =>
      have hb := h (.operator o) rfl op (by simp)
      simp only [Binder.bindsBefore] at hb
      rw [unwind]
      simp [hb]
    | paren | arguments _ _ => rfl

theorem unwind_of_no_binder {f : Frame} (hf : f.binder? = none) (next : Option Operator)
    (frames : List Frame) (e : Checked Expr) :
    unwind next (f :: frames) e = (f :: frames, e) := by
  cases f with
  | paren | arguments _ _ => rfl
  | signed _ | operand _ _ _ => exact absurd hf (by simp [Frame.binder?])

end Parser

end MetricScope.PromQL
