import Mathlib.Data.List.Chain
import MetricScope.Proofs.PromQL.Runs

/-!
# Tokens that cannot stand side by side

A name, a number and a duration are complete operands or items of a list. What is read after
one of them is an operator, a bracket or a separator, never another number or duration.
-/

set_option autoImplicit false

namespace MetricScope.PromQL

namespace Token

def isAmount : Token → Bool
  | number _ | duration _ => true
  | _ => false

/-- Tells whether no number or duration can follow the token. -/
def closes : Token → Bool
  | identifier _ | metricIdentifier _ | number _ | duration _ => true
  | _ => false

def MayPrecede (t u : Token) : Prop :=
  t.closes = true → u.isAmount = false

end Token

def Focus.Closed : Focus → Prop
  | identifier _ | .metric _ | matchers _ _ | complete _ => True
  | aggregatorLabels _ _ _ list => list.phase = .afterLabel
  | matching _ _ (.labels _ _ list) => list.phase = .afterLabel
  | matching _ _ (.groupLabels _ _ _ list) => list.phase = .afterLabel
  | matching _ _ (.groupAlone _ list) => list.phase = .afterLabel
  | brackets _ (.length _) | brackets _ (.step _ _) => True
  | offset _ (.complete _ _) => True
  | _ => False

theorem LabelList.step_closed {list : LabelList} {t : Token} (ht : t.closes = true) :
    (∃ next, list.step t = .more next ∧ next.phase = .afterLabel) ∨ list.step t = .refused := by
  obtain ⟨phase, labels⟩ := list
  cases t with
  | identifier _ | metricIdentifier _ | number _ | duration _ =>
    cases phase <;> simp [step, label?, add]
  | _ => exact absurd ht (by simp [Token.closes])

theorem LabelList.step_amount {list : LabelList} (h : list.phase = .afterLabel) {u : Token}
    (hu : u.isAmount = true) : list.step u = .refused := by
  obtain ⟨phase, labels⟩ := list
  obtain rfl : phase = .afterLabel := h
  cases u with
  | number _ | duration _ => rfl
  | _ => exact absurd hu (by simp [Token.isAmount])

theorem MatcherList.step_amount (list : MatcherList) {u : Token} (hu : u.isAmount = true) :
    list.step u = .refused := by
  obtain ⟨phase, newGroup, groups⟩ := list
  cases u with
  | number _ | duration _ =>
    cases phase <;>
      simp [step, afterBrace, afterComma, startMatcher, MatcherName.ofToken?, afterName,
        afterSymbol, endMatcher, isValue]
  | _ => exact absurd hu (by simp [Token.isAmount])

theorem MatchingPhase.step_closed {phase next : MatchingPhase} {t : Token} (ht : t.closes = true)
    (h : phase.step t = some next) (left : Checked Expr) (op : Operator) :
    Focus.Closed (.matching left op next) := by
  have hlist := fun list : LabelList => list.step_closed ht
  cases phase with
  | labels _ _ list | groupLabels _ _ _ list | groupAlone _ list =>
    rcases hlist list with ⟨more, hmore, hphase⟩ | hrefused
    · simp only [MatchingPhase.step, hmore] at h
      obtain rfl := Option.some.inj h
      exact hphase
    · simp [MatchingPhase.step, hrefused] at h
  | _ =>
    cases t with
    | identifier _ | metricIdentifier _ | number _ | duration _ =>
      exact absurd h (by simp [MatchingPhase.step])
    | _ => exact absurd ht (by simp [Token.closes])

namespace Parser

def Closes (step : Step) : Prop :=
  ∀ q, step = .ok q → q.focus.Closed

theorem closes_refuse : Closes refuse := by
  intro q h
  exact absurd h (by simp [refuse])

theorem closes_error (halt : Halt ParseError) : Closes (.error halt) := by
  intro q h
  exact absurd h (by simp)

theorem closes_ok {p : Parser} (h : p.focus.Closed) : Closes (.ok p) := by
  intro q hq
  obtain rfl := Except.ok.inj hq
  exact h

section

variable {p : Parser} {t : Token}

theorem closes_startOperand (ht : t.closes = true) : Closes (p.startOperand t) := by
  cases t with
  | identifier _ | metricIdentifier _ | number _ | duration _ => exact closes_ok trivial
  | _ => exact absurd ht (by simp [Token.closes])

theorem afterOperand_of_closes (ht : t.closes = true) (e : Checked Expr) :
    p.afterOperand e t = refuse := by
  cases t with
  | identifier _ | metricIdentifier _ | number _ | duration _ => rfl
  | _ => exact absurd ht (by simp [Token.closes])

theorem settle_of_closes (ht : t.closes = true) : p.settle t = refuse := by
  rw [settle]
  split
  · exact afterOperand_of_closes ht _
  · rfl

theorem closes_inBrackets (ht : t.closes = true) (e : Checked Expr) (phase : RangePhase) :
    Closes (p.inBrackets e phase t) := by
  cases t with
  | identifier _ | metricIdentifier _ =>
    cases phase <;> exact closes_refuse
  | number _ | duration _ =>
    cases phase with
    | start | stepStart _ => exact closes_ok trivial
    | length _ | step _ _ => exact closes_refuse
  | _ => exact absurd ht (by simp [Token.closes])

theorem closes_inOffset (ht : t.closes = true) (e : Checked Expr) (phase : OffsetPhase) :
    Closes (p.inOffset e phase t) := by
  have hsettle := settle_of_closes (p := p) ht
  unfold inOffset
  dsimp only
  cases t with
  | identifier _ | metricIdentifier _ | number _ | duration _ =>
    cases phase with
    | start | signed _ => first | exact closes_refuse | exact closes_ok trivial
    | complete _ _ =>
      dsimp only
      split
      · exact closes_error _
      · rw [hsettle]
        exact closes_refuse
  | _ => exact absurd ht (by simp [Token.closes])

theorem closes_inAt (ht : t.closes = true) (e : Checked Expr) (phase : AtPhase) :
    Closes (p.inAt e phase t) := by
  cases t with
  | identifier _ | metricIdentifier _ =>
    cases phase <;> exact closes_refuse
  | number _ | duration _ =>
    cases phase with
    | start | signed _ => exact closes_ok trivial
    | bound _ | boundOpened _ => exact closes_refuse
  | _ => exact absurd ht (by simp [Token.closes])

theorem closes_step (ht : t.closes = true) : Closes (p.step t) := by
  have hsettle : Closes (p.settle t) := by
    rw [settle_of_closes ht]
    exact closes_refuse
  have hother : ∀ u : Token, u.closes = false → t ≠ u := by
    rintro u hu rfl
    exact absurd ht (by simp [hu])
  rw [step]
  cases p.focus with
  | operand => exact closes_startOperand ht
  | firstArgument =>
    dsimp only
    split
    · exact absurd rfl (hother _ rfl)
    · exact closes_startOperand ht
  | nextArgument =>
    dsimp only
    split
    · exact absurd rfl (hother _ rfl)
    · exact absurd rfl (hother _ rfl)
    · exact closes_startOperand ht
  | identifier =>
    dsimp only
    split
    · exact absurd rfl (hother _ rfl)
    · exact absurd rfl (hother _ rfl)
    · exact hsettle
  | metric =>
    dsimp only
    split
    · exact absurd rfl (hother _ rfl)
    · exact hsettle
  | aggregator =>
    dsimp only
    split
    · exact absurd rfl (hother _ rfl)
    · exact absurd rfl (hother _ rfl)
    · exact absurd rfl (hother _ rfl)
    · exact absurd rfl (hother _ rfl)
    · exact hsettle
  | matchers _ list =>
    dsimp only
    cases list.step t with
    | more _ | done _ => exact closes_ok trivial
    | refused => exact closes_refuse
  | aggregatorLabels _ _ _ list =>
    dsimp only
    rcases list.step_closed ht with ⟨next, hnext, hphase⟩ | hrefused
    · rw [hnext]
      exact closes_ok hphase
    · rw [hrefused]
      exact closes_refuse
  | aggregatorLabelled =>
    dsimp only
    split
    · exact absurd rfl (hother _ rfl)
    · exact closes_refuse
  | aggregated =>
    dsimp only
    split
    · exact absurd rfl (hother _ rfl)
    · exact absurd rfl (hother _ rfl)
    · exact hsettle
  | matching left op phase =>
    dsimp only
    cases hnext : phase.step t with
    | some next => exact closes_ok (MatchingPhase.step_closed ht hnext left op)
    | none =>
      dsimp only
      cases phase.value? with
      | some matching => exact closes_startOperand ht
      | none => exact closes_refuse
  | brackets e phase => exact closes_inBrackets ht e phase
  | offset e phase => exact closes_inOffset ht e phase
  | «at» e phase => exact closes_inAt ht e phase
  | complete e =>
    dsimp only
    rw [afterOperand_of_closes ht]
    exact closes_refuse

theorem step_ne_ok_of_closed (h : p.focus.Closed) {u : Token} (hu : u.isAmount = true)
    (q : Parser) : p.step u ≠ .ok q := by
  have hcloses : u.closes = true := by
    cases u with
    | number _ | duration _ => rfl
    | _ => exact absurd hu (by simp [Token.isAmount])
  have hother : ∀ v : Token, v.isAmount = false → u ≠ v := by
    rintro v hv rfl
    exact absurd hu (by simp [hv])
  have hrefuse : refuse ≠ .ok q := by simp [refuse]
  have hsettle : p.settle u ≠ .ok q := by
    rw [settle_of_closes hcloses]
    exact hrefuse
  rw [step]
  cases hf : p.focus with
  | operand | firstArgument _ | nextArgument _ _ | aggregator _ _ | aggregatorLabelled _ _
  | aggregated _ _ | «at» _ _ =>
    rw [hf] at h
    exact absurd h (by simp [Focus.Closed])
  | identifier _ =>
    dsimp only
    split
    · exact absurd rfl (hother _ rfl)
    · exact absurd rfl (hother _ rfl)
    · exact hsettle
  | metric _ =>
    dsimp only
    split
    · exact absurd rfl (hother _ rfl)
    · exact hsettle
  | matchers _ list =>
    dsimp only
    rw [list.step_amount hu]
    exact hrefuse
  | aggregatorLabels _ _ _ list =>
    rw [hf] at h
    dsimp only
    rw [list.step_amount h hu]
    exact hrefuse
  | matching _ _ phase =>
    rw [hf] at h
    cases phase with
    | labels _ _ list | groupLabels _ _ _ list | groupAlone _ list =>
      have hlist := LabelList.step_amount h hu
      simp [MatchingPhase.step, hlist, MatchingPhase.value?, refuse]
    | _ => exact absurd h (by simp [Focus.Closed])
  | brackets _ phase =>
    rw [hf] at h
    cases phase with
    | length _ | step _ _ =>
      cases u with
      | number _ | duration _ => exact hrefuse
      | _ => exact absurd hu (by simp [Token.isAmount])
    | _ => exact absurd h (by simp [Focus.Closed])
  | offset _ phase =>
    rw [hf] at h
    cases phase with
    | complete _ _ =>
      dsimp only
      rw [inOffset]
      split
      · simp
      · exact hsettle
    | _ => exact absurd h (by simp [Focus.Closed])
  | complete _ =>
    dsimp only
    rw [afterOperand_of_closes hcloses]
    exact hrefuse

end

/-- Tokens that are read one after the other may stand side by side. -/
theorem isChain_mayPrecede {p q : Parser} {tokens : List Token} (h : p.run tokens = .ok q) :
    tokens.IsChain Token.MayPrecede := by
  induction tokens generalizing p with
  | nil => simp
  | cons t rest ih =>
    obtain ⟨next, hstep, h⟩ := exists_step_of_run_cons h
    cases rest with
    | nil => simp
    | cons u rest =>
      rw [List.isChain_cons_cons]
      refine ⟨fun ht => ?_, ih h⟩
      rw [← Bool.not_eq_true]
      intro hu
      obtain ⟨after, hafter, -⟩ := exists_step_of_run_cons h
      exact step_ne_ok_of_closed (closes_step ht next hstep) hu after hafter

end Parser

end MetricScope.PromQL
