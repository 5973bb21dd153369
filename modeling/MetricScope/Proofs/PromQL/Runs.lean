import MetricScope.PromQL.Parser
import MetricScope.Proofs.Steps

/-!
# Runs of the parser

The parser over many tokens, one after the other and list after list, and what has
succeeded on the way to a tree.
-/

set_option autoImplicit false

namespace MetricScope.PromQL

namespace Parser

theorem run_append {p q : Parser} {a : List Token} (h : p.run a = .ok q) (b : List Token) :
    p.run (a ++ b) = q.run b := by
  rw [run, List.foldlM_append]
  exact congrArg (· >>= fun s => b.foldlM step s) h

theorem run_cons {p q : Parser} {t : Token} (h : p.step t = .ok q) (rest : List Token) :
    p.run (t :: rest) = q.run rest := by
  rw [run, List.foldlM_cons]
  exact congrArg (· >>= fun s => rest.foldlM step s) h

theorem run_nil (p : Parser) : p.run [] = .ok p := rfl

theorem run_singleton {p q : Parser} {t : Token} (h : p.step t = .ok q) :
    p.run [t] = .ok q := by
  rw [run_cons h, run_nil]

theorem run_append_run {p q r : Parser} {a b : List Token} (ha : p.run a = .ok q)
    (hb : q.run b = .ok r) : p.run (a ++ b) = .ok r := by
  rw [run_append ha, hb]

theorem exists_step_of_run_cons {p q : Parser} {t : Token} {rest : List Token}
    (h : p.run (t :: rest) = .ok q) : ∃ next, p.step t = .ok next ∧ next.run rest = .ok q := by
  rw [run, List.foldlM_cons] at h
  exact bind_eq_ok_iff.mp h

/-- What is complete at the end is the operand in focus, or a fault. -/
theorem operand?_of_endOperand {p : Parser} {e : Checked Expr} (h : p.endOperand = .ok e) :
    operand? p.focus = some e ∨ ∃ halt, e = .error halt := by
  have hother : (operand? p.focus).elim (.error (Halt.failed ParseError.malformed)) .ok =
      Except.ok e → operand? p.focus = some e := by
    cases operand? p.focus <;> simp
  unfold endOperand at h
  cases hf : p.focus with
  | operand => simp [hf] at h
  | offset operand phase =>
    cases phase with
    | start =>
      simp only [hf] at h
      exact .inr ⟨_, (Except.ok.inj h).symm⟩
    | signed _ => simp [hf, operand?] at h
    | complete negative duration =>
      simp only [hf] at h
      split at h
      · exact absurd h (by simp)
      · exact .inl (congrArg some (Except.ok.inj h))
  | «at» operand phase =>
    cases phase with
    | start =>
      simp only [hf] at h
      exact .inr ⟨_, (Except.ok.inj h).symm⟩
    | signed _ | bound _ | boundOpened _ => simp [hf, operand?] at h
  | _ =>
    rw [hf] at h hother
    exact .inl (hother h)

/-- At the end no frame is left around the last operand. -/
theorem exists_last_of_finish {p : Parser} {e : Expr} (h : p.finish = .ok e) :
    ∃ last, p.endOperand = .ok last ∧ unwind none p.frames last = ([], .ok e) := by
  rw [finish] at h
  obtain ⟨last, hlast, h⟩ := bind_eq_ok_iff.mp h
  rcases hunwind : unwind none p.frames last with ⟨frames, unwound⟩
  rw [hunwind] at h
  cases frames with
  | nil =>
    have hok : unwound = .ok e := h
    exact ⟨last, hlast, by rw [hunwind, hok]⟩
  | cons frame frames => exact absurd h (by simp)

end Parser

namespace Expr

theorem exists_run_of_ofTokens {tokens : List Token} {e : Expr} (h : ofTokens tokens = .ok e) :
    ∃ p, Parser.initial.run tokens = .ok p ∧ p.finish = .ok e := by
  rw [ofTokens] at h
  exact bind_eq_ok_iff.mp h

theorem exists_tokens_of_parse {text : String} {e : Expr} (h : parse text = .ok e) :
    ∃ tokens, tokenize text = .ok tokens ∧ ofTokens tokens = .ok e := by
  rw [parse] at h
  cases htokens : tokenize text with
  | error cause => simp [htokens] at h
  | ok tokens =>
    rw [htokens] at h
    exact ⟨tokens, rfl, h⟩

end Expr

end MetricScope.PromQL
