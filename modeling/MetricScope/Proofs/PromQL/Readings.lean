import MetricScope.Proofs.PromQL.Conservation
import MetricScope.Proofs.PromQL.Lexemes

/-!
# The tokens of a text in their places

What is counted in a text is counted in its tokens, and what is written for the tokens is
counted in the tree that is read from them.
-/

set_option autoImplicit false

namespace MetricScope.PromQL

def readings (text : String) : List Reading :=
  match tokenize text with
  | .ok tokens => Parser.initial.readings tokens
  | .error _ => []

theorem Parser.map_token_readings {p q : Parser} {tokens : List Token}
    (h : p.run tokens = .ok q) : (p.readings tokens).map Reading.token = tokens := by
  induction tokens generalizing p with
  | nil => rfl
  | cons t rest ih =>
    obtain ⟨next, hstep, h⟩ := exists_step_of_run_cons h
    rw [readings, hstep]
    rw [List.map_cons, ih h]

/-- What is counted in a text is counted in its readings, and what is written for them is
counted in the tree. -/
theorem weigh_readings {f : List Char → Nat} (hf : WordMeasure f)
    (hlabel : textWeight f Selector.metricLabel = 0) {text : String} (htext : '#' ∉ text.toList)
    {e : Expr} (h : Expr.parse text = .ok e) :
    f text.toList = ((readings text).map fun r => f r.token.text.toList).sum ∧
      ((readings text).map (Reading.share f)).sum = e.weight f := by
  obtain ⟨tokens, htokens, hparse⟩ := Expr.exists_tokens_of_parse h
  obtain ⟨p, hrun, -⟩ := Expr.exists_run_of_ofTokens hparse
  obtain ⟨hsilent, hcount⟩ := hf.tokenize htext htokens (Parser.isChain_mayPrecede hrun)
  have hreadings : readings text = Parser.initial.readings tokens := by
    rw [readings, htokens]
  rw [hreadings]
  refine ⟨?_, Expr.weight_of_ofTokens hf.toMeasure hlabel hsilent hparse⟩
  have htokens' := Parser.map_token_readings hrun
  rw [hcount]
  conv_lhs => rw [← htokens']
  rw [weigh, List.map_map, List.map_map]
  rfl

theorem sum_share_eq {f : List Char → Nat} {g : Reading → Nat} {l : List Reading} {n : Nat}
    (h : ∀ r ∈ l, r.share f ≠ ⊤ → r.share f = g r) (hsum : (l.map (Reading.share f)).sum = n) :
    (l.map g).sum = n := by
  induction l generalizing n with
  | nil =>
    rw [List.map_nil, List.sum_nil] at hsum ⊢
    exact_mod_cast hsum
  | cons r l ih =>
    rw [List.map_cons, List.sum_cons] at hsum
    have hr : r.share f ≠ ⊤ := by
      intro htop
      rw [htop, top_add] at hsum
      exact ENat.top_ne_natCast n hsum
    have hrest : (l.map (Reading.share f)).sum ≠ ⊤ := by
      intro htop
      rw [htop, add_top] at hsum
      exact ENat.top_ne_natCast n hsum
    obtain ⟨m, hm⟩ := ENat.ne_top_iff_exists.mp hrest
    rw [h r List.mem_cons_self hr, ← hm] at hsum
    rw [List.map_cons, List.sum_cons,
      ih (fun r hr => h r (List.mem_cons_of_mem _ hr)) hm.symm]
    exact_mod_cast hsum

end MetricScope.PromQL
