import MetricScope.Proofs.PromQL.Traces
import MetricScope.Proofs.RoundTrip

/-!
# Decoding with the variables of a query

A text is decoded with the variables that were found in its query, or with all of them. Both
give one text unless the stand-in of another variable stands in it: tokens and stand-ins keep
apart, so no step makes a stand-in for a later one, and a variable without a place changes
nothing.
-/

set_option autoImplicit false

namespace MetricScope

open PromQL

namespace TemplateVariable

/-- The text holds no stand-in but those of the variables. -/
def HoldsOnly (vars : List TemplateVariable) (text : String) : Prop :=
  ∀ v, v ∉ vars → ¬ v.standIn.toList <:+: text.toList

instance (vars : List TemplateVariable) (text : String) : Decidable (HoldsOnly vars text) :=
  decidable_of_iff (∀ v ∈ all, v ∉ vars → ¬ v.standIn.toList <:+: text.toList)
    ⟨fun h v => h v v.mem_all, fun h v _ => h v⟩

/-- Every place that a text has for some variable is a place for one of the given ones. -/
theorem HoldsOnly.mem_of_marked {vars : List TemplateVariable} {text : String}
    (h : HoldsOnly vars text) {v : TemplateVariable}
    (hv : marked (marks all text.toList) v = true) : v ∈ vars := by
  obtain ⟨d, hd⟩ := marked_iff.mp hv
  by_contra hmem
  exact h v hmem (standIn_isInfix_of_mem_marks hd)

theorem decode_of_holdsOnly {vars : List TemplateVariable} {text : String}
    (hvars : vars.Sublist all) (h : HoldsOnly vars text) :
    decode vars text = decodeAll text := by
  have hmarked : ∀ v, marked (marks all text.toList) v = true → decide (v ∈ vars) = true :=
    fun v hv => decide_eq_true (h.mem_of_marked hv)
  have hown : all.filter (fun v => decide (v ∈ vars)) = vars := by
    rw [filter_eq_of_sublist hvars (all_pairwise.imp And.left) fun v _ hv => of_decide_eq_true hv]
    exact List.filter_eq_self.mpr fun v hv => decide_eq_true hv
  rw [decodeAll, decode, decode, ← decodeChars_filter hmarked, hown]

end TemplateVariable

namespace Query

open TemplateVariable

/-- What is printed of a query with its own variables and what is printed of its tree, as of
a tree that was built, agree whenever the text of the tree holds no stand-in of another
variable. -/
theorem decode_own_eq_decodeAll :
    (∀ (vars : List TemplateVariable) (text : String), vars.Sublist all →
      HoldsOnly vars text → decode vars text = decodeAll text) ∧
    (∀ query : String, (encode query).2.Sublist all) ∧
    ∀ (query : String) (q : Query) (filters : List LabelFilter), parse query = .ok q →
      HoldsOnly q.vars (q.expr.mergeAll filters).text →
      narrow query filters = .ok (renderExpr (narrowExpr q.expr filters)) ∧
        (ofExpr (q.expr.mergeAll filters)).text = renderExpr (narrowExpr q.expr filters) := by
  refine ⟨fun vars text hvars h => decode_of_holdsOnly hvars h,
    fun query => vars_encodeEach_sublist all query.toList, ?_⟩
  intro query q filters hq h
  have hvars := vars_sublist_of_parse hq
  have hown : (q.mergeAll filters).text = renderExpr (narrowExpr q.expr filters) :=
    decode_of_holdsOnly hvars h
  refine ⟨?_, text_ofExpr _⟩
  rw [narrow, hq]
  exact congrArg Except.ok hown

/-- A range and a number, of which the number is also a value that is merged. -/
theorem decode_own_eq_decodeAll_range :
    ([TemplateVariable.range, .rangeTo].Sublist all ∧
      HoldsOnly [.range, .rangeTo] "m[4d22h10m9s] @ 1468035791246.000" ∧
      decode [.range, .rangeTo] "m[4d22h10m9s] @ 1468035791246.000" =
        decodeAll "m[4d22h10m9s] @ 1468035791246.000") ∧
    ∃ q, parse "rate(m[$__range]) > $__range_s" = .ok q ∧
      HoldsOnly q.vars (q.expr.mergeAll [.equal "a" "8468972.2755"]).text ∧
      narrow "rate(m[$__range]) > $__range_s" [.equal "a" "8468972.2755"] =
        .ok (renderExpr (narrowExpr q.expr [.equal "a" "8468972.2755"])) ∧
      (ofExpr (q.expr.mergeAll [.equal "a" "8468972.2755"])).text =
        renderExpr (narrowExpr q.expr [.equal "a" "8468972.2755"]) := by
  have hread :
      (parse "rate(m[$__range]) > $__range_s").map
          (fun q => (q.vars, (q.expr.mergeAll [.equal "a" "8468972.2755"]).text)) =
        .ok ([.rangeS, .range], "rate(m\x7ba=\"8468972.2755\"\x7d[4d22h10m9s]) > 8468972.2755") := by
    decide +kernel
  obtain ⟨q, hq, hparts⟩ := exists_of_map_eq_ok hread
  obtain ⟨hvars, htext⟩ : _ ∧ _ := by simpa only [Prod.mk.injEq] using hparts
  have h : HoldsOnly q.vars (q.expr.mergeAll [.equal "a" "8468972.2755"]).text := by
    rw [hvars, htext]
    decide
  have hsub : [TemplateVariable.range, .rangeTo].Sublist all := by decide
  have hholds : HoldsOnly [.range, .rangeTo] "m[4d22h10m9s] @ 1468035791246.000" := by decide
  obtain ⟨hdecode, -, hnarrow⟩ := decode_own_eq_decodeAll
  exact ⟨⟨hsub, hholds, hdecode _ _ hsub hholds⟩, q, hq, h, hnarrow _ q _ hq h⟩

end Query

end MetricScope
