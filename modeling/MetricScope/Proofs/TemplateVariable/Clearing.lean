import MetricScope.Proofs.TemplateVariable.Marks
import MetricScope.Query

/-!
# No stand-in is left

A step of decoding leaves no stand-in of its variable. What later steps put in is tokens,
in which no stand-in starts and of which no stand-in has a part, so none is made again. A
step is therefore needed only once, and a decoded text is decoded already.
-/

set_option autoImplicit false

namespace MetricScope.TemplateVariable

open Text

theorem standIn_not_in_decodeStep (text : List Char) (v : TemplateVariable) :
    ¬ v.standIn.toList <:+: decodeStep text v :=
  not_isInfix_replaceAll v.standIn_ne_nil (token_apart_standIn v v) (standIn_apart_token v v) _

theorem standIn_isInfix_of_decodeStep {text : List Char} {v w : TemplateVariable}
    (h : w.standIn.toList <:+: decodeStep text v) : w.standIn.toList <:+: text := by
  rw [decodeStep] at h
  have hundotted := isInfix_of_isInfix_replaceAll v.standIn_ne_nil (token_apart_standIn v w)
    (standIn_apart_token w v) h
  split at hundotted
  · exact isInfix_of_isInfix_replaceAll v.dottedStandIn_ne_nil (token_apart_standIn v w)
      (standIn_apart_token w v) hundotted
  · exact hundotted

/-- A step without a stand-in changes nothing: the dotted one begins with the other. -/
theorem decodeStep_of_not_isInfix {text : List Char} {v : TemplateVariable}
    (h : ¬ v.standIn.toList <:+: text) : decodeStep text v = text := by
  have hplain : occursIn v.standIn.toList text = false := by
    rwa [← Bool.not_eq_true, occursIn_iff_isInfix]
  have hdotted : occursIn v.dottedStandIn text = false := by
    rw [← Bool.not_eq_true, occursIn_iff_isInfix, dottedStandIn_eq]
    exact fun hin => h ((List.prefix_append _ _).isInfix.trans hin)
  have hnone : replaceAll (v.standIn ++ ".000").toList v.token.toList text = text :=
    replaceAll_of_not_occurs _ hdotted
  rw [decodeStep, hnone, ite_self, replaceAll_of_not_occurs _ hplain]

section

variable {l : List TemplateVariable} {text : List Char}

theorem standIn_isInfix_of_foldl {w : TemplateVariable}
    (h : w.standIn.toList <:+: l.foldl decodeStep text) : w.standIn.toList <:+: text := by
  induction l generalizing text with
  | nil => exact h
  | cons v l ih => exact standIn_isInfix_of_decodeStep (ih h)

theorem standIn_not_in_foldl {v : TemplateVariable} (hv : v ∈ l) :
    ¬ v.standIn.toList <:+: l.foldl decodeStep text := by
  induction l generalizing text with
  | nil => exact absurd hv List.not_mem_nil
  | cons w l ih =>
    rcases List.mem_cons.mp hv with rfl | hv
    -- The step of the variable leaves none, and what later steps leave was there before.
    · exact fun h => standIn_not_in_decodeStep text v (standIn_isInfix_of_foldl h)
    · exact ih hv

theorem foldl_decodeStep_of_no_standIn (h : ∀ v ∈ l, ¬ v.standIn.toList <:+: text) :
    l.foldl decodeStep text = text := by
  induction l with
  | nil => rfl
  | cons v l ih =>
    rw [List.foldl_cons, decodeStep_of_not_isInfix (h v List.mem_cons_self)]
    exact ih fun w hw => h w (List.mem_cons_of_mem v hw)

/-- A variable without a stand-in in the text can be left out. -/
theorem foldl_decodeStep_filter {v : TemplateVariable} (h : ¬ v.standIn.toList <:+: text) :
    (l.filter fun w => !w == v).foldl decodeStep text = l.foldl decodeStep text := by
  induction l generalizing text with
  | nil => rfl
  | cons w l ih =>
    rw [List.filter_cons, List.foldl_cons]
    split
    · exact ih fun hin => h (standIn_isInfix_of_decodeStep hin)
    next hw =>
      obtain rfl : w = v := by simpa using hw
      rw [decodeStep_of_not_isInfix h]
      exact ih h

theorem foldl_decodeStep_eraseDups :
    l.eraseDups.foldl decodeStep text = l.foldl decodeStep text := by
  -- What is left behind the first variable is filtered, so the induction is on the length.
  generalize hn : l.length = n
  induction n using Nat.strongRecOn generalizing l text with
  | ind n ih =>
    cases l with
    | nil => rfl
    | cons v l =>
      have hshort : (l.filter fun w => !w == v).length < n := by
        rw [← hn, List.length_cons]
        exact Nat.lt_succ_of_le (List.length_filter_le _ l)
      rw [List.eraseDups_cons, List.foldl_cons, List.foldl_cons, ih _ hshort rfl,
        foldl_decodeStep_filter (standIn_not_in_decodeStep text v)]

end

theorem decodingOrder_eraseDups (vars : List TemplateVariable) :
    decodingOrder vars.eraseDups = (decodingOrder vars).eraseDups := by
  rw [decodingOrder_eq, decodingOrder_eq, insertionSort_eraseDups]

theorem standIn_not_in_decode {vars : List TemplateVariable} {v : TemplateVariable} (hv : v ∈ vars)
    (text : String) : ¬ v.standIn.toList <:+: (decode vars text).toList := by
  rw [decode, String.toList_ofList]
  exact standIn_not_in_foldl (mem_decodingOrder.mpr hv)

theorem decode_of_no_standIn {vars : List TemplateVariable} {text : String}
    (h : ∀ v ∈ vars, ¬ v.standIn.toList <:+: text.toList) : decode vars text = text := by
  rw [decode, decodeChars, foldl_decodeStep_of_no_standIn, String.ofList_toList]
  exact fun v hv => h v (mem_decodingOrder.mp hv)

theorem decode_eraseDups (vars : List TemplateVariable) (text : String) :
    decode vars.eraseDups text = decode vars text := by
  rw [decode, decode, decodeChars, decodingOrder_eraseDups, foldl_decodeStep_eraseDups]
  rfl

/-- A decoded text holds no stand-in of the variables that it was decoded with, and the texts
without them are those that decoding leaves as they are. So decoding twice is decoding once,
and later repeats of a variable do nothing. Of what was built, with whatever filters merged
into it, the text holds no stand-in at all. -/
theorem decode_leaves_no_standIn :
    (∀ (vars : List TemplateVariable) (text : String),
      (∀ v ∈ vars, ¬ v.standIn.toList <:+: (decode vars text).toList) ∧
      (decode vars text = text ↔ ∀ v ∈ vars, ¬ v.standIn.toList <:+: text.toList) ∧
      decode vars (decode vars text) = decode vars text ∧
      decode vars.eraseDups text = decode vars text) ∧
    ∀ (e : PromQL.Expr) (filters : List LabelFilter) (v : TemplateVariable),
      ¬ v.standIn.toList <:+: (renderExpr e).toList ∧
      ¬ v.standIn.toList <:+: ((Query.ofExpr e).mergeAll filters).text.toList := by
  refine ⟨fun vars text => ⟨fun v hv => standIn_not_in_decode hv text, ?_, ?_,
    decode_eraseDups vars text⟩, fun e filters v => ⟨?_, ?_⟩⟩
  · refine ⟨fun h v hv => ?_, decode_of_no_standIn⟩
    rw [← h]
    exact standIn_not_in_decode hv text
  · exact decode_of_no_standIn fun v hv => standIn_not_in_decode hv text
  · exact standIn_not_in_decode (mem_all v) e.text
  · exact standIn_not_in_decode (mem_all v) (e.mergeAll filters).text

/-- Stand-ins that share their ends with one another, under a list with a repeat. -/
theorem decode_leaves_no_standIn_overlapping :
    TemplateVariable.rangeFrom ∈ [TemplateVariable.project, .rangeFrom, .dashboard, .rangeFrom] ∧
    decode [.project, .rangeFrom, .dashboard, .rangeFrom]
        "1357924680135.000 __placeholder_dashboard__placeholder_project__ 13579246801357924680135" =
      "$__from $__dashboardplaceholder_project__ $__from7924680135" ∧
    ¬ TemplateVariable.rangeFrom.standIn.toList <:+:
      "$__from $__dashboardplaceholder_project__ $__from7924680135".toList := by
  have hdecoded : decode [.project, .rangeFrom, .dashboard, .rangeFrom]
      "1357924680135.000 __placeholder_dashboard__placeholder_project__ 13579246801357924680135" =
        "$__from $__dashboardplaceholder_project__ $__from7924680135" := by
    decide +kernel
  refine ⟨by decide, hdecoded, ?_⟩
  rw [← hdecoded]
  exact (decode_leaves_no_standIn.1 _ _).1 _ (by decide)

end MetricScope.TemplateVariable
