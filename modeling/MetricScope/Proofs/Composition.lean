import MetricScope.Proofs.Aggregation

/-!
# What a composed expression is read as

Composed expressions are written without parentheses, so their operators are read as they
bind and not as they were composed. Reading puts one operand after the other behind the
tree that has been read so far; an expression is read as it was composed exactly when each
operator binds its operands as the composition has them.
-/

set_option autoImplicit false

namespace MetricScope

open PromQL

namespace PromQL

namespace Operator

theorem bindsBefore_iff {left right : Operator} :
    left.bindsBefore right = true ↔
      right.level < left.level ∨ (right.level = left.level ∧ left.level ≠ 6) := by
  have hpow : left.associatesRight = false ↔ left.level ≠ 6 := by
    cases left <;> decide
  simp [bindsBefore, hpow]

theorem not_bindsBefore_iff {left right : Operator} :
    left.bindsBefore right = false ↔
      left.level < right.level ∨ (right.level = left.level ∧ left.level = 6) := by
  rw [← Bool.not_eq_true, bindsBefore_iff]
  omega

variable {a b c : Operator}

theorem bindsBefore_trans (hab : a.bindsBefore b = true) (hbc : b.bindsBefore c = true) :
    a.bindsBefore c = true := by
  rw [bindsBefore_iff] at *
  omega

theorem not_bindsBefore_trans (hab : a.bindsBefore b = false) (hbc : b.bindsBefore c = false) :
    a.bindsBefore c = false := by
  rw [not_bindsBefore_iff] at *
  omega

/-- Of two operators that bind before a third, the first may leave its operand to the second. -/
theorem bindsBefore_of_not (hab : a.bindsBefore b = false) (hac : a.bindsBefore c = true) :
    b.bindsBefore c = true := by
  rw [not_bindsBefore_iff] at hab
  rw [bindsBefore_iff] at *
  omega

/-- Only powers take an operand behind a product from it. -/
theorem eq_pow_of_not_bindsBefore (h : mul.bindsBefore a = false) : a = pow := by
  revert h
  cases a <;> decide

end Operator

namespace Expr

def operators : Expr → List Operator
  | binary op _ left right => left.operators ++ op :: right.operators
  | _ => []

def attach (op : Operator) : Expr → Expr → Expr
  | binary o m left right, e =>
      if o.bindsBefore op then binary op .plain (binary o m left right) e
      else binary o m left (attach op right e)
  | left, e => binary op .plain left e

def graft : Expr → Operator → Expr → Expr
  | binary o _ left right, op, tree => right.graft o (left.graft op tree)
  | e, op, tree => attach op tree e

/-- The tree that the text of a composed expression is read as. -/
def regrouped : Expr → Expr
  | binary op _ left right => right.graft op left.regrouped
  | e => e

section

variable {op : Operator} {tree e : Expr}

theorem attach_of_isOperand (h : tree.IsOperand) : attach op tree e = binary op .plain tree e := by
  cases tree with
  | binary o m left right => exact absurd h.1 (by simp [leftOperators])
  | _ => rfl

theorem graft_of_isOperand (h : e.IsOperand) : e.graft op tree = attach op tree e := by
  cases e with
  | binary o m left right => exact absurd h.1 (by simp [leftOperators])
  | _ => rfl

theorem operators_of_isOperand (h : e.IsOperand) : e.operators = [] := by
  cases e with
  | binary o m left right => exact absurd h.1 (by simp [leftOperators])
  | _ => rfl

theorem operators_attach : (attach op tree e).operators = tree.operators ++ op :: e.operators := by
  induction tree with
  | binary o m left right _ ih =>
    rw [attach]
    split
    · rfl
    · simp [operators, ih]
  | _ => rfl

theorem operators_graft (e : Expr) (op : Operator) (tree : Expr) :
    (e.graft op tree).operators = tree.operators ++ op :: e.operators := by
  induction e generalizing op tree with
  | binary o m left right ihl ihr => simp [graft, operators, ihl, ihr]
  | _ => exact operators_attach

theorem operators_regrouped (e : Expr) : e.regrouped.operators = e.operators := by
  induction e with
  | binary op m left right ih _ => rw [regrouped, operators_graft, ih, operators]
  | _ => rfl

theorem mem_leftOperators_attach {o : Operator} (h : o ∈ (attach op tree e).leftOperators) :
    o = op ∨ o ∈ tree.leftOperators := by
  cases tree with
  | binary p m left right =>
    rw [attach] at h
    split at h
    · exact List.mem_cons.mp h
    · exact .inr h
  | _ => exact List.mem_cons.mp h

theorem text_binary_plain (op : Operator) (left right : Expr) :
    (binary op .plain left right).text = left.text ++ " " ++ op.text ++ " " ++ right.text := by
  simp [text, VectorMatching.words, VectorMatching.plain, matchingWords, Cardinality.words,
    Text.join_cons_cons, String.append_assoc]

end

/-- A tree of plain operators over settled operands that is read as it is written. A number
stands only behind a product, or in front of the power that takes it from there. -/
inductive IsGrouped : Expr → Prop
  | operand {e : Expr} : e.IsSettled → e.IsOperand → (e.type = .scalar ∨ e.type = .vector) →
      IsGrouped e
  | node {op : Operator} {left right : Expr} : IsGrouped left → IsGrouped right →
      left.ClosesBefore (some op) → (∀ o ∈ right.leftOperators, op.bindsBefore o = false) →
      (left.type = .scalar → op = .pow) → (right.type = .scalar → op = .mul) →
      IsGrouped (binary op .plain left right)

inductive IsChain : Expr → Prop
  | operand {e : Expr} : e.IsSettled → e.IsOperand → e.type = .vector → IsChain e
  | scaled {e factor : Expr} : IsChain e → factor.IsSettled → factor.IsOperand →
      factor.type = .scalar → IsChain (binary .mul .plain e factor)
  | node {op : Operator} {left right : Expr} : IsChain left → IsChain right →
      IsChain (binary op .plain left right)

theorem type_binary_of {op : Operator} {m : VectorMatching} {left right : Expr}
    (hl : left.type = .scalar → op = .pow) (hr : right.type = .scalar → op = .mul) :
    (binary op m left right).type = .vector := by
  have hne : ¬ (left.type = .scalar ∧ right.type = .scalar) := fun h =>
    absurd ((hl h.1).symm.trans (hr h.2)) (by decide)
  rw [type, if_neg hne]

theorem checkBinary_plain {op : Operator} {left right : ValueType}
    (hl : left = .scalar ∨ left = .vector) (hr : right = .scalar ∨ right = .vector)
    (hpow : left = .scalar → op = .pow) (hmul : right = .scalar → op = .mul) :
    checkBinary op .plain left right = .ok () := by
  rcases hl with rfl | rfl
  · obtain rfl := hpow rfl
    rcases hr with rfl | rfl
    · exact absurd (hmul rfl) (by decide)
    · rfl
  · rcases hr with rfl | rfl
    · obtain rfl := hmul rfl
      rfl
    · cases op <;> rfl

namespace IsGrouped

variable {op : Operator} {tree e : Expr}

theorem type_eq (h : tree.IsGrouped) : tree.type = .scalar ∨ tree.type = .vector := by
  cases h with
  | operand _ _ ht => exact ht
  | node _ _ _ _ hl hr => exact .inr (type_binary_of hl hr)

theorem isSettled (h : tree.IsGrouped) : tree.IsSettled := by
  induction h with
  | operand h _ _ => exact h
  | @node op left right hleft hright hcloses hadmits hpow hmul ihl ihr =>
    refine isSettled_binary ihl ihr isOwnLeaf_plain ?_
    exact .binary ihl.grammatical ihr.grammatical (fun hne => absurd rfl hne) hcloses hadmits
      (checkBinary_plain hleft.type_eq hright.type_eq hpow hmul)

/-- All operators of a tree bind before an operator that follows it if those on its right
edge do. -/
theorem closesBefore_iff (h : tree.IsGrouped) :
    tree.ClosesBefore (some op) ↔ ∀ o ∈ tree.operators, o.bindsBefore op = true := by
  induction h generalizing op with
  | operand _ ho _ =>
    rw [operators_of_isOperand ho]
    exact ⟨fun _ o hmem => absurd hmem List.not_mem_nil, fun _ => ho.closesBefore _⟩
  | @node o left right _ _ hcloses hadmits _ _ ihl ihr =>
    have hroot : (binary o .plain left right).ClosesBefore (some op) ↔
        o.bindsBefore op = true ∧ right.ClosesBefore (some op) := by
      simp [ClosesBefore, rightBinders, Binder.closes_some, Binder.bindsBefore]
    rw [hroot, ihr]
    constructor
    · rintro ⟨ho, hright⟩ p hp
      rcases List.mem_append.mp hp with hp | hp
      · exact Operator.bindsBefore_trans (ihl.mp hcloses p hp) ho
      · rcases List.mem_cons.mp hp with rfl | hp
        · exact ho
        · exact hright p hp
    · intro hall
      exact ⟨hall o (by simp [operators]), fun p hp => hall p (by simp [operators, hp])⟩

/-- All operators of a tree take its operands from an operator in front of it if those on its
left edge do. -/
theorem leftOperators_iff (h : tree.IsGrouped) :
    (∀ o ∈ tree.leftOperators, op.bindsBefore o = false) ↔
      ∀ o ∈ tree.operators, op.bindsBefore o = false := by
  induction h generalizing op with
  | operand _ ho _ => rw [operators_of_isOperand ho, ho.1]
  | @node o left right _ _ _ hadmits _ _ ihl ihr =>
    constructor
    · intro hall p hp
      have ho := hall o List.mem_cons_self
      rcases List.mem_append.mp hp with hp | hp
      · exact ihl.mp (fun q hq => hall q (List.mem_cons_of_mem o hq)) p hp
      · rcases List.mem_cons.mp hp with rfl | hp
        · exact ho
        · exact Operator.not_bindsBefore_trans ho (ihr.mp hadmits p hp)
    · intro hall p hp
      rcases List.mem_cons.mp hp with rfl | hp
      · exact hall p (by simp [operators])
      · exact ihl.mpr (fun q hq => hall q (by simp [operators, hq])) p hp

theorem text_attach (h : tree.IsGrouped) :
    (attach op tree e).text = (binary op .plain tree e).text := by
  induction h with
  | operand _ ho _ => rw [attach_of_isOperand ho]
  | @node o left right _ _ _ _ _ _ _ ih =>
    rw [attach]
    split
    · rfl
    · simp only [text_binary_plain, ih, String.append_assoc]

/-- The operators stand as they bind after one more operand. -/
theorem attach (op : Operator) (h : tree.IsGrouped) (he : e.IsGrouped) (ho : e.IsOperand)
    (hpow : tree.type = .scalar → op = .pow) (hmul : e.type = .scalar → op = .mul) :
    (attach op tree e).IsGrouped ∧ (Expr.attach op tree e).type = .vector := by
  have hoperand : ∀ o ∈ e.leftOperators, op.bindsBefore o = false := by
    rw [ho.1]
    exact fun o hmem => absurd hmem List.not_mem_nil
  induction h with
  | operand hs hsingle ht =>
    rw [attach_of_isOperand hsingle]
    exact ⟨.node (.operand hs hsingle ht) he (hsingle.closesBefore _) hoperand hpow hmul,
      type_binary_of hpow hmul⟩
  | @node o left right hleft hright hcloses hadmits hl hr _ ih =>
    rw [Expr.attach]
    split
    next hbefore =>
      have htree := node hleft hright hcloses hadmits hl hr
      have htree' : (binary o .plain left right).ClosesBefore (some op) := by
        rw [htree.closesBefore_iff]
        intro p hp
        rcases List.mem_append.mp hp with hp | hp
        · exact Operator.bindsBefore_trans (hleft.closesBefore_iff.mp hcloses p hp) hbefore
        · rcases List.mem_cons.mp hp with rfl | hp
          · exact hbefore
          · exact Operator.bindsBefore_of_not (hright.leftOperators_iff.mp hadmits p hp) hbefore
      exact ⟨.node htree he htree' hoperand hpow hmul, type_binary_of hpow hmul⟩
    next hbefore =>
      rw [Bool.not_eq_true] at hbefore
      have hscalar : right.type = .scalar → op = .pow := fun ht =>
        Operator.eq_pow_of_not_bindsBefore (hr ht ▸ hbefore)
      obtain ⟨hgrouped, htype⟩ := ih hscalar
      have hvector : (Expr.attach op right e).type = .scalar → o = .mul := fun ht =>
        absurd (htype.symm.trans ht) (by decide)
      refine ⟨.node hleft hgrouped hcloses ?_ hl hvector, type_binary_of hl hvector⟩
      intro p hp
      rcases mem_leftOperators_attach hp with rfl | hp
      · exact hbefore
      · exact hadmits p hp

end IsGrouped

namespace IsChain

variable {op : Operator} {tree e : Expr}

/-- The operators stand as they bind when the operands of a chain follow one by one. -/
theorem graft (op : Operator) (he : e.IsChain) (h : tree.IsGrouped) (ht : tree.type = .vector) :
    (e.graft op tree).IsGrouped ∧ (e.graft op tree).type = .vector ∧
      (e.graft op tree).text = (binary op .plain tree e).text := by
  have hvector {tree' : Expr} {o : Operator} (ht : tree'.type = .vector) :
      tree'.type = .scalar → o = .pow := fun hs => absurd (ht.symm.trans hs) (by decide)
  induction he generalizing op tree with
  | operand hs ho hv =>
    rw [graft_of_isOperand ho]
    obtain ⟨hgrouped, htype⟩ := h.attach op (.operand hs ho (.inr hv)) ho (hvector ht)
      fun hs => absurd (hv.symm.trans hs) (by decide)
    exact ⟨hgrouped, htype, h.text_attach⟩
  | @scaled e factor _ hs ho hscalar ih =>
    obtain ⟨hgrouped, htype, htext⟩ := ih op h ht
    obtain ⟨hattached, hattachedType⟩ := hgrouped.attach .mul
      (.operand hs ho (.inl hscalar)) ho (hvector htype) fun _ => rfl
    rw [Expr.graft, graft_of_isOperand ho]
    refine ⟨hattached, hattachedType, ?_⟩
    rw [hgrouped.text_attach]
    simp only [text_binary_plain, htext, String.append_assoc]
  | @node o left right _ _ ihl ihr =>
    obtain ⟨hgrouped, htype, htext⟩ := ihl op h ht
    obtain ⟨hgrouped', htype', htext'⟩ := ihr o hgrouped htype
    rw [Expr.graft]
    refine ⟨hgrouped', htype', ?_⟩
    rw [htext']
    simp only [text_binary_plain, htext, String.append_assoc]

/-- The regrouped chain has the same text, and its operators stand as they bind. -/
theorem regrouped (h : e.IsChain) :
    e.regrouped.IsGrouped ∧ e.regrouped.type = .vector ∧ e.regrouped.text = e.text := by
  induction h with
  | @operand e hs ho ht =>
    have hself : e.regrouped = e := by
      cases e with
      | binary o m left right => exact absurd ho.1 (by simp [leftOperators])
      | _ => rfl
    rw [hself]
    exact ⟨.operand hs ho (.inr ht), ht, rfl⟩
  | @scaled e factor _ hs ho hscalar ih =>
    obtain ⟨hgrouped, htype, htext⟩ := ih
    obtain ⟨hattached, hattachedType⟩ := hgrouped.attach .mul
      (.operand hs ho (.inl hscalar)) ho (fun hs => absurd (htype.symm.trans hs) (by decide))
      fun _ => rfl
    rw [Expr.regrouped, graft_of_isOperand ho]
    refine ⟨hattached, hattachedType, ?_⟩
    rw [hgrouped.text_attach]
    simp only [text_binary_plain, htext]
  | @node op left right _ hright ihl _ =>
    obtain ⟨hgrouped, htype, htext⟩ := ihl
    obtain ⟨hgrouped', htype', htext'⟩ := hright.graft op hgrouped htype
    rw [Expr.regrouped]
    refine ⟨hgrouped', htype', ?_⟩
    rw [htext']
    simp only [text_binary_plain, htext]

end IsChain

/-- Trees that are equal up to the order of the matchers inside a group. -/
def SameTree (a b : Expr) : Prop :=
  a.withoutMatchers = b.withoutMatchers ∧
    List.Forall₂ (fun s t : Selector =>
      List.Forall₂ List.Perm s.groups.toList t.groups.toList) a.selectors b.selectors

theorem SameTree.refl (e : Expr) : SameTree e e :=
  ⟨rfl, List.forall₂_same.mpr fun _ _ => List.forall₂_same.mpr fun ms _ => List.Perm.refl ms⟩

theorem leftOperators_mapSelectors (f : Selector → Selector) (e : Expr) :
    (e.mapSelectors f).leftOperators = e.leftOperators := by
  induction e with
  | binary op m left right ih _ => simp [mapSelectors, leftOperators, ih]
  | _ => rfl

theorem rightBinders_mapSelectors (f : Selector → Selector) (e : Expr) :
    (e.mapSelectors f).rightBinders = e.rightBinders := by
  induction e with
  | binary op m left right _ ih => simp [mapSelectors, rightBinders, ih]
  | negated e ih => simp [mapSelectors, rightBinders, ih]
  | _ => rfl

variable {a b : Expr}

theorem SameTree.leftOperators (h : SameTree a b) : a.leftOperators = b.leftOperators := by
  rw [← leftOperators_mapSelectors Selector.withoutMatchers, ← withoutMatchers, h.1,
    withoutMatchers, leftOperators_mapSelectors]

theorem SameTree.rightBinders (h : SameTree a b) : a.rightBinders = b.rightBinders := by
  rw [← rightBinders_mapSelectors Selector.withoutMatchers, ← withoutMatchers, h.1,
    withoutMatchers, rightBinders_mapSelectors]

theorem leftOperators_canon (e : Expr) : e.canon.leftOperators = e.leftOperators := by
  rw [canon_eq_mapLeaves, leftOperators_mapLeaves]

theorem rightBinders_canon (e : Expr) : e.canon.rightBinders = e.rightBinders := by
  rw [canon_eq_mapLeaves, rightBinders_mapLeaves]

end Expr

end PromQL

namespace Aggregation

open PromQL.Expr (IsChain SameTree)

/-- Aggregations and ratios, and what plain operators compose of them. -/
inductive IsComposed : Expr → Prop
  | aggregation {e : Expr} : IsAggregation e → IsComposed e
  | ratio {numerator denominator : RateTerm} : numerator.IsReadable → denominator.IsReadable →
      IsComposed (errorCaseRatio numerator denominator)
  | percentage {numerator denominator : RateTerm} : numerator.IsReadable →
      denominator.IsReadable → IsComposed (errorCasePercentage numerator denominator)
  | binary {op : Operator} {left right : Expr} : IsComposed left → IsComposed right →
      IsComposed (binary op left right)

theorem IsAggregation.isChain {e : Expr} (h : IsAggregation e) : e.IsChain := by
  obtain ⟨hsettled, ht, ho⟩ := h.isSettled
  exact .operand hsettled ho ht

theorem IsComposed.isChain {e : Expr} (h : IsComposed e) : e.IsChain := by
  induction h with
  | aggregation h => exact h.isChain
  | ratio hn hd => exact .node hn.isAggregation.isChain hd.isAggregation.isChain
  | percentage hn hd =>
    exact .scaled (.node hn.isAggregation.isChain hd.isAggregation.isChain) isSettled_hundred
      ⟨rfl, rfl⟩ rfl
  | binary _ _ ihl ihr => exact .node ihl ihr

/-- A text is read as the canonical form of a settled tree that has it. -/
theorem parse_renderExpr {e tree : Expr} (h : tree.IsSettled) (htext : tree.text = e.text) :
    ∃ vars, Query.parse (renderExpr e) = .ok ⟨tree.canon, vars⟩ := by
  have hparse := Query.parse_text_eq (q := Query.ofExpr tree) h.grammatical
    (h.clear.isLegible h.grammatical)
  rw [text_ofExpr, renderExpr, htext] at hparse
  exact ⟨_, hparse⟩

/-- What is composed of two expressions is always read. It is read as its root operator
between the expressions exactly when all operators of the left one bind before the root and
the root binds before none of the right one. -/
theorem parse_binary_iff {op : Operator} {left right : Expr} (hleft : IsComposed left)
    (hright : IsComposed right) :
    ∃ q l r, Query.parse (renderExpr (binary op left right)) = .ok q ∧
      Query.parse (renderExpr left) = .ok l ∧ Query.parse (renderExpr right) = .ok r ∧
      ((∃ m a b, q.expr = .binary op m a b ∧ SameTree a l.expr ∧ SameTree b r.expr) ↔
        (∀ o ∈ left.operators, o.bindsBefore op = true) ∧
          ∀ o ∈ right.operators, op.bindsBefore o = false) := by
  obtain ⟨hl, hlt, hltext⟩ := hleft.isChain.regrouped
  obtain ⟨hr, hrt, hrtext⟩ := hright.isChain.regrouped
  have hcomposed : IsComposed (binary op left right) := .binary hleft hright
  obtain ⟨hq, -, hqtext⟩ := hcomposed.isChain.regrouped
  obtain ⟨lvars, hlparse⟩ := parse_renderExpr hl.isSettled hltext
  obtain ⟨rvars, hrparse⟩ := parse_renderExpr hr.isSettled hrtext
  obtain ⟨vars, hparse⟩ := parse_renderExpr hq.isSettled hqtext
  refine ⟨_, _, _, hparse, hlparse, hrparse, ?_⟩
  rw [← left.operators_regrouped, ← right.operators_regrouped, ← hl.closesBefore_iff,
    ← hr.leftOperators_iff]
  constructor
  · rintro ⟨m, a, b, hroot, ha, hb⟩
    have hgrammatical := Query.grammatical_of_parse hparse
    rw [hroot] at hgrammatical
    cases hgrammatical with
    | binary _ _ _ hcloses hadmits _ =>
      rw [Expr.ClosesBefore, ha.rightBinders, Expr.rightBinders_canon] at hcloses
      rw [hb.leftOperators, Expr.leftOperators_canon] at hadmits
      exact ⟨hcloses, hadmits⟩
  · rintro ⟨hcloses, hadmits⟩
    have hnode : (Expr.binary op .plain left.regrouped right.regrouped).IsGrouped :=
      .node hl hr hcloses hadmits (fun hs => absurd (hlt.symm.trans hs) (by decide))
        fun hs => absurd (hrt.symm.trans hs) (by decide)
    have htext : (Expr.binary op .plain left.regrouped right.regrouped).text =
        (binary op left right).text := by
      rw [binary, Expr.text_binary_plain, Expr.text_binary_plain, hltext, hrtext]
    obtain ⟨vars', hparse'⟩ := parse_renderExpr hnode.isSettled htext
    obtain heq := Except.ok.inj (hparse.symm.trans hparse')
    rw [congrArg Query.expr heq]
    exact ⟨_, _, _, rfl, .refl _, .refl _⟩

theorem isComposed_sumBy {metric : String}
    (h : (⟨metric, ["job"], []⟩ : RateTerm).IsReadable) :
    IsComposed (sumBy metric ["job"] []) :=
  .aggregation ⟨sumBy, by simp [aggregations], _, h, rfl⟩

/-- A percentage is taken from a rate as it is composed. -/
theorem parse_binary_iff_percentage :
    let errors : RateTerm := ⟨"errors_total", ["job"], [.regex "code" "5.."]⟩
    let all : RateTerm := ⟨"requests_total", ["job"], []⟩
    IsComposed (errorCasePercentage errors all) ∧ IsComposed (sumBy "limit" ["job"] []) ∧
    ∃ q l r,
      Query.parse (renderExpr (binary .sub (errorCasePercentage errors all)
        (sumBy "limit" ["job"] []))) = .ok q ∧
      Query.parse (renderExpr (errorCasePercentage errors all)) = .ok l ∧
      Query.parse (renderExpr (sumBy "limit" ["job"] [])) = .ok r ∧
      ((∃ m a b, q.expr = .binary .sub m a b ∧ SameTree a l.expr ∧ SameTree b r.expr) ↔
        (∀ o ∈ (errorCasePercentage errors all).operators, o.bindsBefore .sub = true) ∧
          ∀ o ∈ (sumBy "limit" ["job"] []).operators, Operator.sub.bindsBefore o = false) := by
  intro errors all
  have hleft : IsComposed (errorCasePercentage errors all) :=
    .percentage (by decide +kernel) (by decide +kernel)
  have hright : IsComposed (sumBy "limit" ["job"] []) := isComposed_sumBy (by decide +kernel)
  exact ⟨hleft, hright, parse_binary_iff hleft hright⟩

/-- A sum that is composed with a product is read as a sum. -/
theorem parse_sum_times :
    IsComposed (binary .add (sumBy "a" ["job"] []) (sumBy "b" ["job"] [])) ∧
    IsComposed (sumBy "c" ["job"] []) ∧
    ∃ q, Query.parse (renderExpr (binary .mul
        (binary .add (sumBy "a" ["job"] []) (sumBy "b" ["job"] []))
        (sumBy "c" ["job"] []))) = .ok q ∧
      ∀ m left right, q.expr ≠ .binary .mul m left right := by
  have hread : (Query.parse (renderExpr (binary .mul
        (binary .add (sumBy "a" ["job"] []) (sumBy "b" ["job"] []))
        (sumBy "c" ["job"] [])))).map (fun q => q.expr.leftOperators) = .ok [.add] := by
    decide +kernel
  obtain ⟨q, hq, hroot⟩ := Query.exists_of_map_eq_ok hread
  refine ⟨.binary (isComposed_sumBy ?_) (isComposed_sumBy ?_), isComposed_sumBy ?_, q, hq, ?_⟩
  · decide +kernel
  · decide +kernel
  · decide +kernel
  · intro m left right heq
    rw [heq, Expr.leftOperators] at hroot
    exact absurd (List.head_eq_of_cons_eq hroot) (by decide)

end Aggregation

end MetricScope
