import MetricScope.Proofs.PromQL.Reading
import MetricScope.Proofs.PromQL.Soundness
import MetricScope.Proofs.PromQL.Undotting
import MetricScope.Query

/-!
# Queries that are read back

The canonical text of a query is read as a query with the same text and the same groups of
matchers, if the query is legible: every leaf is read from its text, and the text has nothing
in it that is taken for a template variable. Strings are written without escapes and some
labels, durations and times are not read from what is written, so not every query is legible.
-/

set_option autoImplicit false

namespace MetricScope

open PromQL

namespace TemplateVariable

theorem underscore_mem_of_token_eq {v w : TemplateVariable} {rest : List Char} (hne : v ≠ w)
    (h : v.token.toList = w.token.toList ++ rest) : '_' ∈ rest := by
  rcases extension_eq hne h with ⟨-, rfl⟩ | ⟨-, rfl | rfl⟩ <;> decide

/-- A text in which nothing looks like the rest of a token. -/
theorem unmixed_of_not_mem (vars : List TemplateVariable) {text : List Char}
    (hdollar : '$' ∉ text) (hunderscore : '_' ∉ text) : Unmixed vars text where
  no_token v hin := hdollar (hin.subset (by simp [token_eq]))
  no_extension _ hne h hin :=
    hunderscore (hin.subset (List.mem_append_right _ (underscore_mem_of_token_eq hne h)))

end TemplateVariable

namespace Query

/-- A query whose text is read as the query, up to the order of its matchers. -/
structure IsLegible (q : Query) : Prop where
  leaves : ∀ l ∈ q.expr.leaves, l.IsLegible
  keeps : ∀ l ∈ q.expr.leaves, l.Keeps q.vars
  unmixed : TemplateVariable.Unmixed q.vars q.expr.text.toList

theorem parse_encode {text : String} {q : Query} (h : parse text = .ok q) :
    Expr.parse (TemplateVariable.encode text).1 = .ok q.expr ∧
      q.vars = (TemplateVariable.encode text).2 := by
  rw [parse] at h
  dsimp only at h
  split at h
  next e he =>
    obtain rfl := Except.ok.inj h
    exact ⟨he, rfl⟩
  · exact absurd h (by simp)

theorem grammatical_of_parse {text : String} {q : Query} (h : parse text = .ok q) :
    q.expr.Grammatical :=
  Expr.grammatical_of_parse (parse_encode h).1

theorem vars_sublist_of_parse {text : String} {q : Query} (h : parse text = .ok q) :
    q.vars.Sublist TemplateVariable.all := by
  rw [(parse_encode h).2]
  exact TemplateVariable.vars_encodeEach_sublist _ _

section

variable {q : Query}

theorem keeps_canon (h : q.IsLegible) : ∀ l ∈ q.expr.canon.leaves, l.Keeps q.vars := by
  intro l hl
  rw [Expr.leaves_canon] at hl
  obtain ⟨leaf, hleaf, rfl⟩ := List.mem_map.mp hl
  exact (h.keeps leaf hleaf).canon

/-- What the text is once its variables are put back and encoded again. -/
theorem undotted_text (hg : q.expr.Grammatical) (h : q.IsLegible) :
    TemplateVariable.undotted q.vars q.expr.text.toList =
      q.expr.canon.chars (Leaf.writtenEpochs q.vars) := by
  rw [Expr.toList_text hg h.leaves]
  exact undotted_chars Instant.epochChars (hg.canon h.leaves) (keeps_canon h)

theorem parse_undotted (hg : q.expr.Grammatical) (h : q.IsLegible) :
    Expr.parse (String.ofList (TemplateVariable.undotted q.vars q.expr.text.toList)) =
      .ok q.expr.canon := by
  have hgrammatical := hg.canon h.leaves
  have hleaves := Expr.isWritten_leaves_canon q.vars h.leaves
  have hscan := (scans_chars hgrammatical hleaves).run_initial
  rw [Expr.parse, tokenize, String.toList_ofList, undotted_text hg h, hscan]
  exact Parser.ofTokens_tokens hgrammatical hleaves

/-- The variables that are found when the text of the query is read. -/
def foundVars (q : Query) : List TemplateVariable :=
  TemplateVariable.all.filter
    (TemplateVariable.marked (TemplateVariable.marks q.vars q.expr.text.toList))

/-- The text of a legible query is read as its canonical form. -/
theorem parse_text_eq (hg : q.expr.Grammatical) (h : q.IsLegible) :
    parse q.text = .ok ⟨q.expr.canon, q.foundVars⟩ := by
  rw [parse, text, TemplateVariable.encode, TemplateVariable.decode, String.toList_ofList,
    TemplateVariable.encodeChars_decodeChars h.unmixed]
  dsimp only
  rw [parse_undotted hg h]
  rfl

theorem parse_text (hg : q.expr.Grammatical) (hv : q.vars.Sublist TemplateVariable.all)
    (h : q.IsLegible) :
    ∃ vars, parse q.text = .ok ⟨q.expr.canon, vars⟩ ∧
      (⟨q.expr.canon, vars⟩ : Query).text = q.text := by
  refine ⟨q.foundVars, parse_text_eq hg h, ?_⟩
  rw [text, text, TemplateVariable.decode, TemplateVariable.decode, Expr.text_canon h.leaves,
    foundVars, TemplateVariable.decodeChars_marked hv]

end

theorem narrow_nil {text : String} {q : Query} (h : parse text = .ok q) :
    narrow text [] = .ok q.text := by
  rw [narrow, h]
  rfl

/-- The text of the query stands for the same groups of matchers, up to the order of the
matchers inside a group, and is its own canonical text. -/
def ReadsBack (q : Query) : Prop :=
  ∃ q', parse q.text = .ok q' ∧
    List.Forall₂ List.Perm q'.expr.matcherGroups q.expr.matcherGroups ∧
    narrow q.text [] = .ok q.text

instance (q : Query) : Decidable q.ReadsBack :=
  match h : parse q.text with
  | .error cause => .isFalse fun ⟨_, hparse, _⟩ => by simp [h] at hparse
  | .ok q' =>
    decidable_of_iff
      (List.Forall₂ List.Perm q'.expr.matcherGroups q.expr.matcherGroups ∧
        narrow q.text [] = .ok q.text)
      (by simp [ReadsBack, h])

/-- The canonical text of a legible query is read back. -/
theorem readsBack_of_isLegible {text : String} {q : Query} (hq : parse text = .ok q)
    (h : q.IsLegible) : narrow text [] = .ok q.text ∧ q.ReadsBack := by
  obtain ⟨vars, hparse, hsame⟩ :=
    parse_text (grammatical_of_parse hq) (vars_sublist_of_parse hq) h
  refine ⟨narrow_nil hq, ⟨q.expr.canon, vars⟩, hparse, q.expr.matcherGroups_canon, ?_⟩
  rw [narrow_nil hparse, hsame]

theorem exists_of_map_eq_ok {ε α β : Type} {f : α → β} {x : Except ε α} {b : β}
    (h : x.map f = .ok b) : ∃ a, x = .ok a ∧ f a = b := by
  cases x with
  | error cause => exact absurd h (by simp [Except.map])
  | ok a => exact ⟨a, rfl, Except.ok.inj h⟩

/-- A query with a variable, matchers out of order and a time. -/
theorem readsBack_rate :
    ∃ q, parse "rate(up\x7bjob=\"api\",env!=\"dev\"\x7d[$__range] @ 1.5)" = .ok q ∧
      q.IsLegible ∧
      narrow "rate(up\x7bjob=\"api\",env!=\"dev\"\x7d[$__range] @ 1.5)" [] = .ok q.text ∧
      q.ReadsBack := by
  have hread :
      (parse "rate(up\x7bjob=\"api\",env!=\"dev\"\x7d[$__range] @ 1.5)").map
          (fun q => (q.expr.leaves, q.vars, q.expr.text)) =
        .ok ([.duration ⟨425409000000000⟩,
          .groups ⟨[⟨"job", .equal, "api"⟩, ⟨"env", .notEqual, "dev"⟩], []⟩,
          .instant (.epoch false 1500)], [.range],
          "rate(up\x7benv!=\"dev\",job=\"api\"\x7d[4d22h10m9s] @ 1.500)") := by
    decide +kernel
  obtain ⟨q, hq, hparts⟩ := exists_of_map_eq_ok hread
  obtain ⟨hleaves, hvars, htext⟩ : _ ∧ _ ∧ _ := by simpa only [Prod.mk.injEq] using hparts
  have hlegible : ∀ l ∈ q.expr.leaves, l.IsLegible := by
    rw [hleaves]
    intro l hl
    simp only [List.mem_cons, List.not_mem_nil, or_false] at hl
    rcases hl with rfl | rfl | rfl
    · refine ⟨by decide, ?_⟩
      rw [Duration.CountsFit]
      decide +kernel
    · refine ⟨fun m hm => ?_, fun hne => absurd rfl hne⟩
      simp only [MatcherGroups.matchers, MatcherGroups.toList, List.flatten_cons,
        List.flatten_nil, List.append_nil, List.mem_cons, List.not_mem_nil, or_false] at hm
      rcases hm with rfl | rfl <;> exact ⟨.inl rfl, rfl⟩
    · exact Instant.isLegible_of_lt (.inr (by decide))
  have hkeeps : ∀ l ∈ q.expr.leaves, l.Keeps q.vars := by
    have hpoint : ∀ l ∈ q.expr.leaves, ∀ text ∈ l.texts, '.' ∉ text.toList := by
      rw [hleaves]
      decide
    exact fun l hl text htext => TemplateVariable.keeps_of_no_point (hpoint l hl text htext)
  have hunmixed : TemplateVariable.Unmixed q.vars q.expr.text.toList := by
    rw [htext]
    exact TemplateVariable.unmixed_of_not_mem q.vars (by decide) (by decide)
  have h : q.IsLegible := ⟨hlegible, hkeeps, hunmixed⟩
  exact ⟨q, hq, h, readsBack_of_isLegible hq h⟩

/-- Each text breaks one condition of legibility and is not read back from what is written. -/
theorem not_readsBack :
    ["m\x7ba=\"x\\\"y\"\x7d", "\"x\\\\y\"", "\x7borg=\"x\" or b=\"y\"\x7d",
      "sum by (\"inf\") (m)", "a + ignoring() group_left(x) b", "m[0.0005]", "m[1e18]",
      "m @ 13694995750172802", "\x7ba=\"$__to.000\"\x7d", "\x7ba=\"\\x24__range\"\x7d",
      "\x7ba=\"$__range\\x5fs\"\x7d"].Forall
      fun text => ∃ q, parse text = .ok q ∧ ¬ q.ReadsBack := by
  refine ⟨?_, ?_, ?_, ?_, ?_, ?_, ?_, ?_, ?_, ?_, ?_⟩
  all_goals exact ⟨_, rfl, by decide +kernel⟩

end Query

end MetricScope
