import MetricScope.Proofs.PromQL.Grammar
import MetricScope.Proofs.PromQL.Runs

/-!
# Lists of labels and of matchers are read as they are written

Both lists are read token by token. What the parser does with the result does not
matter until the closing token, so labels are read alike in all their places.
-/

set_option autoImplicit false

namespace MetricScope.PromQL

theorem LabelList.step_label {t : Token} {name : String} (h : label? t = some (.ok name))
    {phase : LabelPhase} (hphase : phase = .first ∨ phase = .afterComma)
    (read : List String) :
    step ⟨phase, .ok read⟩ t = .more ⟨.afterLabel, .ok (read ++ [name])⟩ := by
  have hclose : t ≠ .closeParen := by
    rintro rfl
    exact absurd h (by simp [label?])
  rcases hphase with rfl | rfl <;> simp [step, h, add, bind, Except.bind, pure, Except.pure]

namespace Parser

section

variable (host : LabelList → Parser) (finished : Checked (List String) → Parser)

/-- The labels that are left are put behind those that were read. -/
theorem run_restOfLabels
    (hmore : ∀ list t next, list.step t = .more next → (host list).step t = .ok (host next))
    (hdone : ∀ list t names, list.step t = .done names →
      (host list).step t = .ok (finished names))
    {rest : List String} (h : ∀ name ∈ rest, IsLabel name) (read : List String)
    {phase : LabelPhase} (hphase : phase = .first ∨ phase = .afterComma) :
    (host ⟨phase, .ok read⟩).run
      ([Token.comma].intercalate (rest.map fun name => [labelToken name]) ++ [.closeParen]) =
        .ok (finished (.ok (read ++ rest))) := by
  induction rest generalizing read phase with
  | nil =>
    have hclose : LabelList.step ⟨phase, .ok read⟩ .closeParen = .done (.ok read) := by
      rcases hphase with rfl | rfl <;> rfl
    rw [List.map_nil, List.intercalate_nil, List.nil_append, List.append_nil]
    exact run_singleton (hdone _ _ _ hclose)
  | cons name rest ih =>
    have hlabel := (h name List.mem_cons_self).label
    have hstep := hmore _ _ _ (LabelList.step_label hlabel hphase read)
    cases rest with
    | nil =>
      have hclose : LabelList.step ⟨.afterLabel, .ok (read ++ [name])⟩ .closeParen =
          .done (.ok (read ++ [name])) := rfl
      rw [List.map_cons, List.map_nil, List.intercalate_singleton, List.cons_append,
        run_cons hstep]
      exact run_singleton (hdone _ _ _ hclose)
    | cons next rest =>
      have hcomma : LabelList.step ⟨.afterLabel, .ok (read ++ [name])⟩ .comma =
          .more ⟨.afterComma, .ok (read ++ [name])⟩ := rfl
      have htail := ih (fun n hn => h n (List.mem_cons_of_mem name hn)) (read ++ [name])
        (.inr rfl)
      rw [List.map_cons, List.map_cons, List.intercalate_cons_cons, List.append_assoc,
        List.append_assoc, List.cons_append, run_cons hstep, List.nil_append,
        List.cons_append, run_cons (hmore _ _ _ hcomma), List.nil_append]
      rw [List.map_cons, List.append_assoc] at htail
      exact htail

/-- A list of labels is read in the same way wherever it stands. -/
theorem run_labels
    (hmore : ∀ list t next, list.step t = .more next → (host list).step t = .ok (host next))
    (hdone : ∀ list t names, list.step t = .done names →
      (host list).step t = .ok (finished names))
    {opening : Parser} (hopen : opening.step .openParen = .ok (host .opened))
    {labels : List String} (h : ∀ name ∈ labels, IsLabel name) :
    opening.run (labelsTokens labels) = .ok (finished (.ok labels)) := by
  rw [labelsTokens, List.cons_append, run_cons hopen]
  exact run_restOfLabels host finished hmore hdone h [] (.inl rfl)

end

end Parser

def MatcherGroups.add (g : MatcherGroups) (newGroup : Bool) (m : Matcher) : MatcherGroups :=
  if newGroup then g.pushGroup m else g.push m

namespace MatcherGroups

theorem foldl_push_first (ms first : List Matcher) :
    ms.foldl push ⟨first, []⟩ = ⟨first ++ ms, []⟩ := by
  induction ms generalizing first with
  | nil => simp
  | cons m ms ih => simp [push, ih]

theorem foldl_push_last (ms first last : List Matcher) (others : List (List Matcher)) :
    ms.foldl push ⟨first, others ++ [last]⟩ = ⟨first, others ++ [last ++ ms]⟩ := by
  induction ms generalizing last with
  | nil => simp
  | cons m ms ih => simp [push, ih]

def pushAll (g : MatcherGroups) : List Matcher → MatcherGroups
  | [] => g
  | m :: ms => ms.foldl push (g.pushGroup m)

theorem foldl_pushAll {groups : List (List Matcher)} (h : ∀ ms ∈ groups, ms ≠ [])
    (first : List Matcher) (others : List (List Matcher)) :
    groups.foldl pushAll ⟨first, others⟩ = ⟨first, others ++ groups⟩ := by
  induction groups generalizing others with
  | nil => simp
  | cons ms groups ih =>
    obtain ⟨m, ms, rfl⟩ := List.exists_cons_of_ne_nil (h ms List.mem_cons_self)
    rw [List.foldl_cons, pushAll, pushGroup, foldl_push_last,
      ih fun ms hms => h ms (List.mem_cons_of_mem _ hms)]
    simp

end MatcherGroups

namespace Parser

/-- The last matcher of the list is complete, and with it the list holds `g`. -/
def HoldsMatchers (list : MatcherList) (g : MatcherGroups) : Prop :=
  ∃ m newGroup groups, list = ⟨.complete (.ok m), newGroup, .ok groups⟩ ∧
    groups.add newGroup m = g

variable (frames : List Frame) (metric : Option String)

def inMatchers (list : MatcherList) : Parser := ⟨frames, .matchers metric list⟩

theorem step_matchers {list next : MatcherList} {t : Token}
    (h : list.step t = .more next) :
    (inMatchers frames metric list).step t = .ok (inMatchers frames metric next) := by
  simp [inMatchers, step, h, withFocus]

theorem unquoteFrom_plain {text : List Char} (h : text.all Lexer.isPlain = true) :
    Literal.unquoteFrom '"' .plain text = some text := by
  induction text with
  | nil => rfl
  | cons c rest ih =>
    rw [List.all_cons, Bool.and_eq_true] at h
    have hc := h.1
    simp only [Lexer.isPlain, Bool.and_eq_true, bne_iff_ne] at hc
    simp [Literal.unquoteFrom, hc, ih h.2]

theorem unquote_plain {text : String} (h : Plain text) :
    Literal.unquote '"' text = .ok text := by
  simp [Literal.unquote, unquoteFrom_plain h]

theorem run_matcher {m : Matcher} (hread : m.IsRead) (h : m.IsWritten)
    {phase : MatcherPhase}
    (hphase : phase = .first ∨ phase = .afterComma ∨ phase = .afterAlternative)
    (newGroup : Bool) (groups : MatcherGroups) :
    (inMatchers frames metric ⟨phase, newGroup, .ok groups⟩).run m.tokens =
      .ok (inMatchers frames metric ⟨.complete (.ok m), newGroup, .ok groups⟩) := by
  have hname : ∃ name : MatcherName, name.read = .ok m.name ∧
      MatcherList.step ⟨phase, newGroup, .ok groups⟩ (Matcher.nameToken m.name) =
        .more ⟨.named name, newGroup, .ok groups⟩ := by
    rw [Matcher.nameToken]
    split
    · refine ⟨.identifier m.name, rfl, ?_⟩
      rcases hphase with rfl | rfl | rfl <;> rfl
    next hbare =>
      refine ⟨.string '"' m.name, unquote_plain (h.name.resolve_left hbare), ?_⟩
      rcases hphase with rfl | rfl | rfl <;> rfl
  obtain ⟨name, hname, hfirst⟩ := hname
  have hsymbol : MatcherList.step ⟨.named name, newGroup, .ok groups⟩
      (.matching m.op.symbol) = .more ⟨.symbol name m.op.symbol, newGroup, .ok groups⟩ := rfl
  have hmatcher : MatcherList.matcher name m.op.symbol '"' m.value = .ok m := by
    rw [MatcherList.matcher, hname, unquote_plain h.value]
    exact hread
  have hvalue : MatcherList.step ⟨.symbol name m.op.symbol, newGroup, .ok groups⟩
      (.string '"' m.value) = .more ⟨.complete (.ok m), newGroup, .ok groups⟩ := by
    rw [← hmatcher]
    rfl
  rw [Matcher.tokens, run_cons (step_matchers frames metric hfirst),
    run_cons (step_matchers frames metric hsymbol)]
  exact run_singleton (step_matchers frames metric hvalue)

theorem run_nextMatcher {list : MatcherList} {g : MatcherGroups} (hg : HoldsMatchers list g)
    {m : Matcher} (hread : m.IsRead) (h : m.IsWritten) (newGroup : Bool) :
    ∃ next, (inMatchers frames metric list).run
        ((if newGroup then Token.alternative else .comma) :: m.tokens) =
          .ok (inMatchers frames metric next) ∧ HoldsMatchers next (g.add newGroup m) := by
  obtain ⟨last, old, groups, rfl, rfl⟩ := hg
  refine ⟨⟨.complete (.ok m), newGroup, .ok (groups.add old last)⟩, ?_,
    m, newGroup, groups.add old last, rfl, rfl⟩
  cases newGroup with
  | true =>
    have hstep : MatcherList.step ⟨.complete (.ok last), old, .ok groups⟩ .alternative =
        .more ⟨.afterAlternative, true, .ok (groups.add old last)⟩ := rfl
    rw [if_pos rfl, run_cons (step_matchers frames metric hstep)]
    exact run_matcher frames metric hread h (.inr (.inr rfl)) true _
  | false =>
    have hstep : MatcherList.step ⟨.complete (.ok last), old, .ok groups⟩ .comma =
        .more ⟨.afterComma, false, .ok (groups.add old last)⟩ := rfl
    rw [if_neg (by decide), run_cons (step_matchers frames metric hstep)]
    exact run_matcher frames metric hread h (.inr (.inl rfl)) false _

theorem run_moreMatchers {ms : List Matcher} (hread : ∀ m ∈ ms, m.IsRead)
    (h : ∀ m ∈ ms, m.IsWritten) {list : MatcherList} {g : MatcherGroups}
    (hg : HoldsMatchers list g) :
    ∃ next, (inMatchers frames metric list).run (ms.flatMap fun m => .comma :: m.tokens) =
        .ok (inMatchers frames metric next) ∧
      HoldsMatchers next (ms.foldl MatcherGroups.push g) := by
  induction ms generalizing list g with
  | nil => exact ⟨list, rfl, hg⟩
  | cons m ms ih =>
    obtain ⟨middle, hrun, hmiddle⟩ := run_nextMatcher frames metric hg
      (hread m List.mem_cons_self) (h m List.mem_cons_self) false
    obtain ⟨next, hrest, hnext⟩ := ih (fun n hn => hread n (List.mem_cons_of_mem m hn))
      (fun n hn => h n (List.mem_cons_of_mem m hn)) hmiddle
    exact ⟨next, run_append_run hrun hrest, hnext⟩

theorem run_moreGroups {gs : List (List Matcher)} (hne : ∀ ms ∈ gs, ms ≠ [])
    (hread : ∀ ms ∈ gs, ∀ m ∈ ms, m.IsRead) (h : ∀ ms ∈ gs, ∀ m ∈ ms, m.IsWritten)
    {list : MatcherList} {g : MatcherGroups} (hg : HoldsMatchers list g) :
    ∃ next, (inMatchers frames metric list).run
        (gs.flatMap fun ms => .alternative :: [Token.comma].intercalate (ms.map Matcher.tokens)) =
          .ok (inMatchers frames metric next) ∧
      HoldsMatchers next (gs.foldl MatcherGroups.pushAll g) := by
  induction gs generalizing list g with
  | nil => exact ⟨list, rfl, hg⟩
  | cons ms gs ih =>
    have hmread := hread ms List.mem_cons_self
    have hmh := h ms List.mem_cons_self
    obtain ⟨m, ms, rfl⟩ := List.exists_cons_of_ne_nil (hne ms List.mem_cons_self)
    obtain ⟨first, hfirst, hholds⟩ := run_nextMatcher frames metric hg
      (hmread m List.mem_cons_self) (hmh m List.mem_cons_self) true
    obtain ⟨middle, hmiddle, hholds⟩ := run_moreMatchers frames metric
      (fun n hn => hmread n (List.mem_cons_of_mem m hn))
      (fun n hn => hmh n (List.mem_cons_of_mem m hn)) hholds
    obtain ⟨next, hnext, hholds⟩ := ih (fun ms hms => hne ms (List.mem_cons_of_mem _ hms))
      (fun ms hms => hread ms (List.mem_cons_of_mem _ hms))
      (fun ms hms => h ms (List.mem_cons_of_mem _ hms)) hholds
    refine ⟨next, ?_, hholds⟩
    have hgroup := run_append_run (run_append_run hfirst hmiddle) hnext
    rw [List.flatMap_cons, List.map_cons, intercalate_cons, List.flatMap_map]
    simpa using hgroup

theorem run_groups {g : MatcherGroups} (hne : g.first ≠ [])
    (halt : g.others ≠ [] → ∀ ms ∈ g.toList, ms ≠ [])
    (hread : ∀ m ∈ g.matchers, m.IsRead) (h : ∀ m ∈ g.matchers, m.IsWritten) :
    (inMatchers frames metric .opened).run (g.innerTokens ++ [.closeBrace]) =
      .ok ⟨frames, .complete (Expr.selector? metric (.ok g))⟩ := by
  obtain ⟨first, others⟩ := g
  obtain ⟨m, ms, rfl⟩ := List.exists_cons_of_ne_nil hne
  have hothers : ∀ ms ∈ others, ms ≠ [] := by
    intro n hn
    exact halt (List.ne_nil_of_mem hn) n (List.mem_cons_of_mem _ hn)
  have hmem : ∀ gs ∈ (m :: ms) :: others, ∀ n ∈ gs, n.IsRead ∧ n.IsWritten := by
    intro gs hgs n hn
    have hall := List.mem_flatten.mpr ⟨gs, hgs, hn⟩
    exact ⟨hread n hall, h n hall⟩
  have hown := hmem _ List.mem_cons_self
  have hm := run_matcher frames metric (hown m List.mem_cons_self).1
    (hown m List.mem_cons_self).2 (.inl rfl) false .empty
  obtain ⟨middle, hmiddle, hholds⟩ := run_moreMatchers frames metric
    (fun n hn => (hown n (List.mem_cons_of_mem m hn)).1)
    (fun n hn => (hown n (List.mem_cons_of_mem m hn)).2) ⟨m, false, .empty, rfl, rfl⟩
  obtain ⟨last, hlast, hholds⟩ := run_moreGroups frames metric hothers
    (fun gs hgs n hn => (hmem gs (List.mem_cons_of_mem _ hgs) n hn).1)
    (fun gs hgs n hn => (hmem gs (List.mem_cons_of_mem _ hgs) n hn).2) hholds
  have hgroups : others.foldl MatcherGroups.pushAll
      (ms.foldl MatcherGroups.push (MatcherGroups.empty.add false m)) =
        ⟨m :: ms, others⟩ := by
    have hadd : MatcherGroups.empty.add false m = ⟨[m], []⟩ := rfl
    rw [hadd, MatcherGroups.foldl_push_first, MatcherGroups.foldl_pushAll hothers]
    simp
  rw [hgroups] at hholds
  obtain ⟨n, newGroup, groups, rfl, hadd⟩ := hholds
  have hclose : (inMatchers frames metric ⟨.complete (.ok n), newGroup, .ok groups⟩).step
      .closeBrace = .ok ⟨frames, .complete (Expr.selector? metric (.ok ⟨m :: ms, others⟩))⟩ := by
    rw [← hadd]
    rfl
  have hall := run_append_run (run_append_run (run_append_run hm hmiddle) hlast)
    (run_singleton hclose)
  have htokens : MatcherGroups.innerTokens ⟨m :: ms, others⟩ =
      m.tokens ++ (ms.flatMap fun m => .comma :: m.tokens) ++
        others.flatMap fun gs =>
          .alternative :: [Token.comma].intercalate (gs.map Matcher.tokens) := by
    rw [MatcherGroups.innerTokens, MatcherGroups.toList, List.map_cons, intercalate_cons,
      List.map_cons, intercalate_cons, List.flatMap_map, List.flatMap_map]
    rfl
  rw [htokens]
  exact hall

end Parser

end MetricScope.PromQL
