import MetricScope.Proofs.PromQL.Grammar
import MetricScope.Proofs.Steps

/-!
# What building nodes gives

A node that passes its checks is grammatical when its parts are. The parts may be
faults, so each lemma speaks of values that are there. Matchers are read one at a time,
and the list keeps only such as can be read again.
-/

set_option autoImplicit false

namespace MetricScope.PromQL

def Holds {α : Type} (P : α → Prop) (x : Checked α) : Prop :=
  ∀ a, x = .ok a → P a

section

variable {α β : Type} {P : α → Prop} {Q : β → Prop}

theorem holds_ok {a : α} (h : P a) : Holds P (.ok a) := by
  intro b hb
  obtain rfl := Except.ok.inj hb
  exact h

theorem holds_error (halt : Halt ParseError) : Holds P (.error halt) :=
  fun _ h => absurd h (by simp)

theorem Holds.bind {x : Checked α} {f : α → Checked β} (hx : Holds P x)
    (hf : ∀ a, P a → Holds Q (f a)) : Holds Q (x >>= f) := by
  intro b hb
  obtain ⟨a, ha, hb⟩ := bind_eq_ok_iff.mp hb
  exact hf a (hx a ha) b hb

theorem Holds.mono {R : α → Prop} {x : Checked α} (h : Holds P x) (hR : ∀ a, P a → R a) :
    Holds R x :=
  fun a ha => hR a (h a ha)

theorem holds_true (x : Checked α) : Holds (fun _ => True) x :=
  fun _ _ => trivial

end

theorem Selector.IsRead.withTime {s t : Selector} (h : s.IsRead)
    (hm : t.metric = s.metric) (hg : t.groups = s.groups) : t.IsRead where
  metric := by rw [hm]; exact h.metric
  matchers := by rw [hg]; exact h.matchers
  alternatives := by rw [hg]; exact h.alternatives
  check := by
    have hc := h.check
    rw [Selector.check] at hc ⊢
    rw [hm, hg]
    exact hc

namespace Expr

structure Settled (e : Expr) : Prop where
  grammatical : e.Grammatical
  operand : e.IsOperand

def AllGrammatical (es : List Expr) : Prop :=
  ∀ e ∈ es, e.Grammatical

theorem holds_checked {P : Expr → Prop} {e : Expr} (h : e.checkRoot = .ok () → P e) :
    Holds P e.checked := by
  intro e' he'
  obtain ⟨hroot, rfl⟩ := checked_eq_ok_iff.mp he'
  exact h hroot

theorem holds_string? (text : Checked String) : Holds Settled (string? text) :=
  (holds_true text).bind fun _ _ => holds_ok ⟨.string, rfl, rfl⟩

theorem holds_paren? {e : Checked Expr} (h : Holds Grammatical e) :
    Holds Settled (paren? e) :=
  h.bind fun _ he => holds_ok ⟨.paren he, rfl, rfl⟩

theorem holds_call? (name : String) {arguments : Checked (List Expr)}
    (h : Holds AllGrammatical arguments) : Holds Settled (call? name arguments) := by
  rw [call?]
  split
  · exact holds_error _
  next f hf =>
    have hname : f.name = name := by
      have := List.find?_some hf
      simpa using this
    exact h.bind fun es hes =>
      holds_checked fun hroot => ⟨.call (hname ▸ hf) hes hroot, rfl, rfl⟩

theorem holds_aggregate? (op : Aggregator) (grouping : Checked (Option Grouping))
    {arguments : Checked (List Expr)} (h : Holds AllGrammatical arguments) :
    Holds Settled (aggregate? op grouping arguments) := by
  refine (holds_true grouping).bind fun g _ => h.bind fun es hes => ?_
  split
  · exact holds_error _
  · split
    · exact holds_error _
    next _ hlength =>
      have harity := Decidable.not_not.mp hlength
      rw [Aggregator.arity] at harity
      split
      · have hnone : op.parameter?.isSome = false := by
          cases hsome : op.parameter?.isSome with
          | false => rfl
          | true => simp [hsome] at harity
        refine holds_checked fun hroot => ⟨.aggregate ?_ ?_ (hes _ (by simp)) hroot, rfl, rfl⟩
        · simp [hnone]
        · simp
      · have hsome : op.parameter?.isSome = true := by
          cases hnone : op.parameter?.isSome with
          | true => rfl
          | false => simp [hnone] at harity
        refine holds_checked fun hroot => ⟨.aggregate ?_ ?_ (hes _ (by simp)) hroot, rfl, rfl⟩
        · simp [hsome]
        · simpa using hes _ (by simp)
      · exact holds_error _

theorem holds_range? {e : Checked Expr} (h : Holds Settled e) (length : Checked Duration) :
    Holds Settled (range? e length) := by
  refine h.bind fun e he => (holds_true length).bind fun d _ => ?_
  split
  next s =>
    split
    · exact holds_error _
    · split
      · exact holds_error _
      · cases he.grammatical with
        | selector hs => exact holds_ok ⟨.range hs, rfl, rfl⟩
  · exact holds_error _

theorem holds_subquery? {e : Checked Expr} (h : Holds Settled e)
    (length : Checked Duration) (step : Checked (Option Duration)) :
    Holds Settled (subquery? e length step) := by
  refine h.bind fun e he => (holds_true length).bind fun d _ =>
    (holds_true step).bind fun s _ => holds_checked fun hroot => ?_
  have ht : e.type = .vector := by
    rw [checkRoot] at hroot
    split at hroot
    · assumption
    · exact absurd hroot (by simp)
  exact ⟨.subquery he.grammatical he.operand ht, rfl, rfl⟩

theorem holds_offset? {e : Checked Expr} (h : Holds Settled e) (negative : Bool)
    (duration : Checked Duration) : Holds Settled (offset? e negative duration) := by
  refine h.bind fun e he => (holds_true duration).bind fun d _ => ?_
  dsimp only
  split
  · split
    · exact holds_error _
    · cases he.grammatical with
      | selector hs => exact holds_ok ⟨.selector (hs.withTime rfl rfl), rfl, rfl⟩
  · split
    · exact holds_error _
    · cases he.grammatical with
      | range hs => exact holds_ok ⟨.range (hs.withTime rfl rfl), rfl, rfl⟩
  · split
    · exact holds_error _
    · cases he.grammatical with
      | subquery hg ho ht => exact holds_ok ⟨.subquery hg ho ht, rfl, rfl⟩
  · exact holds_error _

theorem holds_at? {e : Checked Expr} (h : Holds Settled e) (instant : Checked Instant) :
    Holds Settled (at? e instant) := by
  refine h.bind fun e he => (holds_true instant).bind fun i _ => ?_
  split
  · split
    · exact holds_error _
    · cases he.grammatical with
      | selector hs => exact holds_ok ⟨.selector (hs.withTime rfl rfl), rfl, rfl⟩
  · split
    · exact holds_error _
    · cases he.grammatical with
      | range hs => exact holds_ok ⟨.range (hs.withTime rfl rfl), rfl, rfl⟩
  · split
    · exact holds_error _
    · cases he.grammatical with
      | subquery hg ho ht => exact holds_ok ⟨.subquery hg ho ht, rfl, rfl⟩
  · exact holds_error _

end Expr

theorem Matcher.isRead_of_read {name value : String} {symbol : MatchSymbol} {m : Matcher}
    (h : Matcher.read name symbol value = .ok m) : m.IsRead := by
  cases symbol with
  | equal | notEqual =>
    obtain rfl := Except.ok.inj h
    rfl
  | regexMatch | regexNotMatch =>
    cases hp : readPattern value with
    | error cause => simp [Matcher.read, hp, Bind.bind, Except.bind] at h
    | ok pattern =>
      simp only [Matcher.read, hp, Bind.bind, Except.bind, pure, Except.pure,
        Except.ok.injEq] at h
      subst h
      simp [Matcher.IsRead, Matcher.read, MatchOp.symbol, hp, Bind.bind, Except.bind, pure,
        Except.pure]

theorem MatcherName.holds_alone (name : MatcherName) : Holds Matcher.IsRead name.alone := by
  cases name with
  | identifier name => exact holds_error _
  | string quote body => exact (holds_true _).bind fun _ _ => holds_ok rfl

/-- The groups of a selector that is being read. A group is empty only when it is the
only one, and no group is empty when another is about to start. -/
structure MatcherGroups.IsRead (newGroup : Bool) (g : MatcherGroups) : Prop where
  matchers : ∀ m ∈ g.matchers, m.IsRead
  alternatives : g.others ≠ [] ∨ newGroup = true → ∀ ms ∈ g.toList, ms ≠ []

namespace MatcherGroups

theorem matchers_pushGroup (g : MatcherGroups) (m : Matcher) :
    (g.pushGroup m).matchers = g.matchers ++ [m] := by
  simp [MatcherGroups.pushGroup, MatcherGroups.matchers, toList]

theorem push_eq_of_concat (first : List Matcher) (front : List (List Matcher))
    (last : List Matcher) (m : Matcher) :
    (MatcherGroups.mk first (front ++ [last])).push m = ⟨first, front ++ [last ++ [m]]⟩ := by
  simp [MatcherGroups.push]

theorem matchers_push (g : MatcherGroups) (m : Matcher) :
    (g.push m).matchers = g.matchers ++ [m] := by
  obtain ⟨first, others⟩ := g
  rcases List.eq_nil_or_concat others with rfl | ⟨front, last, h⟩
  · simp [MatcherGroups.push, MatcherGroups.matchers, toList]
  · rw [h, List.concat_eq_append, push_eq_of_concat]
    simp [MatcherGroups.matchers, toList]

theorem IsRead.pushGroup {g : MatcherGroups} (h : g.IsRead true) {m : Matcher}
    (hm : m.IsRead) (newGroup : Bool) : (g.pushGroup m).IsRead newGroup where
  matchers := by
    rw [matchers_pushGroup]
    intro m' hm'
    rcases List.mem_append.mp hm' with hm' | hm'
    · exact h.matchers m' hm'
    · obtain rfl := List.mem_singleton.mp hm'
      exact hm
  alternatives := by
    intro _ ms hms
    have hlist : (g.pushGroup m).toList = g.toList ++ [[m]] := rfl
    rw [hlist] at hms
    rcases List.mem_append.mp hms with hms | hms
    · exact h.alternatives (.inr rfl) ms hms
    · obtain rfl := List.mem_singleton.mp hms
      simp

theorem IsRead.push {g : MatcherGroups} (h : g.IsRead false) {m : Matcher}
    (hm : m.IsRead) (newGroup : Bool) : (g.push m).IsRead newGroup where
  matchers := by
    rw [matchers_push]
    intro m' hm'
    rcases List.mem_append.mp hm' with hm' | hm'
    · exact h.matchers m' hm'
    · obtain rfl := List.mem_singleton.mp hm'
      exact hm
  alternatives := by
    intro _ ms hms
    obtain ⟨first, others⟩ := g
    rcases List.eq_nil_or_concat others with rfl | ⟨front, last, hothers⟩
    · simp only [MatcherGroups.push, toList, List.getLast?_nil, List.mem_singleton] at hms
      subst hms
      simp
    · rw [List.concat_eq_append] at hothers
      subst hothers
      have hne := h.alternatives (.inl (by simp))
      rw [push_eq_of_concat] at hms
      simp only [toList, List.mem_cons, List.mem_append, List.not_mem_nil, or_false] at hms
      rcases hms with rfl | hms | rfl
      · exact hne _ (by simp [toList])
      · exact hne _ (by simp [toList, hms])
      · simp

end MatcherGroups

namespace MatcherList

structure Sound (list : MatcherList) : Prop where
  groups : Holds (MatcherGroups.IsRead list.newGroup) list.groups
  current : ∀ m, list.phase = .complete m → Holds Matcher.IsRead m

theorem sound_opened : opened.Sound where
  groups := holds_ok ⟨by simp [MatcherGroups.matchers, MatcherGroups.toList,
    MatcherGroups.empty], by simp [MatcherGroups.empty, opened]⟩
  current := by simp [opened]

theorem Sound.add {list : MatcherList} (h : list.Sound) {m : Checked Matcher}
    (hm : Holds Matcher.IsRead m) (newGroup : Bool) :
    Holds (MatcherGroups.IsRead newGroup) (list.add m) := by
  refine h.groups.bind fun g hg => hm.bind fun m hm => ?_
  cases hnew : list.newGroup with
  | true =>
    rw [hnew] at hg
    exact holds_ok (hg.pushGroup hm newGroup)
  | false =>
    rw [hnew] at hg
    exact holds_ok (hg.push hm newGroup)

def SoundProgress (t : Token) : Progress MatcherList (Checked MatcherGroups) → Prop
  | .more list => t ≠ .closeBrace ∧ list.Sound
  | .done groups => t = .closeBrace ∧ Holds (MatcherGroups.IsRead false) groups
  | .refused => True

theorem Sound.withPhase {list : MatcherList} (h : list.Sound) {phase : MatcherPhase}
    (hphase : ∀ m, phase = .complete m → Holds Matcher.IsRead m) :
    Sound { list with phase := phase } :=
  ⟨h.groups, hphase⟩

theorem Sound.done {list : MatcherList} (h : list.Sound) :
    SoundProgress .closeBrace (.done list.groups) :=
  ⟨rfl, h.groups.mono fun _ hg => ⟨hg.matchers, fun hne =>
    hg.alternatives (.inl (hne.resolve_right (by simp)))⟩⟩

theorem sound_endMatcher {list : MatcherList} (h : list.Sound) {m : Checked Matcher}
    (hm : Holds Matcher.IsRead m) (t : Token) : SoundProgress t (list.endMatcher m t) := by
  unfold endMatcher
  split
  · exact ⟨by simp, h.add hm false, by simp⟩
  · exact ⟨by simp, h.add hm true, by simp⟩
  · exact ⟨rfl, h.add hm false⟩
  · trivial

theorem sound_startMatcher {list : MatcherList} (h : list.Sound) (t : Token) :
    SoundProgress t (list.startMatcher t) := by
  rw [startMatcher]
  split
  next name hname =>
    refine ⟨?_, h.withPhase (by simp)⟩
    rintro rfl
    exact absurd hname (by simp [MatcherName.ofToken?])
  · trivial

theorem sound_afterSymbol {list : MatcherList} (h : list.Sound) (name : MatcherName)
    (symbol : MatchSymbol) (t : Token) :
    SoundProgress t (list.afterSymbol name symbol t) := by
  unfold afterSymbol
  split
  · refine ⟨by simp, h.withPhase fun m hm => ?_⟩
    obtain rfl := MatcherPhase.complete.inj hm
    exact (holds_true _).bind fun n _ => (holds_true _).bind fun v _ =>
      fun _ hread => Matcher.isRead_of_read hread
  · exact ⟨by simp, h.withPhase (by simp)⟩
  · refine ⟨by simp, h.withPhase fun m hm => ?_⟩
    obtain rfl := MatcherPhase.complete.inj hm
    exact holds_error _
  · trivial

theorem sound_step {list : MatcherList} (h : list.Sound) (t : Token) :
    SoundProgress t (list.step t) := by
  rw [step]
  split
  · unfold afterBrace
    split
    · exact h.done
    · exact ⟨by simp, h.withPhase (by simp)⟩
    · exact sound_startMatcher h t
  · split
    · exact ⟨‹t = .closeBrace›, holds_error _⟩
    · trivial
  · unfold afterComma
    split
    · exact h.done
    · exact sound_startMatcher h t
  · exact sound_startMatcher h t
  next name _ =>
    unfold afterName
    split
    · exact ⟨by simp, h.withPhase (by simp)⟩
    · exact sound_endMatcher h name.holds_alone t
  · exact sound_afterSymbol h _ _ t
  · split
    next hvalue =>
      refine ⟨?_, h.withPhase (by simp)⟩
      rintro rfl
      exact absurd hvalue (by simp [isValue])
    · exact sound_endMatcher h (holds_error _) t
  next m hm =>
    exact sound_endMatcher h (h.current m hm) t

end MatcherList

theorem Expr.holds_selector? {metric : Option String} {groups : Checked MatcherGroups}
    (hm : ∀ name ∈ metric, IsMetricName name)
    (hg : Holds (MatcherGroups.IsRead false) groups) :
    Holds Expr.Settled (Expr.selector? metric groups) := by
  refine hg.bind fun g hg => Expr.holds_checked fun hroot => ⟨.selector ?_, rfl, rfl⟩
  exact ⟨hm, hg.matchers, fun hne => hg.alternatives (.inl hne), hroot⟩

theorem Expr.holds_metric {name : String} (h : IsMetricName name) :
    Holds Expr.Settled (Expr.metric name) := by
  refine Expr.holds_selector? (by simpa using h) (holds_ok ⟨?_, ?_⟩)
  · simp [MatcherGroups.matchers, MatcherGroups.toList, MatcherGroups.empty]
  · simp [MatcherGroups.empty]

end MetricScope.PromQL
