import MetricScope.Proofs.PromQL.Building
import MetricScope.Proofs.PromQL.Tally

/-!
# What a token adds

Every token has a text in the query and a text in what is written for it, which depends on the
place where it is read. A list of labels or of matchers that takes a token adds to its count
what is counted in the text that is written.
-/

set_option autoImplicit false

namespace MetricScope.PromQL

inductive Place where
  | scalar
  /-- A range, a step or an offset. -/
  | length
  /-- A time after an at sign, before the epoch if a minus stands in front. -/
  | instant (before : Bool)
  deriving DecidableEq, Repr

namespace Token

def text : Token → String
  | identifier name | metricIdentifier name | keyword _ name => name
  | number text | duration text => text
  | string _ body => body
  | _ => ""

def literalAt (place : Place) (t : Token) : Option (Checked String) :=
  match place with
  | .scalar => (Parser.number? t).map fun x => x.map numberText
  | .length => (Parser.duration? t).map fun d => d.map Duration.text
  | .instant before => (Parser.number? t).map fun x => do
      let x ← x
      let i ← Instant.ofSeconds before x
      pure i.text

def writtenAt (place : Place) (t : Token) : Checked String :=
  match t with
  | .string quote body => Literal.unquote quote body
  | t => (t.literalAt place).getD (.ok t.text)

def isSymbol : Token → Bool
  | identifier _ | metricIdentifier _ | keyword _ _ => false
  | number _ | duration _ | string _ _ => false
  | _ => true

end Token

section

variable (f : List Char → Nat)

def Token.share (place : Place) (t : Token) : ℕ∞ := tally (textWeight f) (t.writtenAt place)

def Token.Silent (t : Token) : Prop :=
  ∀ word text, t = .keyword word text → textWeight f text = 0
def LabelList.tally (list : LabelList) : ℕ∞ := PromQL.tally (weigh f) list.labels

def MatcherName.tally : MatcherName → ℕ∞
  | identifier name => textWeight f name
  | string quote body => PromQL.tally (textWeight f) (Literal.unquote quote body)

/-- A second symbol is a fault, so it counts as one from the start. -/
def MatcherPhase.tally : MatcherPhase → ℕ∞
  | first | loneComma | afterComma | afterAlternative => 0
  | named name | symbol name _ => name.tally f
  | secondSymbol _ _ => ⊤
  | complete m => PromQL.tally (Matcher.weight f) m

def MatcherList.tally (list : MatcherList) : ℕ∞ :=
  PromQL.tally (MatcherGroups.weight f) list.groups + list.phase.tally f

def MatchingPhase.tally : MatchingPhase → ℕ∞
  | start | bool => 0
  | labels _ _ list | groupAlone _ list => list.tally f
  | labelled _ grouping | group _ grouping _ => PromQL.tally (Grouping.weight f) grouping
  | groupLabels _ grouping _ list => PromQL.tally (Grouping.weight f) grouping + list.tally f
  | complete matching => PromQL.tally (VectorMatching.weight f) matching

end

variable {f : List Char → Nat}

theorem Instant.exists_epoch_of_ofSeconds {before : Bool} {x : Binary64} {i : Instant}
    (h : ofSeconds before x = .ok i) : ∃ milliseconds, i = .epoch before milliseconds := by
  unfold ofSeconds at h
  dsimp only at h
  split at h
  · exact absurd h (by simp)
  · split at h
    · exact absurd h (by simp)
    · split at h
      · exact ⟨_, (Except.ok.inj h).symm⟩
      · exact ⟨_, (Except.ok.inj h).symm⟩

namespace Token

variable (place : Place)

theorem share_identifier (name : String) :
    (identifier name).share f place = textWeight f name := by
  cases place <;> rfl

theorem share_metricIdentifier (name : String) :
    (metricIdentifier name).share f place = textWeight f name := by
  cases place <;> rfl

theorem share_keyword (word : Keyword) (name : String) :
    (keyword word name).share f place = textWeight f name := by
  cases place <;> rfl

theorem share_string (quote : Char) (body : String) :
    (string quote body).share f place = tally (textWeight f) (Literal.unquote quote body) := rfl

theorem Silent.share_keyword {word : Keyword} {name : String}
    (h : (keyword word name).Silent f) : (keyword word name).share f place = 0 := by
  rw [Token.share_keyword, h word name rfl]
  rfl

theorem share_of_isSymbol (h : Measure f) {t : Token} (ht : t.isSymbol = true) :
    t.share f place = 0 := by
  have hnil : textWeight f "" = 0 := h.nil
  cases t with
  | identifier _ | metricIdentifier _ | keyword _ _ | number _ | duration _ | string _ _ =>
    exact absurd ht (by simp [isSymbol])
  | _ => cases place <;> exact congrArg _ hnil

theorem add_share_of_isSymbol (h : Measure f) (n : ℕ∞) {t : Token} (ht : t.isSymbol = true) :
    n + t.share f place = n := by
  rw [share_of_isSymbol place h ht, add_zero]

theorem Silent.add_share_keyword {word : Keyword} {name : String}
    (h : (keyword word name).Silent f) (n : ℕ∞) : n + (keyword word name).share f place = n := by
  rw [h.share_keyword, add_zero]

theorem share_number? {t : Token} {x : Checked Binary64} (h : Parser.number? t = some x) :
    t.share f .scalar = tally (numberWeight f) x := by
  have hwritten : t.writtenAt .scalar = x.map numberText := by
    cases t with
    | number text | duration text =>
      rw [writtenAt, literalAt, h]
      · rfl
      · simp
    | _ => exact absurd h (by simp [Parser.number?])
  rw [share, hwritten, tally_map]
  rfl

theorem share_duration? {t : Token} {d : Checked Duration} (h : Parser.duration? t = some d) :
    t.share f .length = tally (Duration.weight f) d := by
  have hwritten : t.writtenAt .length = d.map Duration.text := by
    cases t with
    | number text | duration text =>
      rw [writtenAt, literalAt, h]
      · rfl
      · simp
    | _ => exact absurd h (by simp [Parser.duration?])
  rw [share, hwritten, tally_map]
  rfl

theorem share_instant {t : Token} {x : Checked Binary64} (h : Parser.number? t = some x)
    (before : Bool) : t.share f (.instant before) = tally (Instant.weight f) (do
      let x ← x
      Instant.ofSeconds before x) := by
  have hwritten : t.writtenAt (.instant before) = (do
      let x ← x
      let i ← Instant.ofSeconds before x
      pure i.text) := by
    cases t with
    | number text | duration text =>
      rw [writtenAt, literalAt, h]
      · rfl
      · simp
    | _ => exact absurd h (by simp [Parser.number?])
  rw [share, hwritten]
  cases x with
  | error cause => rfl
  | ok x =>
    simp only [Bind.bind, Except.bind]
    cases hi : Instant.ofSeconds before x with
    | error cause => rfl
    | ok i =>
      obtain ⟨n, rfl⟩ := Instant.exists_epoch_of_ofSeconds hi
      simp [Instant.weight, textWeight, Leaf.parts]

end Token

def Progress.Keeps {σ α : Type} (state : σ → ℕ∞) (w : α → Nat) (n : ℕ∞) :
    Progress σ (Checked α) → Prop
  | more next => Kept n (state next)
  | done result => Kept n (tally w result)
  | refused => True

namespace LabelList

theorem kept_label? (place : Place) {t : Token} {label : Checked String}
    (h : label? t = some label) :
    Kept (t.share f place) (PromQL.tally (textWeight f) label) := by
  cases t with
  | identifier name =>
    obtain rfl := Option.some.inj h
    exact kept_of_eq (Token.share_identifier place name)
  | metricIdentifier name =>
    obtain rfl := Option.some.inj h
    exact kept_top _
  | keyword word name =>
    rw [label?] at h
    split at h
    · obtain rfl := Option.some.inj h
      exact kept_of_eq (Token.share_keyword place word name)
    · exact absurd h (by simp)
  | string quote body =>
    obtain rfl := Option.some.inj h
    exact kept_of_eq rfl
  | _ => exact absurd h (by simp [label?])

theorem kept_add (list : LabelList) (label : Checked String) :
    Kept (list.tally f + PromQL.tally (textWeight f) label) ((list.add label).tally f) := by
  obtain ⟨phase, labels⟩ := list
  cases labels with
  | error cause => exact kept_top _
  | ok labels =>
    cases label with
    | error cause => exact kept_top _
    | ok label =>
      apply kept_of_eq
      simp [add, LabelList.tally, textWeight, Bind.bind, Except.bind]

theorem keeps_step (h : Measure f) (place : Place) (list : LabelList) (t : Token) :
    (list.step t).Keeps (LabelList.tally f) (weigh f) (list.tally f + t.share f place) := by
  have hsymbol : ∀ t : Token, t.isSymbol = true →
      Kept (list.tally f + t.share f place) (PromQL.tally (weigh f) list.labels) := by
    intro t ht
    rw [Token.add_share_of_isSymbol place h _ ht]
    exact kept_of_eq rfl
  unfold step
  split
  · exact hsymbol .openParen rfl
  · trivial
  · exact hsymbol .closeParen rfl
  · exact hsymbol .closeParen rfl
  · exact hsymbol .closeParen rfl
  · exact hsymbol .comma rfl
  · trivial
  all_goals
    split
    next hlabel => exact ((kept_label? place hlabel).add_left _).trans (list.kept_add _)
    next => trivial

end LabelList

theorem MatcherName.kept_alone (hlabel : textWeight f Selector.metricLabel = 0)
    (name : MatcherName) : Kept (name.tally f) (PromQL.tally (Matcher.weight f) name.alone) := by
  cases name with
  | identifier name => exact kept_top _
  | string quote body =>
    rw [MatcherName.tally, alone]
    cases Literal.unquote quote body with
    | error cause => exact kept_top _
    | ok name =>
      apply kept_of_eq
      have hzero : f Selector.metricLabel.toList = 0 := hlabel
      show (_ : ℕ∞) = ((Matcher.weight f ⟨Selector.metricLabel, .equal, name⟩ : Nat) : ℕ∞)
      simp [Matcher.weight, hzero, textWeight]

theorem Matcher.kept_read (name : String) (symbol : MatchSymbol) (value : String) :
    Kept (weigh f [name, value]) (PromQL.tally (Matcher.weight f) (read name symbol value)) := by
  cases symbol with
  | equal | notEqual => exact kept_of_eq rfl
  | regexMatch | regexNotMatch =>
    rw [read]
    cases readPattern value with
    | error cause => exact kept_top _
    | ok pattern => exact kept_of_eq rfl

namespace MatcherGroups

theorem weight_eq (g : MatcherGroups) : g.weight f = (g.matchers.map (Matcher.weight f)).sum :=
  weigh_flatMap f _ g.matchers

theorem weight_push (g : MatcherGroups) (m : Matcher) :
    (g.push m).weight f = g.weight f + m.weight f := by
  simp [weight_eq, matchers_push]

theorem weight_pushGroup (g : MatcherGroups) (m : Matcher) :
    (g.pushGroup m).weight f = g.weight f + m.weight f := by
  simp [weight_eq, matchers_pushGroup]

end MatcherGroups

namespace MatcherList

theorem kept_add (list : MatcherList) (m : Checked Matcher) :
    Kept (PromQL.tally (MatcherGroups.weight f) list.groups + PromQL.tally (Matcher.weight f) m)
      (PromQL.tally (MatcherGroups.weight f) (list.add m)) := by
  obtain ⟨phase, newGroup, groups⟩ := list
  cases groups with
  | error cause => exact kept_top _
  | ok groups =>
    cases m with
    | error cause => exact kept_top _
    | ok m =>
      apply kept_of_eq
      simp only [add, Bind.bind, Except.bind, tally_ok, tally_pure]
      cases newGroup with
      | true => simp [MatcherGroups.weight_pushGroup]
      | false => simp [MatcherGroups.weight_push]

abbrev Goes (f : List Char → Nat) (n : ℕ∞) :
    Progress MatcherList (Checked MatcherGroups) → Prop :=
  Progress.Keeps (MatcherList.tally f) (MatcherGroups.weight f) n

section

variable (h : Measure f) (place : Place) (list : MatcherList)

include h

theorem goes_endMatcher {n : ℕ∞} {m : Checked Matcher}
    (hm : Kept n (PromQL.tally (Matcher.weight f) m)) (t : Token) :
    Goes f (PromQL.tally (MatcherGroups.weight f) list.groups + n + t.share f place)
      (list.endMatcher m t) := by
  have hadd := (hm.add_left (PromQL.tally (MatcherGroups.weight f) list.groups)).trans
    (list.kept_add m)
  have hnext : Kept (PromQL.tally (MatcherGroups.weight f) list.groups + n)
      (PromQL.tally (MatcherGroups.weight f) (list.add m) + 0) := by
    rwa [add_zero]
  unfold endMatcher
  split
  · rw [Token.add_share_of_isSymbol place h _ rfl]
    exact hnext
  · rw [Token.add_share_of_isSymbol place h _ rfl]
    exact hnext
  · rw [Token.add_share_of_isSymbol place h _ rfl]
    exact hadd
  · trivial

omit h in
theorem goes_startMatcher (t : Token) :
    Goes f (PromQL.tally (MatcherGroups.weight f) list.groups + t.share f place)
      (list.startMatcher t) := by
  unfold startMatcher
  cases hname : MatcherName.ofToken? t with
  | none => trivial
  | some name =>
    apply kept_of_eq
    cases t with
    | identifier text =>
      obtain rfl := Option.some.inj hname
      rw [Token.share_identifier]
      rfl
    | string quote body =>
      obtain rfl := Option.some.inj hname
      rfl
    | _ => exact absurd hname (by simp [MatcherName.ofToken?])

omit h in
theorem goes_afterSymbol (name : MatcherName) (symbol : MatchSymbol) (t : Token) :
    Goes f (PromQL.tally (MatcherGroups.weight f) list.groups +
      (name.tally f + t.share f place)) (list.afterSymbol name symbol t) := by
  unfold afterSymbol
  cases t with
  | string quote body =>
    apply Kept.add_left
    rw [Token.share_string]
    show Kept _ (PromQL.tally (Matcher.weight f) (matcher name symbol quote body))
    have hname : name.tally f = PromQL.tally (textWeight f) name.read := by
      cases name <;> rfl
    rw [hname, matcher]
    cases name.read with
    | error cause => exact kept_top _
    | ok name =>
      cases Literal.unquote quote body with
      | error cause => exact kept_top _
      | ok value =>
        have hread := Matcher.kept_read (f := f) name symbol value
        simpa [textWeight, Bind.bind, Except.bind] using hread
  | matching second | identifier value =>
    apply Kept.add_left
    exact kept_top _
  | _ => trivial

theorem goes_step (hlabel : textWeight f Selector.metricLabel = 0) (t : Token) :
    Goes f (list.tally f + t.share f place) (list.step t) := by
  obtain ⟨phase, newGroup, groups⟩ := list
  unfold step
  cases phase with
  | first =>
    rw [MatcherList.tally, MatcherPhase.tally, add_zero]
    dsimp only
    unfold afterBrace
    split
    · rw [Token.add_share_of_isSymbol place h _ rfl]
      exact kept_of_eq rfl
    · rw [Token.add_share_of_isSymbol place h _ rfl]
      exact kept_of_eq (add_zero _).symm
    · exact goes_startMatcher place ⟨.first, newGroup, groups⟩ t
  | loneComma =>
    dsimp only
    split
    · exact kept_top _
    · trivial
  | afterComma =>
    rw [MatcherList.tally, MatcherPhase.tally, add_zero]
    dsimp only
    unfold afterComma
    split
    · rw [Token.add_share_of_isSymbol place h _ rfl]
      exact kept_of_eq rfl
    · exact goes_startMatcher place ⟨.afterComma, newGroup, groups⟩ t
  | afterAlternative =>
    rw [MatcherList.tally, MatcherPhase.tally, add_zero]
    exact goes_startMatcher place ⟨.afterAlternative, newGroup, groups⟩ t
  | named name =>
    dsimp only
    unfold afterName
    split
    · rw [Token.add_share_of_isSymbol place h _ rfl]
      exact kept_of_eq rfl
    · exact goes_endMatcher h place ⟨.named name, newGroup, groups⟩ (name.kept_alone hlabel) t
  | symbol name symbol =>
    rw [MatcherList.tally, MatcherPhase.tally, add_assoc]
    exact goes_afterSymbol place ⟨.symbol name symbol, newGroup, groups⟩ name symbol t
  | secondSymbol symbol value =>
    dsimp only
    split
    · rw [MatcherList.tally, MatcherPhase.tally, add_top, top_add]
      exact kept_of_eq (add_top _).symm
    · exact goes_endMatcher h place ⟨.secondSymbol symbol value, newGroup, groups⟩ (kept_top _) t
  | complete m => exact goes_endMatcher h place ⟨.complete m, newGroup, groups⟩ (kept_of_eq rfl) t

end

end MatcherList

theorem kept_ofLabels (excluding : Bool) (labels : Checked (List String)) :
    Kept (tally (weigh f) labels)
      (tally (Grouping.weight f) (Grouping.ofLabels excluding labels)) := by
  apply kept_map
  intro labels
  cases excluding <;> rfl

namespace MatchingPhase

theorem weight_labelled (returnBool : Bool) (g : Grouping) :
    (⟨returnBool, some g, .oneToOne⟩ : VectorMatching).weight f = g.weight f := by
  simp [VectorMatching.weight, Grouping.weight, Leaf.parts, Leaf.texts, Cardinality.labels?]

theorem weight_joining (returnBool : Bool) (g : Grouping) (toMany : Bool)
    (names : List String) :
    (⟨returnBool, some g, joining toMany names⟩ : VectorMatching).weight f =
      g.weight f + weigh f names := by
  have hnames : (joining toMany names).labels?.toList.flatten = names := by
    cases toMany <;> simp [joining, Cardinality.labels?]
  simp [VectorMatching.weight, Grouping.weight, Leaf.parts, Leaf.texts, hnames]

theorem kept_groupLabels (returnBool : Bool) (grouping : Checked Grouping) (toMany : Bool)
    (names : Checked (List String)) :
    Kept (PromQL.tally (Grouping.weight f) grouping + PromQL.tally (weigh f) names)
      (PromQL.tally (VectorMatching.weight f) (do
        let grouping ← grouping
        let names ← names
        pure ⟨returnBool, some grouping, joining toMany names⟩)) := by
  cases grouping with
  | error cause => exact kept_top _
  | ok grouping =>
    cases names with
    | error cause => exact kept_top _
    | ok names =>
      apply kept_of_eq
      simp [Bind.bind, Except.bind, weight_joining]

theorem kept_step (h : Measure f) (place : Place) {phase next : MatchingPhase} {t : Token}
    (ht : t.Silent f) (hstep : phase.step t = some next) :
    Kept (phase.tally f + t.share f place) (next.tally f) := by
  unfold step at hstep
  cases phase with
  | labels returnBool excluding list =>
    have hlist := list.keeps_step h place t
    dsimp only at hstep
    cases hnext : list.step t with
    | more next =>
      rw [hnext] at hstep hlist
      cases hstep
      exact hlist
    | done names =>
      rw [hnext] at hstep hlist
      cases hstep
      exact Kept.trans hlist (kept_ofLabels _ _)
    | refused =>
      rw [hnext] at hstep
      cases hstep
  | groupLabels returnBool grouping toMany list =>
    have hlist := list.keeps_step h place t
    dsimp only at hstep
    rw [tally, add_assoc]
    cases hnext : list.step t with
    | more next =>
      rw [hnext] at hstep hlist
      cases hstep
      exact Kept.add_left hlist _
    | done names =>
      rw [hnext] at hstep hlist
      cases hstep
      exact (Kept.add_left hlist _).trans (kept_groupLabels _ _ _ _)
    | refused =>
      rw [hnext] at hstep
      cases hstep
  | groupAlone toMany list =>
    have hlist := list.keeps_step h place t
    dsimp only at hstep
    cases hnext : list.step t with
    | more next =>
      rw [hnext] at hstep hlist
      cases hstep
      exact hlist
    | done names =>
      rw [hnext] at hstep
      cases hstep
      exact kept_top _
    | refused =>
      rw [hnext] at hstep
      cases hstep
  | group returnBool grouping toMany =>
    cases t with
    | openParen =>
      cases hstep
      rw [Token.add_share_of_isSymbol place h _ rfl]
      exact kept_of_eq (add_zero _).symm
    | _ => cases hstep
  | start | bool | labelled returnBool grouping =>
    -- only words of the language go on, and these count for nothing
    cases t with
    | keyword word text =>
      rw [ht.add_share_keyword]
      cases word <;> cases hstep <;> exact kept_of_eq rfl
    | _ => cases hstep
  | complete matching => cases hstep

theorem kept_value? {phase : MatchingPhase} {matching : Checked VectorMatching}
    (hm : phase.value? = some matching) :
    Kept (phase.tally f) (PromQL.tally (VectorMatching.weight f) matching) := by
  cases phase with
  | start | bool =>
    obtain rfl := Option.some.inj hm
    exact kept_of_eq rfl
  | labelled returnBool grouping =>
    obtain rfl := Option.some.inj hm
    exact kept_map grouping fun g => (weight_labelled returnBool g).symm
  | group returnBool grouping toMany =>
    obtain rfl := Option.some.inj hm
    exact kept_map grouping fun g => (weight_joining returnBool g toMany []).symm
  | complete m =>
    obtain rfl := Option.some.inj hm
    exact kept_of_eq rfl
  | labels _ _ _ | groupLabels _ _ _ _ | groupAlone _ _ => exact absurd hm (by simp [value?])

end MatchingPhase

end MetricScope.PromQL
