import MetricScope.Proofs.PromQL.Precedence
import MetricScope.Proofs.PromQL.Runs
import MetricScope.Proofs.PromQL.Shares

/-!
# The parser loses nothing

What is counted in a tree is what is counted in the texts that its tokens are written with. The
state of the parser is counted part by part; one token adds its share, and so do all.
-/

set_option autoImplicit false

namespace MetricScope.PromQL

def Focus.place : Focus → Place
  | brackets _ .start | brackets _ (.stepStart _) => .length
  | offset _ .start | offset _ (.signed _) => .length
  | .at _ .start => .instant false
  | .at _ (.signed before) => .instant before
  | _ => .scalar

structure Reading where
  place : Place
  token : Token
  deriving DecidableEq, Repr

def Parser.readings : Parser → List Token → List Reading
  | _, [] => []
  | p, t :: rest =>
      ⟨p.focus.place, t⟩ ::
        match p.step t with
        | .ok next => next.readings rest
        | .error _ => []

section

variable (f : List Char → Nat)

def Callee.tally : Callee → ℕ∞
  | function name => textWeight f name
  | aggregator _ none => 0
  | aggregator _ (some grouping) => PromQL.tally (Grouping.weight f) grouping

def Frame.tally : Frame → ℕ∞
  | paren | signed _ => 0
  | arguments callee read => callee.tally f + PromQL.tally (Expr.weights f) read
  | operand left _ matching =>
      PromQL.tally (Expr.weight f) left + PromQL.tally (VectorMatching.weight f) matching

def framesTally (frames : List Frame) : ℕ∞ := (frames.map (Frame.tally f)).sum

def RangePhase.tally : RangePhase → ℕ∞
  | start => 0
  | length d | stepStart d => PromQL.tally (Duration.weight f) d
  | step d s => PromQL.tally (Duration.weight f) d + PromQL.tally (Duration.weight f) s

def OffsetPhase.tally : OffsetPhase → ℕ∞
  | start | signed _ => 0
  | complete _ duration => PromQL.tally (Duration.weight f) duration

def AtPhase.tally : AtPhase → ℕ∞
  | start | signed _ => 0
  | bound instant | boundOpened instant => instant.weight f

def Focus.tally : Focus → ℕ∞
  | operand => 0
  | firstArgument callee => callee.tally f
  | nextArgument callee read => callee.tally f + PromQL.tally (Expr.weights f) read
  | identifier name | .metric name | aggregator _ name => textWeight f name
  | matchers name list => weigh f name.toList + list.tally f
  | aggregatorLabels _ none _ list => list.tally f
  | aggregatorLabels _ (some arguments) _ list =>
      PromQL.tally (Expr.weights f) arguments + list.tally f
  | aggregatorLabelled _ grouping => PromQL.tally (Grouping.weight f) grouping
  | aggregated _ arguments => PromQL.tally (Expr.weights f) arguments
  | matching left _ phase => PromQL.tally (Expr.weight f) left + phase.tally f
  | brackets e phase => PromQL.tally (Expr.weight f) e + phase.tally f
  | offset e phase => PromQL.tally (Expr.weight f) e + phase.tally f
  | .at e phase => PromQL.tally (Expr.weight f) e + phase.tally f
  | complete e => PromQL.tally (Expr.weight f) e

def Focus.Silent : Focus → Prop
  | aggregator _ name => textWeight f name = 0
  | _ => True

def Reading.share (r : Reading) : ℕ∞ := r.token.share f r.place

def Parser.tally (p : Parser) : ℕ∞ := framesTally f p.frames + p.focus.tally f

end

variable {f : List Char → Nat}

namespace Parser

def Takes (f : List Char → Nat) (n : ℕ∞) (step : Step) : Prop :=
  ∀ p, step = .ok p → Kept n (p.tally f) ∧ p.focus.Silent f

theorem takes_refuse (n : ℕ∞) : Takes f n refuse := by
  intro p h
  exact absurd h (by simp [refuse])

theorem takes_error (n : ℕ∞) (halt : Halt ParseError) : Takes f n (.error halt) := by
  intro p h
  exact absurd h (by simp)

theorem takes_ok {n : ℕ∞} {p : Parser} (h : Kept n (p.tally f)) (hp : p.focus.Silent f) :
    Takes f n (.ok p) := by
  intro q hq
  obtain rfl := Except.ok.inj hq
  exact ⟨h, hp⟩

theorem framesTally_cons (frame : Frame) (frames : List Frame) :
    framesTally f (frame :: frames) = frame.tally f + framesTally f frames := by
  simp [framesTally]

theorem kept_unwind (h : Measure f) (next : Option Operator) (frames : List Frame)
    (e : Checked Expr) :
    Kept (framesTally f frames + PromQL.tally (Expr.weight f) e)
      (framesTally f (unwind next frames e).1 +
        PromQL.tally (Expr.weight f) (unwind next frames e).2) := by
  induction frames generalizing e with
  | nil => exact kept_of_eq rfl
  | cons frame frames ih =>
    cases hb : frame.binder? with
    | none =>
      rw [unwind_of_no_binder hb]
      exact kept_of_eq rfl
    | some b =>
      by_cases hcloses : b.Closes next
      · rw [unwind_cons_of_closes hb hcloses]
        refine Kept.trans ?_ (ih _)
        rw [framesTally_cons]
        cases frame with
        | signed negative =>
          rw [Frame.tally, zero_add]
          exact (Expr.kept_signed? h negative e).add_left _
        | operand left op matching =>
          have hbinary := (Expr.kept_binary? (f := f) op left matching e).add_left
            (framesTally f frames)
          rw [Frame.tally]
          refine (kept_of_eq ?_).trans hbinary
          ring
        | paren | arguments _ _ => exact absurd hb (by simp [Frame.binder?])
      · cases next with
        | none => exact absurd b.closes_none hcloses
        | some op =>
          have hadmits := admits_of_not_closes hb hcloses frames
          rw [unwind_some_of_admits hadmits]
          exact kept_of_eq rfl

section

variable {p : Parser}

theorem takes_completed {n : ℕ∞} {e : Checked Expr}
    (h : Kept n (PromQL.tally (Expr.weight f) e)) :
    Takes f (framesTally f p.frames + n) (p.completed e) :=
  takes_ok (h.add_left _) trivial

theorem takes_endArguments (h : Measure f) (callee : Callee) {n : ℕ∞}
    {arguments : Checked (List Expr)} (hn : Kept n (PromQL.tally (Expr.weights f) arguments)) :
    Takes f (framesTally f p.frames + (callee.tally f + n)) (p.endArguments callee arguments) := by
  cases callee with
  | function name =>
    exact takes_completed ((hn.add_left _).trans (Expr.kept_call? h name arguments))
  | aggregator op grouping =>
    cases grouping with
    | some grouping =>
      refine takes_completed ((hn.add_left _).trans (Kept.trans ?_
        (Expr.kept_aggregate? op (grouping.map some) arguments)))
      apply Kept.add_right
      rw [tally_map]
      apply kept_of_eq
      show PromQL.tally (Grouping.weight f) grouping = _
      congr 1
      funext g
      simp [Grouping.weight, Leaf.parts, Leaf.texts]
    | none =>
      refine takes_ok (Kept.add_left ?_ _) trivial
      rw [Callee.tally, zero_add]
      exact hn

theorem takes_startOperand (h : Measure f) {t : Token} (ht : t.Silent f) :
    Takes f (framesTally f p.frames + t.share f .scalar) (p.startOperand t) := by
  have hframe : ∀ frame : Frame, frame.tally f = 0 →
      Takes f (framesTally f p.frames) (.ok ⟨frame :: p.frames, .operand⟩) := by
    intro frame hframe
    refine takes_ok (kept_of_eq ?_) trivial
    rw [Parser.tally, framesTally_cons, hframe, zero_add]
    exact (add_zero _).symm
  cases t with
  | identifier _ =>
    rw [Token.share_identifier]
    exact takes_ok (kept_of_eq rfl) trivial
  | metricIdentifier _ =>
    rw [Token.share_metricIdentifier]
    exact takes_ok (kept_of_eq rfl) trivial
  | keyword word text =>
    rw [Token.share_keyword]
    cases word with
    | aggregator _ => exact takes_ok (kept_of_eq rfl) (ht _ _ rfl)
    | _ =>
      unfold startOperand
      dsimp only
      split
      · exact takes_ok (kept_of_eq rfl) trivial
      · exact takes_refuse _
  | string _ _ => exact takes_completed (Expr.kept_string? _)
  | number _ | duration _ =>
    rw [Token.share_number? rfl]
    exact takes_completed (Expr.kept_number? _)
  | openParen =>
    rw [Token.add_share_of_isSymbol _ h _ rfl]
    exact hframe .paren rfl
  | openBrace =>
    rw [Token.add_share_of_isSymbol _ h _ rfl]
    refine takes_ok (kept_of_eq ?_) trivial
    exact (add_zero _).symm
  | operator op =>
    rw [Token.add_share_of_isSymbol _ h _ rfl]
    cases op with
    | add => exact hframe (.signed false) rfl
    | sub => exact hframe (.signed true) rfl
    | _ => exact takes_refuse _
  | _ => exact takes_refuse _

theorem kept_append (read : Checked (List Expr)) (e : Checked Expr) :
    Kept (PromQL.tally (Expr.weights f) read + PromQL.tally (Expr.weight f) e)
      (PromQL.tally (Expr.weights f) (do
        let read ← read
        let e ← e
        pure (read ++ [e]))) := by
  cases read with
  | error cause => exact kept_top _
  | ok read =>
    cases e with
    | error cause => exact kept_top _
    | ok e =>
      apply kept_of_eq
      simp [Bind.bind, Except.bind, Expr.weights]

theorem share_binaryOperator? (h : Measure f) (place : Place) {t : Token} (ht : t.Silent f)
    {op : Operator} (hop : binaryOperator? t = some op) : t.share f place = 0 := by
  cases t with
  | operator _ => exact Token.share_of_isSymbol place h rfl
  | keyword _ _ => exact ht.share_keyword place
  | _ => exact absurd hop (by simp [binaryOperator?])

theorem takes_afterOperand (h : Measure f) (place : Place) {t : Token} (ht : t.Silent f) {n : ℕ∞}
    {e : Checked Expr} (hn : Kept n (PromQL.tally (Expr.weight f) e)) :
    Takes f (framesTally f p.frames + n + t.share f place) (p.afterOperand e t) := by
  have hunwound : ∀ next, Kept (framesTally f p.frames + n)
      (framesTally f (unwind next p.frames e).1 +
        PromQL.tally (Expr.weight f) (unwind next p.frames e).2) := fun next =>
    (hn.add_left _).trans (kept_unwind h next p.frames e)
  have hstart : Kept (framesTally f p.frames + n)
      (framesTally f p.frames + (PromQL.tally (Expr.weight f) e + 0)) := by
    rw [add_zero]
    exact hn.add_left _
  have hoperator : Takes f (framesTally f p.frames + n + t.share f place)
      ((binaryOperator? t).elim refuse fun op =>
        .ok ⟨(unwind (some op) p.frames e).1,
          .matching (unwind (some op) p.frames e).2 op .start⟩) := by
    cases hop : binaryOperator? t with
    | some op =>
      rw [share_binaryOperator? h place ht hop, add_zero]
      refine takes_ok ((hunwound (some op)).trans (kept_of_eq ?_)) trivial
      rw [Parser.tally, Focus.tally, MatchingPhase.tally, add_zero]
    | none => exact takes_refuse _
  have hnone := hunwound none
  cases t with
  | openBracket | «at» =>
    rw [Token.add_share_of_isSymbol _ h _ rfl]
    exact takes_ok hstart trivial
  | keyword word _ =>
    cases word with
    | offset =>
      rw [ht.add_share_keyword]
      exact takes_ok hstart trivial
    | _ => exact hoperator
  | closeParen =>
    rw [Token.add_share_of_isSymbol _ h _ rfl, afterOperand]
    rcases hunwind : unwind none p.frames e with ⟨frames, last⟩
    rw [hunwind] at hnone
    cases frames with
    | nil => exact takes_refuse _
    | cons frame frames =>
      rw [framesTally_cons] at hnone
      cases frame with
      | paren =>
        rw [Frame.tally, zero_add] at hnone
        exact takes_ok (hnone.trans ((Expr.kept_paren? last).add_left _)) trivial
      | arguments callee read =>
        intro q hq
        have hend := takes_endArguments (p := ⟨frames, .operand⟩) h callee
          (kept_append read last) q hq
        refine ⟨hnone.trans (Kept.trans (kept_of_eq ?_) hend.1), hend.2⟩
        rw [Frame.tally]
        ring
      | signed _ | operand _ _ _ => exact takes_refuse _
  | comma =>
    rw [Token.add_share_of_isSymbol _ h _ rfl, afterOperand]
    rcases hunwind : unwind none p.frames e with ⟨frames, last⟩
    rw [hunwind] at hnone
    cases frames with
    | nil => exact takes_refuse _
    | cons frame frames =>
      rw [framesTally_cons] at hnone
      cases frame with
      | arguments callee read =>
        refine takes_ok (hnone.trans (Kept.trans (kept_of_eq ?_)
          (((kept_append read last).add_left (callee.tally f)).add_left (framesTally f frames))))
          trivial
        rw [Frame.tally]
        ring
      | paren | signed _ | operand _ _ _ => exact takes_refuse _
  | _ => exact hoperator

theorem kept_operand? {focus : Focus} {e : Checked Expr} (he : operand? focus = some e) :
    Kept (focus.tally f) (PromQL.tally (Expr.weight f) e) := by
  have hnone : (none : Option (Checked Expr)) ≠ some e := by simp
  cases focus with
  | identifier _ | metric _ | aggregator _ _ =>
    obtain rfl := Option.some.inj he
    exact Expr.kept_metric _
  | aggregated op arguments =>
    obtain rfl := Option.some.inj he
    refine Kept.trans (kept_of_eq ?_) (Expr.kept_aggregate? op (.ok none) arguments)
    exact (zero_add _).symm
  | offset _ phase =>
    cases phase with
    | complete _ _ =>
      obtain rfl := Option.some.inj he
      exact Expr.kept_offset? _ _ _
    | start | signed _ => exact absurd he hnone
  | complete _ =>
    obtain rfl := Option.some.inj he
    exact kept_of_eq rfl
  | _ => exact absurd he hnone

theorem takes_settle (h : Measure f) (place : Place) {t : Token} (ht : t.Silent f) :
    Takes f (p.tally f + t.share f place) (p.settle t) := by
  rw [settle]
  cases he : operand? p.focus with
  | some e => exact takes_afterOperand h place ht (kept_operand? he)
  | none => exact takes_refuse _

theorem takes_duration {n : ℕ∞} (focus : Checked Duration → Focus)
    (hfocus : ∀ d, (focus d).tally f = n + PromQL.tally (Duration.weight f) d)
    (hsilent : ∀ d, (focus d).Silent f) (t : Token) :
    Takes f (framesTally f p.frames + n + t.share f .length) (match duration? t with
      | some d => p.withFocus (focus d)
      | none => refuse) := by
  cases hd : duration? t with
  | some d =>
    rw [Token.share_duration? hd, add_assoc, ← hfocus]
    exact takes_ok (kept_of_eq rfl) (hsilent d)
  | none => exact takes_refuse _

theorem takes_inBrackets (h : Measure f) (e : Checked Expr) (phase : RangePhase) (t : Token) :
    Takes f (framesTally f p.frames + Focus.tally f (.brackets e phase) +
      t.share f (Focus.place (.brackets e phase))) (p.inBrackets e phase t) := by
  rw [Focus.tally]
  unfold inBrackets
  cases phase with
  | start =>
    rw [RangePhase.tally]
    dsimp only
    split
    · rw [add_assoc]
      exact takes_completed (kept_top _)
    · exact takes_duration (fun d => .brackets e (.length d))
        (fun d => by rw [add_zero]; rfl) (fun _ => trivial) t
  | length length =>
    dsimp only
    split
    · split
      · exact takes_error _ _
      · rw [Token.add_share_of_isSymbol _ h _ rfl]
        exact takes_completed (Expr.kept_range? e length)
    · split
      · exact takes_error _ _
      · rw [Token.add_share_of_isSymbol _ h _ rfl]
        exact takes_ok (kept_of_eq rfl) trivial
    · exact takes_refuse _
  | stepStart length =>
    dsimp only
    split
    · rw [Token.add_share_of_isSymbol _ h _ rfl]
      refine takes_completed (Kept.trans (kept_of_eq ?_) (Expr.kept_subquery? e length (.ok none)))
      exact (add_zero _).symm
    · exact takes_duration (fun d => .brackets e (.step length d))
        (fun d => (add_assoc _ _ _).symm) (fun _ => trivial) t
  | step length step =>
    dsimp only
    split
    · split
      · exact takes_error _ _
      · rw [Token.add_share_of_isSymbol _ h _ rfl]
        refine takes_completed (Kept.trans (kept_of_eq ?_)
          (Expr.kept_subquery? e length (step.map some)))
        rw [tally_map, RangePhase.tally, ← add_assoc]
        rfl
    · exact takes_refuse _

theorem takes_inOffset (h : Measure f) {e : Checked Expr} {phase : OffsetPhase}
    (hp : p.focus = .offset e phase) {t : Token} (ht : t.Silent f) :
    Takes f (framesTally f p.frames + Focus.tally f (.offset e phase) +
      t.share f (Focus.place (.offset e phase))) (p.inOffset e phase t) := by
  have hread : ∀ negative, Takes f
      (framesTally f p.frames + (PromQL.tally (Expr.weight f) e + 0) + t.share f .length)
      (match duration? t with
        | some duration => p.withFocus (.offset e (.complete negative duration))
        | none => refuse) := fun negative =>
    takes_duration (fun d => .offset e (.complete negative d))
      (fun d => by rw [add_zero]; rfl) (fun _ => trivial) t
  have hsettle := takes_settle (p := p) h p.focus.place ht
  rw [Parser.tally, hp, Focus.tally] at hsettle
  rw [Focus.tally]
  unfold inOffset
  cases phase with
  | start =>
    dsimp only
    split
    · rw [Token.add_share_of_isSymbol _ h _ rfl]
      exact takes_ok (kept_of_eq rfl) trivial
    · rw [Token.add_share_of_isSymbol _ h _ rfl]
      exact takes_ok (kept_of_eq rfl) trivial
    · exact hread false
  | signed negative => exact hread negative
  | complete _ _ =>
    dsimp only
    split
    · exact takes_error _ _
    · exact hsettle

theorem takes_time (e : Checked Expr) (before : Bool) (t : Token) :
    Takes f (framesTally f p.frames + (PromQL.tally (Expr.weight f) e + 0) +
      t.share f (.instant before)) (match number? t with
      | some x => p.completed (Expr.at? e do
          let x ← x
          Instant.ofSeconds before x)
      | none => refuse) := by
  cases hx : number? t with
  | some x =>
    rw [Token.share_instant hx, add_zero, add_assoc]
    exact takes_completed (Expr.kept_at? e _)
  | none => exact takes_refuse _

theorem takes_inAt (h : Measure f) (e : Checked Expr) (phase : AtPhase) {t : Token}
    (ht : t.Silent f) :
    Takes f (framesTally f p.frames + Focus.tally f (.at e phase) +
      t.share f (Focus.place (.at e phase))) (p.inAt e phase t) := by
  rw [Focus.tally]
  unfold inAt
  cases phase with
  | start =>
    dsimp only
    split
    · rw [Token.add_share_of_isSymbol _ h _ rfl]
      exact takes_ok (kept_of_eq rfl) trivial
    · rw [Token.add_share_of_isSymbol _ h _ rfl]
      exact takes_ok (kept_of_eq rfl) trivial
    · rw [ht.add_share_keyword]
      exact takes_ok (kept_of_eq rfl) trivial
    · rw [ht.add_share_keyword]
      exact takes_ok (kept_of_eq rfl) trivial
    · exact takes_time e false t
  | signed before => exact takes_time e before t
  | bound _ =>
    dsimp only
    split
    · rw [Token.add_share_of_isSymbol _ h _ rfl]
      exact takes_ok (kept_of_eq rfl) trivial
    · exact takes_refuse _
  | boundOpened _ =>
    dsimp only
    split
    · rw [Token.add_share_of_isSymbol _ h _ rfl]
      exact takes_completed (Expr.kept_at? e (.ok _))
    · exact takes_refuse _

theorem takes_matchers (h : Measure f) (place : Place)
    (hlabel : textWeight f Selector.metricLabel = 0) (metric : Option String)
    (list : MatcherList) (t : Token) :
    Takes f (framesTally f p.frames + Focus.tally f (.matchers metric list) + t.share f place)
      (match list.step t with
      | .more list => p.withFocus (.matchers metric list)
      | .done groups => p.completed (Expr.selector? metric groups)
      | .refused => refuse) := by
  have hlist := list.goes_step h place hlabel t
  rw [Focus.tally, add_assoc, add_assoc]
  cases hstep : list.step t with
  | more next =>
    rw [hstep] at hlist
    exact takes_ok ((Kept.add_left hlist _).add_left _) trivial
  | done groups =>
    rw [hstep] at hlist
    exact takes_completed ((Kept.add_left hlist _).trans (Expr.kept_selector? metric groups))
  | refused => exact takes_refuse _

theorem takes_aggregatorLabels (h : Measure f) (place : Place) (op : Aggregator)
    (arguments : Option (Checked (List Expr))) (excluding : Bool) (list : LabelList) (t : Token) :
    Takes f (framesTally f p.frames +
        Focus.tally f (.aggregatorLabels op arguments excluding list) + t.share f place)
      (match list.step t with
      | .more list => p.withFocus (.aggregatorLabels op arguments excluding list)
      | .done labels =>
        let grouping := Grouping.ofLabels excluding labels
        match arguments with
        | none => p.withFocus (.aggregatorLabelled op grouping)
        | some arguments => p.completed (Expr.aggregate? op (grouping.map some) arguments)
      | .refused => refuse) := by
  have hlist := list.keeps_step h place t
  rw [add_assoc]
  cases arguments with
  | none =>
    rw [Focus.tally]
    cases hstep : list.step t with
    | more next =>
      rw [hstep] at hlist
      exact takes_ok (Kept.add_left hlist _) trivial
    | done labels =>
      rw [hstep] at hlist
      exact takes_ok ((Kept.trans hlist (kept_ofLabels excluding labels)).add_left _) trivial
    | refused => exact takes_refuse _
  | some arguments =>
    rw [Focus.tally, add_assoc]
    cases hstep : list.step t with
    | more next =>
      rw [hstep] at hlist
      exact takes_ok ((Kept.add_left hlist _).add_left _) trivial
    | done labels =>
      rw [hstep] at hlist
      refine takes_completed (Kept.trans ?_ (Expr.kept_aggregate? op
        ((Grouping.ofLabels excluding labels).map some) arguments))
      rw [tally_map, add_comm]
      refine Kept.add_right (Kept.trans hlist ((kept_ofLabels excluding labels).trans ?_)) _
      apply kept_of_eq
      congr 1
      funext g
      simp [Grouping.weight, Leaf.parts, Leaf.texts]
    | refused => exact takes_refuse _

theorem takes_matching (h : Measure f) (left : Checked Expr) (op : Operator)
    (phase : MatchingPhase) {t : Token} (ht : t.Silent f) :
    Takes f (framesTally f p.frames + Focus.tally f (.matching left op phase) +
        t.share f .scalar)
      (match phase.step t with
      | some phase => p.withFocus (.matching left op phase)
      | none =>
        match phase.value? with
        | some matching => startOperand ⟨.operand left op matching :: p.frames, .operand⟩ t
        | none => refuse) := by
  rw [Focus.tally]
  cases hnext : phase.step t with
  | some next =>
    rw [add_assoc, add_assoc]
    exact takes_ok (((MatchingPhase.kept_step h .scalar ht hnext).add_left _).add_left _) trivial
  | none =>
    dsimp only
    cases hmatching : phase.value? with
    | some matching =>
      intro q hq
      have hstart := takes_startOperand
        (p := ⟨.operand left op matching :: p.frames, .operand⟩) h ht q hq
      refine ⟨Kept.trans ?_ hstart.1, hstart.2⟩
      apply Kept.add_right
      rw [framesTally_cons, Frame.tally, add_comm (framesTally f p.frames)]
      exact ((MatchingPhase.kept_value? hmatching).add_left _).add_right _
    | none => exact takes_refuse _

/-- One token adds its share. -/
theorem takes_step (h : Measure f) (hlabel : textWeight f Selector.metricLabel = 0)
    (hp : p.focus.Silent f) {t : Token} (ht : t.Silent f) :
    Takes f (p.tally f + t.share f p.focus.place) (p.step t) := by
  have hsettle : ∀ focus, p.focus = focus →
      Takes f (framesTally f p.frames + focus.tally f + t.share f focus.place) (p.settle t) := by
    rintro _ rfl
    exact takes_settle h p.focus.place ht
  -- The braces of a selector stand behind its name.
  have hbraces : ∀ name, Kept (framesTally f p.frames + textWeight f name)
      (framesTally f p.frames + (weigh f [name] + MatcherList.tally f .opened)) := by
    intro name
    have hopened : MatcherList.tally f .opened = 0 := add_zero 0
    rw [hopened, add_zero]
    exact kept_of_eq (by simp [textWeight])
  have hstart : ∀ (frame : Frame) (n : ℕ∞), frame.tally f = n →
      Takes f (framesTally f p.frames + n + t.share f .scalar)
        (startOperand ⟨frame :: p.frames, .operand⟩ t) := by
    intro frame n hframe
    have hoperand := takes_startOperand (p := ⟨frame :: p.frames, .operand⟩) h ht
    rwa [framesTally_cons, hframe, add_comm n] at hoperand
  rw [step, Parser.tally]
  cases hf : p.focus with
  | operand =>
    rw [Focus.tally, add_zero]
    exact takes_startOperand h ht
  | firstArgument callee =>
    rw [Focus.tally]
    dsimp only
    split
    · rw [Token.add_share_of_isSymbol _ h _ rfl, ← add_zero (callee.tally f)]
      exact takes_endArguments h callee (kept_of_eq rfl)
    · exact hstart (.arguments callee (.ok [])) _ (add_zero _)
  | nextArgument callee read =>
    rw [Focus.tally]
    dsimp only
    split
    · rw [Token.add_share_of_isSymbol _ h _ rfl]
      exact takes_endArguments h callee (kept_top _)
    · refine takes_ok ?_ trivial
      rw [Parser.tally, Focus.tally, tally_error, add_top, add_top]
      exact kept_top _
    · exact hstart (.arguments callee read) _ rfl
  | identifier name =>
    rw [Focus.tally]
    dsimp only
    split
    · rw [Token.add_share_of_isSymbol _ h _ rfl]
      exact takes_ok (kept_of_eq rfl) trivial
    · rw [Token.add_share_of_isSymbol _ h _ rfl]
      exact takes_ok (hbraces name) trivial
    · exact hsettle _ hf
  | metric name =>
    rw [Focus.tally]
    dsimp only
    split
    · rw [Token.add_share_of_isSymbol _ h _ rfl]
      exact takes_ok (hbraces name) trivial
    · exact hsettle _ hf
  | aggregator op name =>
    rw [hf] at hp
    have hname : textWeight f name = 0 := hp
    rw [Focus.tally]
    dsimp only
    split
    · rw [Token.add_share_of_isSymbol _ h _ rfl, hname]
      exact takes_ok (kept_of_eq rfl) trivial
    · rw [ht.add_share_keyword, hname]
      exact takes_ok (kept_of_eq rfl) trivial
    · rw [ht.add_share_keyword, hname]
      exact takes_ok (kept_of_eq rfl) trivial
    · rw [Token.add_share_of_isSymbol _ h _ rfl]
      exact takes_ok (hbraces name) trivial
    · exact hsettle _ hf
  | matchers metric list => exact takes_matchers h .scalar hlabel metric list t
  | aggregatorLabels op arguments excluding list =>
    exact takes_aggregatorLabels h .scalar op arguments excluding list t
  | aggregatorLabelled op grouping =>
    rw [Focus.tally]
    dsimp only
    split
    · rw [Token.add_share_of_isSymbol _ h _ rfl]
      exact takes_ok (kept_of_eq rfl) trivial
    · exact takes_refuse _
  | aggregated op arguments =>
    rw [Focus.tally]
    dsimp only
    split
    · rw [ht.add_share_keyword]
      exact takes_ok (kept_of_eq (by rw [← add_zero (PromQL.tally _ arguments)]; rfl)) trivial
    · rw [ht.add_share_keyword]
      exact takes_ok (kept_of_eq (by rw [← add_zero (PromQL.tally _ arguments)]; rfl)) trivial
    · exact hsettle _ hf
  | matching left op phase => exact takes_matching h left op phase ht
  | brackets e phase => exact takes_inBrackets h e phase t
  | offset e phase => exact takes_inOffset h hf ht
  | «at» e phase => exact takes_inAt h e phase ht
  | complete e => exact takes_afterOperand h .scalar ht (kept_of_eq rfl)

end

/-- All tokens add their shares, each in its place. -/
theorem kept_run (h : Measure f) (hlabel : textWeight f Selector.metricLabel = 0)
    {p q : Parser} {tokens : List Token} (hp : p.focus.Silent f)
    (ht : ∀ t ∈ tokens, t.Silent f) (hrun : p.run tokens = .ok q) :
    Kept (p.tally f + ((p.readings tokens).map (Reading.share f)).sum) (q.tally f) := by
  induction tokens generalizing p with
  | nil =>
    obtain rfl := Except.ok.inj hrun
    exact kept_of_eq (add_zero _)
  | cons t rest ih =>
    obtain ⟨next, hstep, hrun⟩ := exists_step_of_run_cons hrun
    rw [readings, hstep]
    obtain ⟨hkept, hnext⟩ := takes_step h hlabel hp (ht t List.mem_cons_self) next hstep
    have hrest := ih hnext (fun t' ht' => ht t' (List.mem_cons_of_mem t ht')) hrun
    rw [List.map_cons, List.sum_cons, ← add_assoc]
    exact (hkept.add_right _).trans hrest

theorem kept_endOperand {p : Parser} {e : Checked Expr} (h : p.endOperand = .ok e) :
    Kept (p.focus.tally f) (PromQL.tally (Expr.weight f) e) := by
  rcases operand?_of_endOperand h with hoperand | ⟨halt, rfl⟩
  · exact kept_operand? hoperand
  · exact kept_top _

theorem tally_of_finish (h : Measure f) {p : Parser} {e : Expr} (hfinish : p.finish = .ok e) :
    p.tally f = e.weight f := by
  obtain ⟨last, hlast, hunwind⟩ := exists_last_of_finish hfinish
  have hkept := ((kept_endOperand (f := f) hlast).add_left (framesTally f p.frames)).trans
    (kept_unwind h none p.frames last)
  have hframes : framesTally f [] = 0 := rfl
  rw [hunwind, hframes, zero_add] at hkept
  exact hkept (ENat.natCast_ne_top _)

end Parser

/-- What is counted in the parts of a tree is what its tokens are written with, each in the
place where it was read. -/
theorem Expr.weight_of_ofTokens (h : Measure f) (hlabel : textWeight f Selector.metricLabel = 0)
    {tokens : List Token} (ht : ∀ t ∈ tokens, t.Silent f) {e : Expr}
    (he : Expr.ofTokens tokens = .ok e) :
    ((Parser.initial.readings tokens).map (Reading.share f)).sum = e.weight f := by
  obtain ⟨p, hrun, hfinish⟩ := Expr.exists_run_of_ofTokens he
  have hkept := Parser.kept_run h hlabel (p := .initial) trivial ht hrun
  have hinitial : Parser.tally f .initial = 0 := rfl
  rw [Parser.tally_of_finish h hfinish, hinitial, zero_add] at hkept
  exact hkept (ENat.natCast_ne_top _)

end MetricScope.PromQL
