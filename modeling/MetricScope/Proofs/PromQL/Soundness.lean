import MetricScope.Proofs.PromQL.Building
import MetricScope.Proofs.PromQL.Numbers
import MetricScope.Proofs.PromQL.Runs
import MetricScope.Proofs.PromQL.TokenOrder

/-!
# The trees that the parser ends with

Every tree that is read is grammatical. The invariant says of each part of the parser's
state what its value has if it has one: what waits in a frame fits the frames below it,
and what is in focus is one operand. One token keeps the invariant, and so do all.
-/

set_option autoImplicit false

namespace MetricScope.PromQL

open MetricScope.PromQL.Expr (Settled AllGrammatical)

theorem holds_isLiteral {t : Token} {x : Checked Binary64} (h : Parser.number? t = some x) :
    Holds Binary64.IsLiteral x := by
  cases t with
  | number text =>
    obtain rfl := Option.some.inj h
    exact fun _ hx => Literal.isLiteral_number hx
  | duration text =>
    obtain rfl := Option.some.inj h
    exact fun _ hx => Literal.isLiteral_durationSeconds hx
  | _ => exact absurd h (by simp [Parser.number?])

/-- Numbers that were read are written so that they read back. -/
theorem holds_number {t : Token} {x : Checked Binary64} (h : Parser.number? t = some x) :
    Holds Settled (Expr.number? x) := by
  refine (holds_isLiteral h).bind fun x hx => holds_ok ⟨.number ?_, rfl, ?_⟩
  · rw [hx.positive]
    exact numberReadsBack hx
  · rw [Expr.rightBinders, hx.positive]
    rfl

/-- A tree that ends in front of `next` above the given frames. -/
structure Fits (frames : List Frame) (next : Option Operator) (e : Expr) : Prop where
  grammatical : e.Grammatical
  closes : e.ClosesBefore next
  admits : Admits frames e.leftOperators

theorem Expr.Settled.fits {e : Expr} (h : e.Settled) (frames : List Frame)
    (next : Option Operator) : Fits frames next e where
  grammatical := h.grammatical
  closes := h.operand.closesBefore next
  admits := by
    rw [h.operand.1]
    exact admits_nil frames

structure WaitsFor (frames : List Frame) (op : Operator) (e : Expr) : Prop where
  fits : Fits frames (some op) e
  admits : Admits frames [op]

namespace Frame

def Sound (below : List Frame) : Frame → Prop
  | paren | signed _ => True
  | arguments _ read => Holds AllGrammatical read
  | operand left op matching =>
      Holds (WaitsFor below op) left ∧ Holds VectorMatching.IsRead matching

end Frame

def AllSound : List Frame → Prop
  | [] => True
  | f :: frames => f.Sound frames ∧ AllSound frames

theorem Expr.Grammatical.number_neg {x : Binary64} (h : (Expr.number x).Grammatical) :
    (Expr.number x.neg).Grammatical := by
  cases h with
  | number h =>
    refine .number ?_
    cases x with
    | nan => exact h
    | infinite negative | finite negative _ _ =>
      cases negative <;> exact h

namespace Parser

theorem signLevel_lt {operators : List Operator}
    (h : ∀ o ∈ operators, Binder.sign.bindsBefore o = false) {o : Operator}
    (ho : o ∈ operators) : Operator.signLevel < o.level := by
  simpa [Binder.bindsBefore] using h o ho

/-- Operators that a sign leaves their operand to are left it by every binder. -/
theorem admits_of_sign {operators : List Operator}
    (h : ∀ o ∈ operators, Binder.sign.bindsBefore o = false) (frames : List Frame) :
    Admits frames operators := by
  cases frames with
  | nil => trivial
  | cons f frames =>
    intro b _ o ho
    exact Binder.not_bindsBefore_of_lt (signLevel_lt h ho) b

theorem holds_signed? {negative : Bool} {frames : List Frame} {next : Option Operator}
    (hnext : Binder.sign.Closes next) {e : Checked Expr}
    (h : Holds (Fits (.signed negative :: frames) next) e) :
    Holds (Fits frames next) (Expr.signed? negative e) := by
  refine h.bind fun e he => ?_
  have hsign := he.admits .sign rfl
  cases negative with
  | false => exact holds_ok ⟨he.grammatical, he.closes, admits_of_sign hsign frames⟩
  | true =>
    have hnegated : ∀ e : Expr, Fits (.signed true :: frames) next e →
        (∀ x, e ≠ .number x) → Holds (Fits frames next) (Expr.negated e).checked := by
      intro e he hnumber
      refine Expr.holds_checked fun hroot => ⟨.negated he.grammatical (he.admits .sign rfl)
        ?_ hnumber, ?_, admits_nil frames⟩
      · rw [Expr.checkRoot] at hroot
        split at hroot
        · assumption
        · exact absurd hroot (by simp)
      · intro b hb
        rcases List.mem_cons.mp hb with rfl | hb
        · exact hnext
        · exact he.closes b hb
    rw [if_pos rfl]
    cases e with
    | number x =>
      refine holds_ok ⟨he.grammatical.number_neg, ?_, admits_nil frames⟩
      intro b hb
      rw [Expr.rightBinders] at hb
      split at hb
      · obtain rfl := List.mem_singleton.mp hb
        exact hnext
      · exact absurd hb (by simp)
    | string _ | range _ _ => exact holds_error _
    | _ => exact hnegated _ he (by simp)

theorem holds_binary? {left : Checked Expr} {op : Operator}
    {matching : Checked VectorMatching} {frames : List Frame} {next : Option Operator}
    (hnext : (Binder.operator op).Closes next) (hleft : Holds (WaitsFor frames op) left)
    (hmatching : Holds VectorMatching.IsRead matching) {e : Checked Expr}
    (h : Holds (Fits (.operand left op matching :: frames) next) e) :
    Holds (Fits frames next) (Expr.binary? op left matching e) := by
  refine hleft.bind fun l hl => hmatching.bind fun m hm => h.bind fun e he =>
    Expr.holds_checked fun hroot => ?_
  refine ⟨.binary hl.fits.grammatical he.grammatical hm hl.fits.closes
    (he.admits (.operator op) rfl) hroot, ?_, ?_⟩
  · intro b hb
    rcases List.mem_cons.mp hb with rfl | hb
    · exact hnext
    · exact he.closes b hb
  · exact admits_cons.mpr ⟨hl.admits, hl.fits.admits⟩

/-- What is left of the frames and of the operand once everything is closed that takes
its operand in front of `next`. -/
structure Unwound (next : Option Operator) (result : List Frame × Checked Expr) : Prop where
  frames : AllSound result.1
  operand : Holds (Fits result.1 next) result.2
  admits : ∀ op, next = some op → Admits result.1 [op]

theorem unwound_unwind {next : Option Operator} {frames : List Frame} {e : Checked Expr}
    (hf : AllSound frames) (he : Holds (Fits frames next) e) :
    Unwound next (unwind next frames e) := by
  induction frames generalizing e with
  | nil => exact ⟨trivial, he, fun _ _ => trivial⟩
  | cons f frames ih =>
    have hstays : (∀ op, next = some op → Admits (f :: frames) [op]) →
        Unwound next (f :: frames, e) := fun h => ⟨hf, he, h⟩
    cases hb : f.binder? with
    | none =>
      rw [unwind_of_no_binder hb]
      refine hstays fun op _ b hb' => ?_
      rw [hb] at hb'
      exact absurd hb' (by simp)
    | some b =>
      by_cases hcloses : b.Closes next
      · rw [unwind_cons_of_closes hb hcloses]
        refine ih hf.2 ?_
        cases f with
        | signed negative =>
          obtain rfl : Binder.sign = b := Option.some.inj hb
          exact holds_signed? hcloses he
        | operand left op matching =>
          obtain rfl : Binder.operator op = b := Option.some.inj hb
          exact holds_binary? hcloses hf.1.1 hf.1.2 he
        | paren | arguments _ _ => exact absurd hb (by simp [Frame.binder?])
      · cases next with
        | none => exact absurd b.closes_none hcloses
        | some op =>
          have hadmits := admits_of_not_closes hb hcloses frames
          rw [unwind_some_of_admits hadmits]
          refine hstays fun o ho => ?_
          obtain rfl := Option.some.inj ho
          exact hadmits

end Parser

def MatchingPhase.Sound (phase : MatchingPhase) : Prop :=
  ∀ matching, phase = .complete matching → Holds VectorMatching.IsRead matching

namespace Focus

def Sound (frames : List Frame) : Focus → Prop
  | operand | firstArgument _ => True
  | nextArgument _ read => Holds AllGrammatical read
  | identifier name | metric name | aggregator _ name => IsMetricName name
  | matchers name? list => (∀ name ∈ name?, IsMetricName name) ∧ list.Sound
  | aggregatorLabels _ arguments _ _ => ∀ es ∈ arguments, Holds AllGrammatical es
  | aggregatorLabelled _ _ => True
  | aggregated _ arguments => Holds AllGrammatical arguments
  | matching left op phase => Holds (WaitsFor frames op) left ∧ phase.Sound
  | .brackets e _ | .offset e _ | .at e _ | .complete e => Holds Settled e

def inBraces : Focus → Bool
  | matchers _ _ => true
  | _ => false

end Focus

theorem forall_mem_some {α : Type} {P : α → Prop} {a : α} (h : P a) : ∀ b ∈ some a, P b := by
  intro b hb
  obtain rfl := Option.some.inj hb
  exact h

theorem LabelList.step_openBrace (list : LabelList) : list.step .openBrace = .refused := by
  obtain ⟨phase, labels⟩ := list
  cases phase <;> rfl

namespace MatchingPhase

theorem step_openBrace (phase : MatchingPhase) : phase.step .openBrace = none := by
  cases phase <;> simp [step, LabelList.step_openBrace]

theorem sound_of_ne_complete {phase : MatchingPhase} (h : ∀ m, phase ≠ .complete m) :
    phase.Sound :=
  fun m hm => absurd hm (h m)

theorem sound_step {phase next : MatchingPhase} {t : Token} (h : phase.step t = some next) :
    next.Sound := by
  cases phase with
  | labels _ _ list =>
    simp only [step] at h
    cases hlist : list.step t with
    | more _ | done _ =>
      simp only [hlist] at h
      exact Option.some.inj h ▸ sound_of_ne_complete (by simp)
    | refused => simp [hlist] at h
  | groupLabels _ _ _ list =>
    simp only [step] at h
    cases hlist : list.step t with
    | more _ =>
      simp only [hlist] at h
      exact Option.some.inj h ▸ sound_of_ne_complete (by simp)
    | done names =>
      simp only [hlist] at h
      obtain rfl := Option.some.inj h
      intro m hm
      obtain rfl := complete.inj hm
      exact (holds_true _).bind fun g _ => (holds_true _).bind fun names _ =>
        holds_ok fun _ => rfl
    | refused => simp [hlist] at h
  | groupAlone _ list =>
    simp only [step] at h
    cases hlist : list.step t with
    | more _ =>
      simp only [hlist] at h
      exact Option.some.inj h ▸ sound_of_ne_complete (by simp)
    | done _ =>
      simp only [hlist] at h
      obtain rfl := Option.some.inj h
      intro m hm
      obtain rfl := complete.inj hm
      exact holds_error _
    | refused => simp [hlist] at h
  | complete _ => exact absurd h (by simp [step])
  | start | bool | labelled _ _ | group _ _ _ =>
    refine sound_of_ne_complete fun m hm => ?_
    subst hm
    cases t with
    | keyword word _ => cases word <;> exact absurd h (by simp [step])
    | _ => exact absurd h (by simp [step])

theorem Sound.holds_value? {phase : MatchingPhase} (h : phase.Sound)
    {matching : Checked VectorMatching} (hm : phase.value? = some matching) :
    Holds VectorMatching.IsRead matching := by
  cases phase with
  | start | bool =>
    obtain rfl := Option.some.inj hm
    exact holds_ok fun hne => absurd rfl hne
  | labelled returnBool grouping =>
    obtain rfl := Option.some.inj hm
    exact (holds_true _).bind fun g _ => holds_ok fun _ => rfl
  | group returnBool grouping toMany =>
    obtain rfl := Option.some.inj hm
    exact (holds_true _).bind fun g _ => holds_ok fun _ => rfl
  | complete m =>
    obtain rfl := Option.some.inj hm
    exact h m rfl
  | labels _ _ _ | groupLabels _ _ _ _ | groupAlone _ _ => exact absurd hm (by simp [value?])

end MatchingPhase

namespace Parser

structure Sound (p : Parser) : Prop where
  frames : AllSound p.frames
  focus : p.focus.Sound p.frames

def Leads (braces : Bool) (step : Step) : Prop :=
  ∀ p, step = .ok p → p.Sound ∧ p.focus.inBraces = braces

theorem leads_refuse (braces : Bool) : Leads braces refuse := by
  intro p h
  exact absurd h (by simp [refuse])

theorem leads_error (braces : Bool) (halt : Halt ParseError) : Leads braces (.error halt) := by
  intro p h
  exact absurd h (by simp)

theorem leads_ok {braces : Bool} {p : Parser} (hf : AllSound p.frames)
    (h : p.focus.Sound p.frames) (hb : p.focus.inBraces = braces) :
    Leads braces (.ok p) := by
  intro q hq
  obtain rfl := Except.ok.inj hq
  exact ⟨⟨hf, h⟩, hb⟩

section

variable {p : Parser} {braces : Bool}

theorem leads_completed (hf : AllSound p.frames) {e : Checked Expr} (he : Holds Settled e) :
    Leads false (p.completed e) :=
  leads_ok hf he rfl

theorem leads_endArguments (hf : AllSound p.frames) (callee : Callee)
    {arguments : Checked (List Expr)} (h : Holds AllGrammatical arguments) :
    Leads false (p.endArguments callee arguments) := by
  cases callee with
  | function _ => exact leads_completed hf (Expr.holds_call? _ h)
  | aggregator _ grouping =>
    cases grouping with
    | some _ => exact leads_completed hf (Expr.holds_aggregate? _ _ h)
    | none => exact leads_ok hf h rfl

theorem isMetricName_of_isOutside {t : Token} {name : String} (ht : t.IsOutside)
    (hname : t.word? = some name) (h : t.namesMetric = true) : IsMetricName name := by
  obtain ⟨hword, htoken⟩ := ht name hname
  exact ⟨hword, htoken ▸ h⟩

theorem leads_startOperand (hf : AllSound p.frames) {t : Token} (ht : t.IsOutside) :
    Leads (t == .openBrace) (p.startOperand t) := by
  cases t with
  | identifier _ | metricIdentifier _ =>
    exact leads_ok hf (isMetricName_of_isOutside ht rfl rfl) rfl
  | keyword word _ =>
    cases word with
    | aggregator _ => exact leads_ok hf (isMetricName_of_isOutside ht rfl rfl) rfl
    | _ =>
      unfold startOperand
      dsimp only
      split
      next hword => exact leads_ok hf (isMetricName_of_isOutside ht rfl hword) rfl
      next => exact leads_refuse _
  | string _ _ => exact leads_completed hf (Expr.holds_string? _)
  | number text => exact leads_completed hf (holds_number (t := .number text) rfl)
  | duration text => exact leads_completed hf (holds_number (t := .duration text) rfl)
  | openParen => exact leads_ok ⟨trivial, hf⟩ trivial rfl
  | openBrace => exact leads_ok hf ⟨by simp, MatcherList.sound_opened⟩ rfl
  | operator op =>
    cases op with
    | add | sub => exact leads_ok ⟨trivial, hf⟩ trivial rfl
    | _ => exact leads_refuse _
  | _ => exact leads_refuse _

theorem holds_append {read : Checked (List Expr)} {e : Checked Expr}
    (hread : Holds AllGrammatical read) (he : Holds Expr.Grammatical e) :
    Holds AllGrammatical (do
      let read ← read
      let e ← e
      pure (read ++ [e])) := by
  refine hread.bind fun es hes => he.bind fun e he => holds_ok ?_
  intro e' he'
  rcases List.mem_append.mp he' with he' | he'
  · exact hes e' he'
  · obtain rfl := List.mem_singleton.mp he'
    exact he

theorem leads_afterOperand (hf : AllSound p.frames) {e : Checked Expr}
    (he : Holds Settled e) (t : Token) :
    Leads (t == .openBrace) (p.afterOperand e t) := by
  have hunwound : ∀ next, Unwound next (unwind next p.frames e) := fun next =>
    unwound_unwind hf (he.mono fun _ h => h.fits p.frames next)
  have hoperator : Leads (t == .openBrace) ((binaryOperator? t).elim refuse fun op =>
      .ok ⟨(unwind (some op) p.frames e).1,
        .matching (unwind (some op) p.frames e).2 op .start⟩) := by
    cases hop : binaryOperator? t with
    | some op =>
      have hb : (t == .openBrace) = false := by
        rw [beq_eq_false_iff_ne]
        rintro rfl
        exact absurd hop (by simp [binaryOperator?])
      have h := hunwound (some op)
      rw [hb]
      exact leads_ok h.frames ⟨h.operand.mono fun _ hfits => ⟨hfits, h.admits op rfl⟩,
        fun m hm => absurd hm (by simp)⟩ rfl
    | none => exact leads_refuse _
  have hnone := hunwound none
  cases t with
  | openBracket | «at» => exact leads_ok hf he rfl
  | keyword word _ =>
    cases word with
    | offset => exact leads_ok hf he rfl
    | _ => exact hoperator
  | closeParen =>
    rw [afterOperand]
    rcases hunwind : unwind none p.frames e with ⟨frames, last⟩
    rw [hunwind] at hnone
    have hlast := hnone.operand.mono fun _ h => h.grammatical
    cases frames with
    | nil => exact leads_refuse _
    | cons frame frames =>
      cases frame with
      | paren => exact leads_ok hnone.frames.2 (Expr.holds_paren? hlast) rfl
      | arguments callee read =>
        exact leads_endArguments hnone.frames.2 callee (holds_append hnone.frames.1 hlast)
      | signed _ | operand _ _ _ => exact leads_refuse _
  | comma =>
    rw [afterOperand]
    rcases hunwind : unwind none p.frames e with ⟨frames, last⟩
    rw [hunwind] at hnone
    have hlast := hnone.operand.mono fun _ h => h.grammatical
    cases frames with
    | nil => exact leads_refuse _
    | cons frame frames =>
      cases frame with
      | arguments callee read =>
        exact leads_ok hnone.frames.2 (holds_append hnone.frames.1 hlast) rfl
      | paren | signed _ | operand _ _ _ => exact leads_refuse _
  | _ => exact hoperator

theorem holds_operand? {frames : List Frame} {focus : Focus} (h : focus.Sound frames)
    {e : Checked Expr} (he : operand? focus = some e) : Holds Settled e := by
  have hnone : (none : Option (Checked Expr)) ≠ some e := by simp
  cases focus with
  | identifier _ | metric _ | aggregator _ _ => exact Option.some.inj he ▸ Expr.holds_metric h
  | aggregated _ _ => exact Option.some.inj he ▸ Expr.holds_aggregate? _ _ h
  | offset _ phase =>
    cases phase with
    | complete _ _ => exact Option.some.inj he ▸ Expr.holds_offset? h _ _
    | start | signed _ => exact absurd he hnone
  | complete _ => exact Option.some.inj he ▸ h
  | _ => exact absurd he hnone

theorem leads_settle (hp : p.Sound) (t : Token) :
    Leads (t == .openBrace) (p.settle t) := by
  rw [settle]
  cases he : operand? p.focus with
  | some e => exact leads_afterOperand hp.frames (holds_operand? hp.focus he) t
  | none => exact leads_refuse _

theorem leads_duration (hf : AllSound p.frames) (focus : Checked Duration → Focus)
    (hfocus : ∀ d, (focus d).Sound p.frames) (hbraces : ∀ d, (focus d).inBraces = false)
    (t : Token) : Leads (t == .openBrace) (match duration? t with
      | some d => p.withFocus (focus d)
      | none => refuse) := by
  cases hd : duration? t with
  | some d =>
    have hb : (t == .openBrace) = false := by
      rw [beq_eq_false_iff_ne]
      rintro rfl
      exact absurd hd (by simp [duration?])
    rw [hb]
    exact leads_ok hf (hfocus d) (hbraces d)
  | none => exact leads_refuse _

theorem leads_inBrackets (hf : AllSound p.frames) {e : Checked Expr} (he : Holds Settled e)
    (phase : RangePhase) (t : Token) : Leads (t == .openBrace) (p.inBrackets e phase t) := by
  unfold inBrackets
  cases phase with
  | start =>
    dsimp only
    split
    · exact leads_completed hf (holds_error _)
    · exact leads_duration hf (fun d => .brackets e (.length d)) (fun _ => he)
        (fun _ => rfl) _
  | length _ =>
    dsimp only
    split
    · split
      · exact leads_error _ _
      · exact leads_completed hf (Expr.holds_range? he _)
    · split
      · exact leads_error _ _
      · exact leads_ok hf he rfl
    · exact leads_refuse _
  | stepStart length =>
    dsimp only
    split
    · exact leads_completed hf (Expr.holds_subquery? he _ _)
    · exact leads_duration hf (fun d => .brackets e (.step length d)) (fun _ => he)
        (fun _ => rfl) _
  | step _ _ =>
    dsimp only
    split
    · split
      · exact leads_error _ _
      · exact leads_completed hf (Expr.holds_subquery? he _ _)
    · exact leads_refuse _

theorem leads_inOffset (hp : p.Sound) {e : Checked Expr} {phase : OffsetPhase}
    (he : p.focus = .offset e phase) (t : Token) :
    Leads (t == .openBrace) (p.inOffset e phase t) := by
  have hsettled : Holds Settled e := by
    have h := hp.focus
    rw [he] at h
    exact h
  have hread : ∀ negative, Leads (t == .openBrace) (match duration? t with
      | some duration => p.withFocus (.offset e (.complete negative duration))
      | none => refuse) := fun negative =>
    leads_duration hp.frames (fun d => .offset e (.complete negative d))
      (fun _ => hsettled) (fun _ => rfl) t
  unfold inOffset
  cases phase with
  | start =>
    dsimp only
    split
    · exact leads_ok hp.frames hsettled rfl
    · exact leads_ok hp.frames hsettled rfl
    · exact hread false
  | signed negative => exact hread negative
  | complete _ _ =>
    dsimp only
    split
    · exact leads_error _ _
    · exact leads_settle hp t

theorem leads_time (hf : AllSound p.frames) {e : Checked Expr} (he : Holds Settled e)
    (before : Bool) (t : Token) : Leads (t == .openBrace) (match number? t with
      | some x => p.completed (Expr.at? e do
          let x ← x
          Instant.ofSeconds before x)
      | none => refuse) := by
  cases hx : number? t with
  | some x =>
    have hb : (t == .openBrace) = false := by
      rw [beq_eq_false_iff_ne]
      rintro rfl
      exact absurd hx (by simp [number?])
    rw [hb]
    exact leads_completed hf (Expr.holds_at? he _)
  | none => exact leads_refuse _

theorem leads_inAt (hf : AllSound p.frames) {e : Checked Expr} (he : Holds Settled e)
    (phase : AtPhase) (t : Token) : Leads (t == .openBrace) (p.inAt e phase t) := by
  unfold inAt
  cases phase with
  | start =>
    dsimp only
    split
    · exact leads_ok hf he rfl
    · exact leads_ok hf he rfl
    · exact leads_ok hf he rfl
    · exact leads_ok hf he rfl
    · exact leads_time hf he false t
  | signed before => exact leads_time hf he before t
  | bound _ =>
    dsimp only
    split
    · exact leads_ok hf he rfl
    · exact leads_refuse _
  | boundOpened _ =>
    dsimp only
    split
    · exact leads_completed hf (Expr.holds_at? he _)
    · exact leads_refuse _

def bracesAfter (braces : Bool) (t : Token) : Bool :=
  if braces then t != .closeBrace else t == .openBrace

theorem leads_matchers (hf : AllSound p.frames) {metric : Option String}
    {list : MatcherList} (h : Focus.Sound p.frames (.matchers metric list)) (t : Token) :
    Leads (t != .closeBrace) (match list.step t with
      | .more list => p.withFocus (.matchers metric list)
      | .done groups => p.completed (Expr.selector? metric groups)
      | .refused => refuse) := by
  have hsound := MatcherList.sound_step h.2 t
  cases hstep : list.step t with
  | more next =>
    rw [hstep] at hsound
    have hopen : (t != .closeBrace) = true := by simpa using hsound.1
    rw [hopen]
    exact leads_ok hf ⟨h.1, hsound.2⟩ rfl
  | done groups =>
    rw [hstep] at hsound
    obtain ⟨rfl, hread⟩ := hsound
    exact leads_completed hf (Expr.holds_selector? h.1 hread)
  | refused => exact leads_refuse _

theorem leads_aggregatorLabels (hf : AllSound p.frames) (op : Aggregator)
    (arguments : Option (Checked (List Expr))) (excluding : Bool) (list : LabelList)
    (t : Token) : (∀ es ∈ arguments, Holds AllGrammatical es) →
    Leads (t == .openBrace) (match list.step t with
      | .more list => p.withFocus (.aggregatorLabels op arguments excluding list)
      | .done labels =>
        let grouping := Grouping.ofLabels excluding labels
        match arguments with
        | none => p.withFocus (.aggregatorLabelled op grouping)
        | some arguments => p.completed (Expr.aggregate? op (grouping.map some) arguments)
      | .refused => refuse) := by
  intro h
  by_cases hb : t = .openBrace
  · subst hb
    rw [LabelList.step_openBrace]
    exact leads_refuse _
  · rw [beq_eq_false_iff_ne.mpr hb]
    cases list.step t with
    | more next => exact leads_ok hf h rfl
    | done labels =>
      cases arguments with
      | none => exact leads_ok hf trivial rfl
      | some arguments => exact leads_completed hf (Expr.holds_aggregate? _ _ (h _ rfl))
    | refused => exact leads_refuse _

theorem leads_matching (hf : AllSound p.frames) {left : Checked Expr} {op : Operator}
    {phase : MatchingPhase} (h : Focus.Sound p.frames (.matching left op phase)) {t : Token}
    (ht : t.IsOutside) :
    Leads (t == .openBrace) (match phase.step t with
      | some phase => p.withFocus (.matching left op phase)
      | none =>
        match phase.value? with
        | some matching => startOperand ⟨.operand left op matching :: p.frames, .operand⟩ t
        | none => refuse) := by
  cases hnext : phase.step t with
  | some next =>
    have hb : t ≠ .openBrace := by
      rintro rfl
      rw [MatchingPhase.step_openBrace] at hnext
      exact absurd hnext (by simp)
    rw [beq_eq_false_iff_ne.mpr hb]
    exact leads_ok hf ⟨h.1, MatchingPhase.sound_step hnext⟩ rfl
  | none =>
    dsimp only
    cases hmatching : phase.value? with
    | some matching =>
      have hframe : AllSound (.operand left op matching :: p.frames) :=
        ⟨⟨h.1, h.2.holds_value? hmatching⟩, hf⟩
      exact leads_startOperand hframe ht
    | none => exact leads_refuse _

theorem leads_step (hp : p.Sound) {t : Token}
    (ht : p.focus.inBraces = false → t.IsOutside) :
    Leads (bracesAfter p.focus.inBraces t) (p.step t) := by
  have hfocus := hp.focus
  unfold step
  generalize hf : p.focus = focus at ht hfocus ⊢
  cases focus with
  | operand => exact leads_startOperand hp.frames (ht rfl)
  | firstArgument callee =>
    dsimp only
    split
    · exact leads_endArguments hp.frames callee (holds_ok (by simp [AllGrammatical]))
    · have hframe : AllSound (.arguments callee (.ok []) :: p.frames) :=
        ⟨holds_ok (by simp [AllGrammatical]), hp.frames⟩
      exact leads_startOperand hframe (ht rfl)
  | nextArgument callee read =>
    dsimp only
    split
    · exact leads_endArguments hp.frames callee (holds_error _)
    · exact leads_ok hp.frames (holds_error _) rfl
    · have hframe : AllSound (.arguments callee read :: p.frames) := ⟨hfocus, hp.frames⟩
      exact leads_startOperand hframe (ht rfl)
  | identifier name =>
    dsimp only
    split
    · exact leads_ok hp.frames trivial rfl
    · exact leads_ok hp.frames ⟨forall_mem_some hfocus, MatcherList.sound_opened⟩ rfl
    · exact leads_settle hp _
  | metric name =>
    dsimp only
    split
    · exact leads_ok hp.frames ⟨forall_mem_some hfocus, MatcherList.sound_opened⟩ rfl
    · exact leads_settle hp _
  | aggregator op name =>
    dsimp only
    split
    · exact leads_ok hp.frames trivial rfl
    · exact leads_ok hp.frames (fun _ h => absurd h (by simp)) rfl
    · exact leads_ok hp.frames (fun _ h => absurd h (by simp)) rfl
    · exact leads_ok hp.frames ⟨forall_mem_some hfocus, MatcherList.sound_opened⟩ rfl
    · exact leads_settle hp _
  | matchers metric list => exact leads_matchers hp.frames hfocus t
  | aggregatorLabels op arguments excluding list =>
    exact leads_aggregatorLabels hp.frames op arguments excluding list t hfocus
  | aggregatorLabelled op grouping =>
    dsimp only
    split
    · exact leads_ok hp.frames trivial rfl
    · exact leads_refuse _
  | aggregated op arguments =>
    have harguments : ∀ es ∈ some arguments, Holds AllGrammatical es :=
      forall_mem_some hfocus
    dsimp only
    split
    · exact leads_ok hp.frames harguments rfl
    · exact leads_ok hp.frames harguments rfl
    · exact leads_settle hp _
  | matching left op phase => exact leads_matching hp.frames hfocus (ht rfl)
  | brackets e phase => exact leads_inBrackets hp.frames hfocus phase t
  | offset e phase => exact leads_inOffset hp hf t
  | «at» e phase => exact leads_inAt hp.frames hfocus phase t
  | complete e => exact leads_afterOperand hp.frames hfocus t

end

theorem inOrder_bracesAfter {braces : Bool} {t : Token} {rest : List Token}
    (h : Token.InOrder braces (t :: rest)) :
    (braces = false → t.IsOutside) ∧ Token.InOrder (bracesAfter braces t) rest := by
  cases braces with
  | false => exact ⟨fun _ => h.1, h.2⟩
  | true => exact ⟨by simp, h⟩

/-- All tokens of a text, one after the other. -/
theorem sound_run {p q : Parser} {tokens : List Token} (hp : p.Sound)
    (ht : Token.InOrder p.focus.inBraces tokens) (h : p.run tokens = .ok q) : q.Sound := by
  induction tokens generalizing p with
  | nil =>
    obtain rfl := Except.ok.inj h
    exact hp
  | cons t rest ih =>
    obtain ⟨houtside, hrest⟩ := inOrder_bracesAfter ht
    obtain ⟨next, hstep, h⟩ := exists_step_of_run_cons h
    obtain ⟨hnext, hbraces⟩ := leads_step hp houtside next hstep
    exact ih hnext (hbraces ▸ hrest) h

theorem sound_initial : initial.Sound :=
  ⟨trivial, trivial⟩

theorem holds_endOperand {p : Parser} (hp : p.Sound) {e : Checked Expr}
    (h : p.endOperand = .ok e) : Holds Settled e := by
  rcases operand?_of_endOperand h with hoperand | ⟨halt, rfl⟩
  · exact holds_operand? hp.focus hoperand
  · exact holds_error _

theorem grammatical_finish {p : Parser} (hp : p.Sound) {e : Expr} (h : p.finish = .ok e) :
    e.Grammatical := by
  obtain ⟨last, hlast, hunwind⟩ := exists_last_of_finish h
  have hunwound : Unwound none (unwind none p.frames last) :=
    unwound_unwind hp.frames
      ((holds_endOperand hp hlast).mono fun _ h => h.fits p.frames none)
  rw [hunwind] at hunwound
  exact (hunwound.operand e rfl).grammatical

end Parser

/-- A tree that was read from a text is grammatical. -/
theorem Expr.grammatical_of_parse {text : String} {e : Expr} (h : Expr.parse text = .ok e) :
    e.Grammatical := by
  obtain ⟨tokens, htokens, h⟩ := Expr.exists_tokens_of_parse h
  obtain ⟨p, hrun, hfinish⟩ := Expr.exists_run_of_ofTokens h
  exact Parser.grammatical_finish
    (Parser.sound_run Parser.sound_initial (Lexer.inOrder_tokenize htokens) hrun) hfinish

end MetricScope.PromQL
