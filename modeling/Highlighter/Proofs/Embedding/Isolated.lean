import Highlighter.Proofs.Candidates
import Highlighter.Proofs.Depth
import Highlighter.Proofs.Embedding.Absorbs
import Highlighter.Proofs.Notes
import Highlighter.Proofs.Twins.Text

/-!
A region in another language and the text around it have no say in each other, but for what is said
here: the scope ends where its own end first matches, whatever its text is; its text is highlighted
without regard to what is behind it; and of what that comes to the scope takes over the spans, the
score, and whether nesting was cut off.
-/

namespace Highlighter

namespace Scan

/-- Where the end of a scope stands that stands at a position. -/
def Frame.endAt? (frame : Frame) (h : Haystack) (p : Nat) : Option Nat :=
  match frame.close with
  | some text => h.spelled? p text
  | none => frame.rule.closing.bind (·.endAt? h p)

/-- The first match of the end of a scope from a position on, if there is one. -/
structure Frame.EndsFirst (frame : Frame) (h : Haystack) (p : Nat) (found : Option (Nat × Nat)) :
    Prop where
  nowhere : found = none → ∀ q, p ≤ q → q ≤ h.stop → frame.endAt? h q = none
  leftmost : ∀ first last, found = some (first, last) → p ≤ first ∧ first ≤ h.stop ∧
    frame.endAt? h first = some last ∧ ∀ q, p ≤ q → q < first → frame.endAt? h q = none

theorem Frame.closing?_eq_first? (frame : Frame) (h : Haystack) (p : Nat) :
    frame.closing? h p = h.first? (frame.endAt? h) p := by
  have hend : ∀ text, frame.close = text → frame.endAt? h = fun q =>
      (match text with
        | some text => h.spelled? q text
        | none => frame.rule.closing.bind (·.endAt? h q)) := by
    rintro _ rfl
    rfl
  unfold closing? literalHit?
  rw [hend _ rfl]
  cases frame.close with
  | some text => rfl
  | none =>
    cases frame.rule.closing with
    | some r => rfl
    | none => exact (Haystack.first?_eq_none.2 fun _ _ _ => rfl).symm

theorem Frame.endsFirst (frame : Frame) (h : Haystack) (p : Nat) :
    frame.EndsFirst h p (frame.closing? h p) := by
  rw [frame.closing?_eq_first?]
  exact ⟨Haystack.first?_eq_none.1, fun first last hfound => Haystack.first?_eq_some hfound⟩

/-- In a compiled grammar a scope is ended by the pattern of its rule, read by itself, or by the
text that it was opened with. -/
theorem Frame.BelongsTo.closing?_eq {g : Grammar} {frame : Frame} (h : frame.BelongsTo g)
    (checked : frame.rule.Checked) :
    ∃ c, frame.closers = [c] ∧ ∀ h p, frame.closing? h p = c.match? h p := by
  have hclosing := checked.closing
  unfold Frame.closers Rule.closers closing? literalHit?
  unfold Rule.closers at hclosing
  obtain ⟨source, hending, hclose⟩ | ⟨text, hending, hclose⟩ := h.ends
  · rw [hending] at hclosing
    refine ⟨.pattern ⟨source, frame.rule.caseless, .closing⟩, by simp [hending, hclose],
      fun h p => ?_⟩
    simp [hclose, hclosing, Candidate.match?]
  · refine ⟨.literal text, by simp [hending, hclose], fun h p => ?_⟩
    simp [hclose, Candidate.match?]

theorem Frame.BelongsTo.closing?_of_compile {g : Grammar} {frame : Frame} (h : frame.BelongsTo g)
    {spec : GrammarSpec} {library : Library} (compiled : spec.compile library = .ok g) :
    ∃ c, frame.closers = [c] ∧ ∀ h p, frame.closing? h p = c.match? h p :=
  h.closing?_eq (Compile.checked_of_compile (Compile.compiles_of_compile compiled).rules h.among)

namespace State

variable {ctx : Context} {s t : State} {rule : Rule} {start stop first last : Nat}

/-- Behind the text of the scope that a step opens, when that has been highlighted in another
language. -/
def behindBody (ctx : Context) (s : State) (rule : Rule) (start : Nat) (e : Embedding ctx) : State :=
  ((s.entered ctx rule start e.start).adopt (s.frame ctx rule start e.start).kind
    (ctx.inside e)).advance e.stop

/-- At the end of the region nothing is opened any more. -/
theorem not_opens_of_cursor (h : s.cursor = ctx.stop) : ¬s.Opens ctx rule start stop := by
  intro opens
  have := opens.bounds
  have := opens.start_lt_stop
  omega

/-- At the end of the region a step ends it, where it may pass over an empty match, or it closes a
scope. -/
theorem takeStep_of_cursor (h : s.cursor = ctx.stop) :
    s.takeStep ctx = s.finish ctx ∨ (∃ event, s.takeStep ctx = (s.record event).finish ctx) ∨
      ∃ start stop, s.nextHit? ctx = some (.closing, start, stop) ∧
        s.takeStep ctx = s.closeScope ctx start stop := by
  have hskip : ∀ (s : State) (position : Nat), ctx.stop ≤ position →
      s.skipChar ctx position = s.finish ctx := fun s position hp => if_neg (Nat.not_lt.2 hp)
  have hempty : ∀ {hit start stop}, s.nextHit? ctx = some (hit, start, stop) →
      ctx.stop ≤ start ∧ stop ≤ start := by
    intro hit start stop hhit
    have := nextHit?_bounds hhit
    omega
  have hsteps : Steps ctx ctx.inside s (s.takeStep ctx) := steps_iff.2 rfl
  generalize s.takeStep ctx = t at hsteps
  cases hsteps with
  | ended => exact .inl rfl
  | lost => exact .inl rfl
  | rule hit found takes =>
    obtain ⟨hstart, hle⟩ := hempty hit
    cases takes with
    | skip => exact .inr (.inl ⟨_, hskip _ _ hstart⟩)
    | refuse lt | enter lt | single lt => omega
  | close hit => exact .inr (.inr ⟨_, _, hit, rfl⟩)
  | illegal hit =>
    obtain ⟨hstart, hle⟩ := hempty hit
    rw [markIllegal_of_le hle]
    exact .inl (hskip s _ hstart)

theorem step_of_cursor (h : s.cursor = ctx.stop) :
    (s.takeStep ctx).done = true ∨ ∃ frame, s.stack = frame :: (s.takeStep ctx).stack := by
  rcases takeStep_of_cursor h with hfinish | ⟨event, hfinish⟩ | ⟨start, stop, hit, hclose⟩
  · exact .inl (hfinish ▸ done_finish ctx s)
  · exact .inl (hfinish ▸ done_finish ctx _)
  · obtain ⟨frame, stack, hs⟩ := List.exists_cons_of_ne_nil (opened_of_closing hit)
    exact .inr ⟨frame, by rw [hclose, toCourse_closeScope ctx hs, hs]⟩

/-- A step highlights the text of the scope it opens in another language, and the two have no say in
each other but for this. -/
structure Isolated (ctx : Context) (s : State) (rule : Rule) (start : Nat) (e : Embedding ctx) :
    Prop where
  embeds : s.Embeds ctx e
  /-- The end is fixed before the text is highlighted, as the first match of the end alone. -/
  endsFirst : (s.frame ctx rule start e.start).EndsFirst ctx.haystack e.start
    ((s.frame ctx rule start e.start).closing? ctx.haystack e.start)
  /-- In a compiled grammar that end is the pattern of the rule by itself, or the text of the
  opening. -/
  ownEnd : ∀ (spec : GrammarSpec) (library : Library), spec.compile library = .ok ctx.grammar →
    ∃ c, (s.frame ctx rule start e.start).closers = [c] ∧
      (s.frame ctx rule start e.start).closing? ctx.haystack e.start =
        c.match? ctx.haystack e.start
  stop_eq : e.stop = (s.frame ctx rule start e.start).bodyStop ctx.haystack e.start
  /-- Behind the text the scope is closed there, like any other. -/
  closed : ∀ first last,
    (s.frame ctx rule start e.start).closing? ctx.haystack e.start = some (first, last) →
      s.takeStep ctx = (s.behindBody ctx rule start e).closeScope ctx first last ∧
        (s.takeStep ctx).toCourse = ⟨last, last, s.stack, s.done⟩
  /-- Without an end the text goes on to the end of the region, and no rule of the scope is met. -/
  unclosed : (s.frame ctx rule start e.start).closing? ctx.haystack e.start = none →
    s.takeStep ctx = s.behindBody ctx rule start e ∧
      (s.takeStep ctx).toCourse =
        ⟨ctx.stop, ctx.stop, s.frame ctx rule start e.start :: s.stack, s.done⟩ ∧
      (∀ inner a b, ¬(s.takeStep ctx).Opens ctx inner a b) ∧
      (((s.takeStep ctx).takeStep ctx).done = true ∨
        ((s.takeStep ctx).takeStep ctx).stack = s.stack)
  /-- The spans are taken over: plain ones, and those of the kind of the scope, as its text. -/
  absorbs : Absorbs (s.frame ctx rule start e.start).kind (ctx.inside e).spans
    (s.behindBody ctx rule start e).emitter.spans e.start
      (if rule.openingOutside && rule.kind.isSome then e.start + 1 else e.start)
  /-- The score is added, nesting cut off inside was cut off, and nothing else is taken over. -/
  outcome : (s.takeStep ctx).outcome = { (s.arrive ctx rule start).outcome with
    relevance := (s.arrive ctx rule start).outcome.relevance + (ctx.inside e).outcome.relevance
    depthLimited :=
      (s.arrive ctx rule start).outcome.depthLimited || (ctx.inside e).outcome.depthLimited }
  hits : (s.takeStep ctx).hits = (s.arrive ctx rule start).hits
  /-- What is behind the text has no say in what is made of it. -/
  unseen : ∀ source : Source, (∀ i < e.stop, ctx.source.chars[i]? = source.chars[i]?) →
    (region { e.context with source } e.start).spans.map source.token =
        (ctx.inside e).spans.map ctx.source.token ∧
      (region { e.context with source } e.start).outcome = (ctx.inside e).outcome

theorem outcome_adopt (s : State) (kind : Kind) (inner : Inner) :
    (s.adopt kind inner).outcome = { s.outcome with
      relevance := s.outcome.relevance + inner.outcome.relevance
      depthLimited := s.outcome.depthLimited || inner.outcome.depthLimited } ∧
    (s.adopt kind inner).hits = s.hits := by
  obtain ⟨emitter, hadopt⟩ := s.exists_adopt kind inner
  rw [hadopt]
  exact ⟨rfl, rfl⟩

theorem outcome_openScope (s : State) (ctx : Context) (rule : Rule) (start stop : Nat) :
    (s.openScope ctx rule start stop).outcome = s.outcome ∧
      (s.openScope ctx rule start stop).hits = s.hits := by
  unfold openScope
  cases rule.openingOutside <;> cases rule.kind.isSome <;> exact ⟨rfl, rfl⟩

/-- Closing a scope in front of which nothing is to be collected. -/
theorem outcome_closeScope (h : start ≤ s.gap) (stop : Nat) :
    (s.closeScope ctx start stop).outcome = s.outcome ∧
      (s.closeScope ctx start stop).hits = s.hits := by
  unfold closeScope
  rw [flushGap_of_le h]
  simp only
  split
  · exact ⟨rfl, rfl⟩
  · rename_i frame stack hs
    cases frame.rule.closingOutside <;> cases frame.rule.kind.isSome <;> exact ⟨rfl, rfl⟩

/-- The text of a scope that a step opens grows from the opening on, unless the opening is left to
the text around it. -/
theorem growing_entered (opens : start < stop)
    (inside : (rule.openingOutside && rule.kind.isSome) = false) :
    ∃ span, (s.entered ctx rule start stop).emitter.growing = some span ∧
      span.kind = (s.frame ctx rule start stop).kind := by
  have hframe := frame_congr ctx (s.stack_arrive ctx rule start) rule start stop
  have hkind : (s.arrive ctx rule start).kind = s.kind := by
    unfold kind
    rw [stack_arrive]
  rw [← hframe]
  unfold entered openScope
  cases houtside : rule.openingOutside with
  | false => exact Emitter.growing_text _ opens _
  | true =>
    cases hrule : rule.kind with
    | some k => simp [houtside, hrule] at inside
    | none =>
      obtain ⟨span, hspan, hsame⟩ := (s.arrive ctx rule start).emitter.growing_text opens
        (s.arrive ctx rule start).kind
      refine ⟨span, hspan, ?_⟩
      rw [hsame]
      unfold frame
      simp [hrule]

theorem embedding_eq {e e' : Embedding ctx} (grammar : e.grammar = e'.grammar)
    (start : e.start = e'.start) (stop : e.stop = e'.stop) (base : e.base = e'.base) : e = e' := by
  cases e
  cases e'
  simp_all

/-- In a compiled grammar the scope that a step opens ends with the pattern of its rule, read by
itself, or with the text that it was opened with. -/
theorem Opens.ownEnd (opens : s.Opens ctx rule start stop)
    (belongs : ∀ frame ∈ s.stack, frame.BelongsTo ctx.grammar) {spec : GrammarSpec}
    {library : Library} (compiled : spec.compile library = .ok ctx.grammar) :
    ∃ c, (s.frame ctx rule start stop).closers = [c] ∧
      (s.frame ctx rule start stop).closing? ctx.haystack stop = c.match? ctx.haystack stop := by
  obtain ⟨c, hc, hclosing⟩ := (opens.belongsTo belongs).closing?_of_compile compiled
  exact ⟨c, hc, hclosing _ _⟩

/-- What is made of the text in another language does not depend on what is behind it. -/
theorem inside_unseen (e : Embedding ctx) (hsize : e.stop ≤ ctx.source.size) {source : Source}
    (same : ∀ i < e.stop, ctx.source.chars[i]? = source.chars[i]?) :
    (region { e.context with source } e.start).spans.map source.token =
        (ctx.inside e).spans.map ctx.source.token ∧
      (region { e.context with source } e.start).outcome = (ctx.inside e).outcome := by
  have hsame : (Pairing.texts ctx.source source e.stop).SameText := same
  obtain ⟨hspans, houtcome⟩ := region_eq_of_sameText e.context source same e.start
  refine ⟨?_, houtcome.symm⟩
  rw [← hspans]
  refine List.map_congr_left fun span hspan => ?_
  have hbounds := bounds_of_tiles (ctx.inside_tiles e) span hspan
  exact (hsame.token_eq hsize (Nat.le_of_lt hbounds.2.1) hbounds.2.2).symm

theorem toCourse_behindBody (ctx : Context) (s : State) (rule : Rule) (start : Nat)
    (e : Embedding ctx) : (s.behindBody ctx rule start e).toCourse =
      ⟨e.stop, e.stop, s.frame ctx rule start e.start :: s.stack, s.done⟩ := by
  simp [behindBody, advance, toCourse_entered]

section Embedded

variable {language : String} {e : Embedding ctx}
  (registered : ctx.language? language = some e.grammar)
  (hstop : e.stop = (s.frame ctx rule start e.start).bodyStop ctx.haystack e.start)
  (hbase : e.base = s.depth ctx + 1)

include registered hbase

/-- The text of the scope that a step opens is highlighted in its language. -/
theorem collectsBody_entered : CollectsBody ctx ctx.inside (s.entered ctx rule start e.start)
    (s.frame ctx rule start e.start).kind language e.start e.stop
    ((s.entered ctx rule start e.start).adopt (s.frame ctx rule start e.start).kind
      (ctx.inside e)) :=
  .adopted e registered rfl rfl (hbase.trans (s.depth_entered ctx rule start e.start).symm)

variable (opens : s.Opens ctx rule start e.start) (embedded : rule.language = some language)

include hstop opens embedded

/-- At its end the scope is closed like any other. -/
theorem takeStep_of_closing
    (found : (s.frame ctx rule start e.start).closing? ctx.haystack e.start = some (first, last)) :
    s.takeStep ctx = (s.behindBody ctx rule start e).closeScope ctx first last := by
  obtain rfl : e.stop = first := hstop.trans (Frame.bodyStop_of_some found)
  exact opens.takeStep_of_closed embedded (collectsBody_entered registered hbase) found

/-- Without an end the scope stays open. -/
theorem takeStep_of_unclosed
    (endless : (s.frame ctx rule start e.start).closing? ctx.haystack e.start = none) :
    s.takeStep ctx = s.behindBody ctx rule start e := by
  have hend : e.stop = ctx.stop := hstop.trans (Frame.bodyStop_of_none endless)
  have collects : CollectsBody ctx ctx.inside (s.entered ctx rule start e.start) _ language _
      e.stop _ := collectsBody_entered registered hbase
  rw [hend] at collects
  rw [opens.takeStep_of_unclosed embedded collects endless, behindBody, hend]

/-- With an end or without, no more is noted than when the text has been highlighted. -/
theorem outcome_takeStep_of_embedded :
    (s.takeStep ctx).outcome = (s.behindBody ctx rule start e).outcome ∧
      (s.takeStep ctx).hits = (s.behindBody ctx rule start e).hits := by
  cases hc : (s.frame ctx rule start e.start).closing? ctx.haystack e.start with
  | none =>
    rw [takeStep_of_unclosed registered hstop hbase opens embedded hc]
    exact ⟨rfl, rfl⟩
  | some range =>
    rw [takeStep_of_closing registered hstop hbase opens embedded hc]
    refine outcome_closeScope ?_ _
    rw [toCourse_behindBody, hstop]
    exact Nat.le_of_eq (Frame.bodyStop_of_some hc).symm

/-- A scope without an end is all that is left of the region. -/
theorem unclosed_of_opens
    (endless : (s.frame ctx rule start e.start).closing? ctx.haystack e.start = none) :
    (s.takeStep ctx).toCourse =
        ⟨ctx.stop, ctx.stop, s.frame ctx rule start e.start :: s.stack, s.done⟩ ∧
      (∀ inner a b, ¬(s.takeStep ctx).Opens ctx inner a b) ∧
      (((s.takeStep ctx).takeStep ctx).done = true ∨
        ((s.takeStep ctx).takeStep ctx).stack = s.stack) := by
  have hend : e.stop = ctx.stop := hstop.trans (Frame.bodyStop_of_none endless)
  have hafter : (s.takeStep ctx).toCourse =
      ⟨ctx.stop, ctx.stop, s.frame ctx rule start e.start :: s.stack, s.done⟩ := by
    rw [takeStep_of_unclosed registered hstop hbase opens embedded endless, toCourse_behindBody,
      hend]
  have hatEnd : (s.takeStep ctx).cursor = ctx.stop := by rw [hafter]
  refine ⟨hafter, fun inner a b => not_opens_of_cursor hatEnd, ?_⟩
  refine (step_of_cursor hatEnd).imp_right ?_
  rintro ⟨closed, hstack⟩
  rw [hafter] at hstack
  exact (List.cons.inj hstack).2.symm

end Embedded

/-- A step that opens a scope whose text is in another language is isolated from what it makes of
that text. -/
theorem isolated_of_opens {text : String} {first : Nat} {language : String} {e : Embedding ctx}
    (placed : Placed text ctx first s) (belongs : ∀ frame ∈ s.stack, frame.BelongsTo ctx.grammar)
    (opens : s.Opens ctx rule start e.start) (embedded : rule.language = some language)
    (registered : ctx.language? language = some e.grammar)
    (hstop : e.stop = (s.frame ctx rule start e.start).bodyStop ctx.haystack e.start)
    (hbase : e.base = s.depth ctx + 1) : Isolated ctx s rule start e := by
  obtain ⟨houtcome, hhits⟩ :=
    outcome_takeStep_of_embedded registered hstop hbase opens embedded
  obtain ⟨hadopt, hadopted⟩ := outcome_adopt (s.entered ctx rule start e.start)
    (s.frame ctx rule start e.start).kind (ctx.inside e)
  obtain ⟨hentered, hopened⟩ :=
    (s.arrive ctx rule start).outcome_openScope ctx rule start e.start
  obtain ⟨middle, -, hcovers⟩ := placed.covers
  obtain ⟨hcursor, hle, -⟩ := opens.bounds
  refine
    { embeds := ⟨⟨rule, start, opens, ⟨language, embedded, registered⟩, hstop⟩, hbase⟩
      endsFirst := Frame.endsFirst _ ctx.haystack e.start
      ownEnd := fun spec library compiled => opens.ownEnd belongs compiled
      stop_eq := hstop
      closed := fun first last found => ?_
      unclosed := fun endless =>
        ⟨takeStep_of_unclosed registered hstop hbase opens embedded endless,
          unclosed_of_opens registered hstop hbase opens embedded endless⟩
      absorbs := ?_
      outcome := ?_
      hits := hhits.trans (hadopted.trans hopened)
      unseen := fun source same =>
        inside_unseen e (Nat.le_trans e.stop_le placed.stop_le_size) same }
  · have hstep := takeStep_of_closing registered hstop hbase opens embedded found
    have hcourse := s.toCourse_behindBody ctx rule start e
    refine ⟨hstep, ?_⟩
    rw [hstep, toCourse_closeScope ctx (congrArg Course.stack hcourse), hcourse]
  · refine absorbs_adopt (openScope_tiles rule (arrive_tiles rule hcovers.collected
      (Nat.le_trans hcovers.gap_le_cursor hcursor)) hle) (ctx.inside_tiles e) ?_ ?_
    · split <;> omega
    · intro hjoint
      refine growing_entered opens.start_lt_stop (Bool.eq_false_iff.2 fun houtside => ?_)
      rw [if_pos houtside] at hjoint
      omega
  · rw [houtcome]
    exact hadopt.trans (by rw [entered, hentered])

end State

/-- Wherever a step opens a scope whose text is in another language that is known, and there is text
and room for it, the text is highlighted in that language, isolated from what is around it. -/
theorem isolated_of_reached (grammar : Grammar) (language? : String → Option Grammar)
    (maxDepth : Nat) (text : String) {ctx : Context} {first : Nat} {s : State}
    (reached : Reached (Highlighting.start grammar language? maxDepth text).ctx ctx first s)
    {rule : Rule} {language : String} {embedded : Grammar} {start stop : Nat}
    (opens : s.Opens ctx rule start stop) (named : rule.language = some language)
    (registered : ctx.language? language = some embedded)
    (nonempty : stop < (s.frame ctx rule start stop).bodyStop ctx.haystack stop)
    (room : s.depth ctx + 1 < ctx.cap) :
    ∃ e : Embedding ctx, e.grammar = embedded ∧ e.start = stop ∧ s.Isolated ctx rule start e := by
  let e : Embedding ctx :=
    { grammar := embedded
      start := stop
      stop := (s.frame ctx rule start stop).bodyStop ctx.haystack stop
      base := s.depth ctx + 1
      start_lt_stop := nonempty
      stop_le := Frame.bodyStop_le _ _ _
      lt_base := by
        unfold State.depth
        omega
      base_lt_cap := room }
  exact ⟨e, rfl, rfl, State.isolated_of_opens reached.placed reached.belongsTo opens named
    registered rfl rfl⟩

/-- The letter between the bars is isolated from them. -/
theorem isolated_between_bars : ∃ e : Embedding barsContext, e.grammar = .bars ∧ e.start = 1 ∧
    (State.start 0).Isolated barsContext .bars 0 e :=
  isolated_of_reached .bars (fun _ => some .bars) 32 "|a|" .start
    ⟨⟨0, hit_bars, rfl⟩, by decide, rfl, by decide⟩ rfl rfl
    (Nat.lt_of_lt_of_eq (by decide) bodyStop_bars.symm) (by decide)

end Scan

end Highlighter
