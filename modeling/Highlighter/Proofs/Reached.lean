import Highlighter.Highlighting

/-!
The states that a highlighting comes to, in a region and in every region embedded in it. What
highlights an embedded region is asked for one region at most in a step, and for that one only if
the step opens a scope whose text is in another language.
-/

namespace Highlighter

namespace Scan

namespace State

/-- The next step opens the scope of a rule at a match. -/
structure Opens (ctx : Context) (s : State) (rule : Rule) (start stop : Nat) : Prop where
  hit : ∃ index, s.nextHit? ctx = some (.rule index, start, stop) ∧
    (s.rules ctx)[index]? = some rule
  start_lt_stop : start < stop
  opensScope : rule.opensScope = true
  depth_lt_cap : s.depth ctx < ctx.cap

/-- The opening is matched in what is ahead. -/
theorem Opens.bounds {ctx : Context} {s : State} {rule : Rule} {start stop : Nat}
    (opens : s.Opens ctx rule start stop) :
    s.cursor ≤ start ∧ start ≤ stop ∧ stop ≤ ctx.stop := by
  obtain ⟨index, hit, -⟩ := opens.hit
  exact nextHit?_bounds hit

/-- The next step highlights a region in another language: the text of a scope that it opens. -/
structure Embeds (ctx : Context) (s : State) (e : Embedding ctx) : Prop where
  opens : ∃ rule start, s.Opens ctx rule start e.start ∧
    (∃ language, rule.language = some language ∧ ctx.language? language = some e.grammar) ∧
    e.stop = (s.frame ctx rule start e.start).bodyStop ctx.haystack e.start
  base_eq : e.base = s.depth ctx + 1

/-- The next step may collect what has been passed over up to a position: up to what comes next, or
up to the end of the region. -/
inductive CollectsTo (ctx : Context) (s : State) : Nat → Prop
  | hit {hit : Hit} {start stop : Nat} (found : s.nextHit? ctx = some (hit, start, stop)) :
      CollectsTo ctx s start
  | stop : CollectsTo ctx s ctx.stop

/-- A state with the same scopes open opens the same scope. -/
theorem frame_congr {s t : State} (ctx : Context) (h : s.stack = t.stack) (rule : Rule)
    (start stop : Nat) : s.frame ctx rule start stop = t.frame ctx rule start stop := by
  unfold frame kind
  rw [h]

theorem CollectsBody.congr {ctx : Context} {inside inside' : Embedding ctx → Inner} {s t : State}
    {kind : Kind} {language : String} {start stop : Nat}
    (collects : CollectsBody ctx inside s kind language start stop t)
    (h : ∀ e : Embedding ctx, ctx.language? language = some e.grammar → e.start = start →
      e.stop = stop → e.base = s.depth ctx → inside e = inside' e) :
    CollectsBody ctx inside' s kind language start stop t := by
  cases collects with
  | unknown missing => exact .unknown missing
  | adopted e known start_eq stop_eq base_eq =>
    rw [h e known start_eq stop_eq base_eq]
    exact .adopted e known start_eq stop_eq base_eq
  | limited known lt full => exact .limited known lt full
  | empty known le => exact .empty known le

theorem enterScope_congr {ctx : Context} {inside inside' : Embedding ctx → Inner} {s : State}
    {rule : Rule} {start stop : Nat}
    (h : ∀ e : Embedding ctx, (∃ language, rule.language = some language ∧
        ctx.language? language = some e.grammar) → e.start = stop →
      e.stop = (s.frame ctx rule start stop).bodyStop ctx.haystack stop →
      e.base = s.depth ctx + 1 → inside e = inside' e) :
    s.enterScope ctx inside rule start stop = s.enterScope ctx inside' rule start stop := by
  have hcourse := s.toCourse_openScope ctx rule start stop
  have hdepth : (s.openScope ctx rule start stop).depth ctx = s.depth ctx + 1 := by
    rw [depth, hcourse]
    rfl
  have henters := enters_enterScope ctx inside s rule start stop
  generalize s.enterScope ctx inside rule start stop = t at henters
  symm
  apply enters_iff.1
  cases henters with
  | own own => exact .own own
  | closed embedded collects found =>
    refine .closed embedded (collects.congr fun e known hstart hstop hbase => ?_) found
    exact h e ⟨_, embedded, known⟩ hstart (hstop.trans (Frame.bodyStop_of_some found).symm)
      (hbase.trans hdepth)
  | unclosed embedded collects endless =>
    refine .unclosed embedded (collects.congr fun e known hstart hstop hbase => ?_) endless
    exact h e ⟨_, embedded, known⟩ hstart (hstop.trans (Frame.bodyStop_of_none endless).symm)
      (hbase.trans hdepth)

/-- A step depends on what highlights embedded regions only in the region that it embeds. -/
theorem step_congr {ctx : Context} {inside inside' : Embedding ctx → Inner} {s : State}
    (h : ∀ e, s.Embeds ctx e → inside e = inside' e) : s.step ctx inside = s.step ctx inside' := by
  have hsteps : Steps ctx inside s (s.step ctx inside) := steps_iff.2 rfl
  generalize s.step ctx inside = t at hsteps
  symm
  apply steps_iff.1
  cases hsteps with
  | ended none => exact .ended none
  | lost hit none => exact .lost hit none
  | @rule index start stop rule _ hit found takes =>
    refine .rule hit found ?_
    cases takes with
    | skip empty => exact .skip empty
    | refuse lt opens full => exact .refuse lt opens full
    | enter lt opens room =>
      have hstack := s.stack_arrive ctx rule start
      have hsame : (s.arrive ctx rule start).enterScope ctx inside rule start stop =
          (s.arrive ctx rule start).enterScope ctx inside' rule start stop := by
        apply enterScope_congr
        rintro e hlanguage rfl hstop hbase
        rw [frame_congr ctx hstack] at hstop
        rw [depth, hstack] at hbase
        exact h e ⟨⟨rule, start, ⟨⟨index, hit, found⟩, lt, opens, room⟩, hlanguage, hstop⟩, hbase⟩
      rw [hsame]
      exact .enter lt opens room
    | single lt opens => exact .single lt opens
  | close hit => exact .close hit
  | illegal hit => exact .illegal hit

theorem stack_finish_suffix (ctx : Context) (s : State) : (s.finish ctx).stack <:+ s.stack := by
  have hstack := s.stack_flushGap ctx ctx.stop
  unfold finish
  split
  · exact List.suffix_refl _
  · simp only
    split
    · exact hstack ▸ List.suffix_refl _
    · exact List.nil_suffix

theorem stack_skipChar_suffix (ctx : Context) (s : State) (position : Nat) :
    (s.skipChar ctx position).stack <:+ s.stack := by
  unfold skipChar
  split
  · exact List.suffix_refl _
  · exact stack_finish_suffix ctx s

theorem stack_closeScope_suffix (ctx : Context) (s : State) (start stop : Nat)
    (opened : s.stack ≠ []) : (s.closeScope ctx start stop).stack <:+ s.stack := by
  obtain ⟨frame, stack, hs⟩ := List.exists_cons_of_ne_nil opened
  rw [toCourse_closeScope ctx hs, hs]
  exact List.suffix_cons _ _

theorem stack_enterScope (ctx : Context) (inside : Embedding ctx → Inner) (s : State) (rule : Rule)
    (start stop : Nat) :
    (s.enterScope ctx inside rule start stop).stack = s.stack ∨
      (s.enterScope ctx inside rule start stop).stack = s.frame ctx rule start stop :: s.stack := by
  rw [toCourse_enterScope]
  split
  · exact .inr rfl
  · split
    · exact .inl rfl
    · exact .inr rfl

theorem stack_markIllegal_suffix (ctx : Context) (s : State) (start stop : Nat) :
    (s.markIllegal ctx start stop).stack <:+ s.stack := by
  by_cases hlt : start < stop
  · have hstack : (s.markIllegal ctx start stop).stack = s.stack := by
      rw [toCourse_markIllegal hlt]
    exact hstack ▸ List.suffix_refl _
  · rw [markIllegal_of_le (Nat.not_lt.1 hlt)]
    exact stack_skipChar_suffix ctx s start

/-- The scopes open after a step were open before, but for one that the step opened. -/
theorem stack_step (ctx : Context) (inside : Embedding ctx → Inner) (s : State) :
    (s.step ctx inside).stack <:+ s.stack ∨
      ∃ rule start stop, s.Opens ctx rule start stop ∧
        (s.step ctx inside).stack = s.frame ctx rule start stop :: s.stack := by
  have hsteps : Steps ctx inside s (s.step ctx inside) := steps_iff.2 rfl
  generalize s.step ctx inside = t at hsteps
  cases hsteps with
  | ended => exact .inl (stack_finish_suffix ctx s)
  | lost => exact .inl (stack_finish_suffix ctx s)
  | @rule index start stop rule _ hit found takes =>
    have hstack := s.stack_arrive ctx rule start
    cases takes with
    | skip empty => exact .inl (stack_skipChar_suffix ctx _ start)
    | refuse lt opens full =>
      rw [toCourse_refuse]
      exact .inl (List.suffix_refl _)
    | enter lt opens room =>
      rcases stack_enterScope ctx inside (s.arrive ctx rule start) rule start stop with h | h
      · rw [h, hstack]
        exact .inl (List.suffix_refl _)
      · rw [h, hstack, frame_congr ctx hstack]
        exact .inr ⟨rule, start, stop, ⟨⟨index, hit, found⟩, lt, opens, room⟩, rfl⟩
    | single lt opens =>
      rw [toCourse_takeSingle, hstack]
      exact .inl (List.suffix_refl _)
  | close hit => exact .inl (stack_closeScope_suffix ctx s _ _ (opened_of_closing hit))
  | illegal hit => exact .inl (stack_markIllegal_suffix ctx s _ _)

end State

/-- The states that a highlighting with a context comes to: in its own region and in every region
embedded in it, each told by its context and its start. Spans are taken out one by one. -/
inductive Reached (top : Context) : (ctx : Context) → (first : Nat) → State → Prop
  | start : Reached top top 0 (State.start 0)
  | take {ctx : Context} {first : Nat} {s : State} {span : Span} {emitter : Emitter}
      (reached : Reached top ctx first s) (popped : s.emitter.pop? = some (span, emitter)) :
      Reached top ctx first { s with emitter }
  | step {ctx : Context} {first : Nat} {s : State} (reached : Reached top ctx first s)
      (going : s.done = false) : Reached top ctx first (s.takeStep ctx)
  | embed {ctx : Context} {first : Nat} {s : State} {e : Embedding ctx}
      (reached : Reached top ctx first s) (going : s.done = false) (embeds : s.Embeds ctx e) :
      Reached top e.context e.start (State.start e.start)

namespace Reached

/-- Taking the next token leads from state to state. -/
theorem next {top ctx : Context} {first : Nat} {s : State} (h : Reached top ctx first s) :
    Reached top ctx first (s.next ctx).2 := by
  fun_induction s.next ctx with
  | case1 s span emitter popped => exact h.take popped
  | case2 => exact h
  | case3 s popped going ih => exact ih (h.step (Bool.eq_false_iff.2 going))

end Reached

end Scan

/-- A bar opens a scope and a bar closes it. The text between them is in a language of its own. -/
def Rule.bars : Rule where
  kind := some .string
  opening := "[|]"
  ending := .pattern "[|]"
  closing := some (.char (.one '|'))
  inner := []
  scanner := ⟨[(some .closing, .char (.one '|'))]⟩
  caseless := false
  relevance := 1
  openingOutside := false
  closingOutside := false
  language := some "bars"

/-- A letter is a match by itself. -/
def Rule.letter : Rule where
  kind := some .symbol
  opening := "[a-z]"
  ending := .single
  closing := none
  inner := []
  scanner := .none
  caseless := false
  relevance := 1
  openingOutside := false
  closingOutside := false
  language := none

/-- A small language of letters and of text between bars, which may be in this language itself. -/
def Grammar.bars : Grammar where
  name := "bars"
  aliases := []
  category := none
  caseless := false
  supersetOf := none
  keywords := ⟨false, []⟩
  word := .plus true (.char .word)
  rules := [.bars, .letter]
  scanner := ⟨[(some (.rule 0), .char (.one '|')), (some (.rule 1), .char (.range 'a' 'z'))]⟩
  rules_sound := by
    intro rule hrule
    simp only [List.mem_cons, List.not_mem_nil, or_false] at hrule
    rcases hrule with rfl | rfl
    · exact .intro (by simp [Rule.bars]) (by simp [Rule.bars, Scanner.hits, Hit.fits])
    · exact .intro (by simp [Rule.letter]) (by simp [Rule.letter, Scanner.hits, Scanner.none])
  hits_fit := by simp [Scanner.hits, Hit.fits]

namespace Scan

/-- A letter between bars. -/
def barsContext : Context := (Highlighting.start .bars (fun _ => some .bars) 32 "|a|").ctx

/-- The region between the bars. -/
def barsEmbedding : Embedding barsContext where
  grammar := .bars
  start := 1
  stop := 2
  base := 1
  start_lt_stop := by decide
  stop_le := by decide
  lt_base := by decide
  base_lt_cap := by decide

theorem hit_bars : (State.start 0).nextHit? barsContext = some (.rule 0, 0, 1) := by
  change Grammar.bars.scanner.find? ⟨#['|', 'a', '|'], 3⟩ 0 = _
  rw [Scanner.find?, Haystack.first?]
  simp [Grammar.bars, Scanner.hitAt?, Regex.endAt?_char, Regex.CharSet.hasAt, Haystack.char?,
    Regex.CharSet.has]

theorem bodyStop_bars :
    ((State.start 0).frame barsContext .bars 0 1).bodyStop barsContext.haystack 1 = 2 := by
  apply Frame.bodyStop_of_some
  change Regex.find? (.char (.one '|')) ⟨#['|', 'a', '|'], 3⟩ 1 = some (2, 3)
  rw [Regex.find?, Haystack.first?, Haystack.first?]
  simp [Regex.endAt?_char, Regex.CharSet.hasAt, Haystack.char?, Regex.CharSet.has]

theorem embeds_bars : (State.start 0).Embeds barsContext barsEmbedding where
  opens := ⟨.bars, 0, ⟨⟨0, hit_bars, rfl⟩, by decide, rfl, by decide⟩, ⟨"bars", rfl, rfl⟩,
    bodyStop_bars.symm⟩
  base_eq := rfl

end Scan

end Highlighter
