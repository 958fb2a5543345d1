import Highlighter.Proofs.Partition
import Highlighter.Proofs.Reached

/-!
Every place that a highlighting looks at exists. In every state it comes to, in a region or in one
embedded in it, the places it keeps are in order and inside the region, every stretch of text it
looks at can be cut out of the text, and what comes next is something that can come up in the
current scope.
-/

namespace Highlighter

/-- The stretch between two positions can be cut out of a text: in bytes, both are at boundaries of
characters, and they are in order. -/
structure Source.Cuts (source : Source) (text : String) (a b : Nat) : Prop where
  start_valid : String.Pos.Raw.IsValid text ⟨source.byte a⟩
  stop_valid : String.Pos.Raw.IsValid text ⟨source.byte b⟩
  ordered : source.byte a ≤ source.byte b

theorem Source.isValid_byte (text : String) {p : Nat} (h : p ≤ (Source.ofString text).size) :
    String.Pos.Raw.IsValid text ⟨(Source.ofString text).byte p⟩ := by
  let source := Source.ofString text
  have hcut : source.slice 0 p ++ source.slice p source.size = text := by
    rw [source.slice_append (Nat.zero_le _) h]
    exact Source.slice_all text
  have hbyte : (⟨source.byte p⟩ : String.Pos.Raw) = (source.slice 0 p).rawEndPos := by
    rw [source.byte_eq h]
    rfl
  change String.Pos.Raw.IsValid text ⟨source.byte p⟩
  rw [hbyte, ← hcut]
  exact String.Pos.Raw.isValid_rawEndPos.append_right _

theorem Source.cuts_ofString (text : String) {a b : Nat} (hab : a ≤ b)
    (hb : b ≤ (Source.ofString text).size) : (Source.ofString text).Cuts text a b where
  start_valid := isValid_byte text (Nat.le_trans hab hb)
  stop_valid := isValid_byte text hb
  ordered := by
    rcases Nat.lt_or_eq_of_le hab with hlt | rfl
    · exact Nat.le_of_lt ((Source.ofString text).byte_lt_byte hlt hb)
    · exact Nat.le_refl _

namespace Scan

namespace State

/-- From where words are searched in a gap: from its start, and from behind every match on. -/
inductive WordSearch (grammar : Grammar) (source : Source) (start stop : Nat) : Nat → Prop
  | start : WordSearch grammar source start stop start
  | behind {position first last : Nat} (search : WordSearch grammar source start stop position)
      (going : position < stop)
      (found : grammar.word.findSwept? ⟨source.chars, stop⟩ position = some (first, last)) :
      WordSearch grammar source start stop (pastWord first last)

/-- Where the text ends that is searched in a state and in the step from it: at the end of the
region, and for words at the end of the gap. -/
inductive Searches (ctx : Context) (s : State) : Nat → Prop
  | region : Searches ctx s ctx.stop
  | gap {position : Nat} (collects : s.CollectsTo ctx position) : Searches ctx s position

/-- The stretches of text that are looked at in a state and in the step from it. -/
inductive LooksAt (ctx : Context) (s : State) : Nat → Nat → Prop
  /-- A token. -/
  | span {span : Span} (collected : span ∈ s.emitter.spans) : LooksAt ctx s span.start span.stop
  /-- Where the next hit is searched. -/
  | ahead : LooksAt ctx s s.cursor ctx.stop
  /-- A match: an opening that is kept as the closing text, illegal text. -/
  | hit {hit : Hit} {start stop : Nat} (found : s.nextHit? ctx = some (hit, start, stop)) :
      LooksAt ctx s start stop
  /-- Where the character is that is skipped. -/
  | behind {hit : Hit} {start stop : Nat} (found : s.nextHit? ctx = some (hit, start, stop)) :
      LooksAt ctx s start ctx.stop
  /-- What has been passed over. -/
  | gap {position : Nat} (collects : s.CollectsTo ctx position) (some : s.gap < position) :
      LooksAt ctx s s.gap position
  /-- Where the next word is searched. -/
  | words {position stop : Nat} (collects : s.CollectsTo ctx stop)
      (search : WordSearch ctx.grammar ctx.source s.gap stop position) (going : position < stop) :
      LooksAt ctx s position stop
  /-- A word. -/
  | word {position first last stop : Nat} (collects : s.CollectsTo ctx stop)
      (search : WordSearch ctx.grammar ctx.source s.gap stop position) (going : position < stop)
      (found : ctx.grammar.word.findSwept? ⟨ctx.source.chars, stop⟩ position = some (first, last)) :
      LooksAt ctx s first last
  /-- Where the character is that follows an empty match. -/
  | afterWord {position first last stop : Nat} (collects : s.CollectsTo ctx stop)
      (search : WordSearch ctx.grammar ctx.source s.gap stop position) (going : position < stop)
      (found : ctx.grammar.word.findSwept? ⟨ctx.source.chars, stop⟩ position = some (first, last)) :
      LooksAt ctx s last stop
  /-- Where the end of a scope is searched whose text is in another language. -/
  | opened {rule : Rule} {start stop : Nat} (opens : s.Opens ctx rule start stop) :
      LooksAt ctx s stop ctx.stop
  /-- The text of such a scope. -/
  | body {rule : Rule} {start stop : Nat} (opens : s.Opens ctx rule start stop) :
      LooksAt ctx s stop ((s.frame ctx rule start stop).bodyStop ctx.haystack stop)
  /-- The end of such a scope. -/
  | closing {rule : Rule} {start stop first last : Nat} (opens : s.Opens ctx rule start stop)
      (found : (s.frame ctx rule start stop).closing? ctx.haystack stop = some (first, last)) :
      LooksAt ctx s first last

/-- The state in which a step has opened the scope of a rule. -/
def entered (ctx : Context) (s : State) (rule : Rule) (start stop : Nat) : State :=
  (s.arrive ctx rule start).openScope ctx rule start stop

theorem toCourse_entered (ctx : Context) (s : State) (rule : Rule) (start stop : Nat) :
    (s.entered ctx rule start stop).toCourse =
      ⟨stop, stop, s.frame ctx rule start stop :: s.stack, s.done⟩ := by
  rw [entered, toCourse_openScope, stack_arrive, done_arrive,
    frame_congr ctx (s.stack_arrive ctx rule start)]

theorem entered_opened (ctx : Context) (s : State) (rule : Rule) (start stop : Nat) :
    (s.entered ctx rule start stop).stack ≠ [] :=
  openScope_opened ctx _ rule start stop

/-- The states in which the next step closes a scope, with the match that closes it: the state
itself at the end of a scope, and, when it has opened a scope whose text is in another language, the
state behind that text. -/
inductive ClosesIn (ctx : Context) (s : State) : State → Nat → Nat → Prop
  | hit {start stop : Nat} (found : s.nextHit? ctx = some (.closing, start, stop)) :
      ClosesIn ctx s s start stop
  | body {rule : Rule} {language : String} {start stop first last : Nat}
      (opens : s.Opens ctx rule start stop) (embedded : rule.language = some language)
      (found : (s.frame ctx rule start stop).closing? ctx.haystack stop = some (first, last)) :
      ClosesIn ctx s
        (((s.entered ctx rule start stop).collectBody ctx ctx.inside (s.frame ctx rule start stop)
          language (s.entered_opened ctx rule start stop)).advance
            ((s.frame ctx rule start stop).bodyStop ctx.haystack stop)) first last

/-- A step that opens a scope enters it behind what has been passed over. -/
theorem Opens.takeStep_eq {ctx : Context} {s : State} {rule : Rule} {start stop : Nat}
    (opens : s.Opens ctx rule start stop) :
    s.takeStep ctx = (s.arrive ctx rule start).enterScope ctx ctx.inside rule start stop := by
  obtain ⟨index, hit, found⟩ := opens.hit
  exact steps_iff.1 (.rule hit found
    (.enter opens.start_lt_stop opens.opensScope opens.depth_lt_cap))

section Embedded

variable {ctx : Context} {s body : State} {rule : Rule} {language : String} {start stop : Nat}
  (opens : s.Opens ctx rule start stop) (embedded : rule.language = some language)

include opens embedded

/-- A step that opens a scope whose text is in another language collects that text at once, and
closes the scope, if it has an end. -/
theorem Opens.takeStep_of_closed {first last : Nat}
    (collects : CollectsBody ctx ctx.inside (s.entered ctx rule start stop)
      (s.frame ctx rule start stop).kind language stop first body)
    (found : (s.frame ctx rule start stop).closing? ctx.haystack stop = some (first, last)) :
    s.takeStep ctx = (body.advance first).closeScope ctx first last := by
  rw [← frame_congr ctx (s.stack_arrive ctx rule start)] at collects found
  rw [opens.takeStep_eq]
  exact enters_iff.1 (.closed embedded collects found)

theorem Opens.takeStep_of_unclosed
    (collects : CollectsBody ctx ctx.inside (s.entered ctx rule start stop)
      (s.frame ctx rule start stop).kind language stop ctx.stop body)
    (endless : (s.frame ctx rule start stop).closing? ctx.haystack stop = none) :
    s.takeStep ctx = body.advance ctx.stop := by
  rw [← frame_congr ctx (s.stack_arrive ctx rule start)] at collects endless
  rw [opens.takeStep_eq]
  exact enters_iff.1 (.unclosed embedded collects endless)

end Embedded

/-- The step from a state ends with closing the scope that it is said to close. -/
theorem takeStep_of_closesIn {ctx : Context} {s t : State} {first last : Nat}
    (h : s.ClosesIn ctx t first last) : s.takeStep ctx = t.closeScope ctx first last := by
  cases h with
  | hit found => exact steps_iff.1 (.close found)
  | @body rule language start stop _ _ opens embedded found =>
    have hcursor : (s.entered ctx rule start stop).cursor = stop := by rw [toCourse_entered]
    have collects := collectsBody_collectBody ctx ctx.inside (s.entered ctx rule start stop)
      (s.frame ctx rule start stop) language (s.entered_opened ctx rule start stop)
    rw [hcursor, Frame.bodyStop_of_some found] at collects
    rw [Frame.bodyStop_of_some found]
    exact opens.takeStep_of_closed embedded collects found

/-- Every open scope is of a rule whose scanners come only to what can come up in their scopes. -/
def Framed (s : State) : Prop := ∀ frame ∈ s.stack, frame.rule.Sound

theorem Framed.rules_sound {s : State} (h : s.Framed) (ctx : Context) :
    ∀ rule ∈ s.rules ctx, rule.Sound := by
  unfold rules
  split
  · rename_i frame stack hs
    exact (h frame (hs ▸ List.mem_cons_self ..)).inner
  · exact ctx.grammar.rules_sound

/-- What comes next can come up in the current scope. -/
theorem Framed.hit_fits {ctx : Context} {s : State} {hit : Hit} {start stop : Nat} (h : s.Framed)
    (hhit : s.nextHit? ctx = some (hit, start, stop)) :
    hit.fits (s.rules ctx).length (!s.stack.isEmpty) := by
  unfold nextHit? at hhit
  unfold rules
  split at hhit
  · rename_i hs
    obtain ⟨-, -, -, hmem⟩ := Scanner.find?_eq_some hhit
    rw [hs]
    exact ctx.grammar.hits_fit hit hmem
  · rename_i frame stack hs
    have hsound := (h frame (hs ▸ List.mem_cons_self ..)).hits
    rw [hs]
    simp only at hhit
    split at hhit
    · rename_i hfound
      split at hhit
      · cases hhit
        obtain ⟨-, -, -, hmem⟩ := Scanner.find?_eq_some hfound
        exact hsound hit hmem
      · cases hhit
        rfl
    · cases hhit
      rfl
    · obtain ⟨-, -, -, hmem⟩ := Scanner.find?_eq_some hhit
      exact hsound hit hmem

theorem Framed.frame_sound {ctx : Context} {s : State} {rule : Rule} {start stop : Nat}
    (h : s.Framed) (opens : s.Opens ctx rule start stop) :
    (s.frame ctx rule start stop).rule.Sound := by
  obtain ⟨index, -, hrule⟩ := opens.hit
  exact h.rules_sound ctx rule (List.mem_of_getElem? hrule)

theorem Framed.step {ctx : Context} {s : State} (h : s.Framed) (inside : Embedding ctx → Inner) :
    (s.step ctx inside).Framed := by
  intro frame hframe
  rcases stack_step ctx inside s with hsuffix | ⟨rule, start, stop, opens, hstack⟩
  · exact h frame (hsuffix.subset hframe)
  · rw [hstack] at hframe
    rcases List.mem_cons.1 hframe with rfl | hframe
    · exact h.frame_sound opens
    · exact h frame hframe

/-- What is kept in every state of highlighting a region of a text: what has been collected is a
tiling, but for what has been taken out, and the open scopes are sound. -/
structure Placed (text : String) (ctx : Context) (first : Nat) (s : State) : Prop where
  source_eq : ctx.source = Source.ofString text
  stop_le_size : ctx.stop ≤ ctx.source.size
  covers : ∃ middle, first ≤ middle ∧ Covers ctx middle s
  framed : s.Framed

theorem placed_start {text : String} {ctx : Context} {first : Nat}
    (hsource : ctx.source = Source.ofString text) (hsize : ctx.stop ≤ ctx.source.size)
    (hfirst : first ≤ ctx.stop) : Placed text ctx first (start first) where
  source_eq := hsource
  stop_le_size := hsize
  covers := ⟨first, Nat.le_refl _, covers_start hfirst⟩
  framed := fun _ hframe => nomatch hframe

theorem Placed.take {text : String} {ctx : Context} {first : Nat} {s : State} {span : Span}
    {emitter : Emitter} (h : Placed text ctx first s)
    (popped : s.emitter.pop? = some (span, emitter)) :
    Placed text ctx first { s with emitter } := by
  obtain ⟨middle, hfirst, hcovers⟩ := h.covers
  unfold Emitter.pop? at popped
  split at popped
  · rename_i ready hready
    cases popped
    have htiles := hcovers.collected
    simp only [Emitter.spans, hready, List.cons_append] at htiles
    obtain ⟨rfl, hlt, hrest⟩ := htiles
    exact ⟨h.source_eq, h.stop_le_size, ⟨span.stop, by omega, hrest, hcovers.gap_le_cursor,
      hcovers.cursor_le_stop, hcovers.ended⟩, h.framed⟩
  · cases popped

theorem Placed.step {text : String} {ctx : Context} {first : Nat} {s : State}
    (h : Placed text ctx first s) (going : s.done = false) :
    Placed text ctx first (s.takeStep ctx) := by
  obtain ⟨middle, hfirst, hcovers⟩ := h.covers
  exact ⟨h.source_eq, h.stop_le_size,
    ⟨middle, hfirst, step_covers ctx.inside_tiles hcovers going⟩, h.framed.step ctx.inside⟩

theorem Placed.embed {text : String} {ctx : Context} {first : Nat} {s : State}
    (h : Placed text ctx first s) (e : Embedding ctx) :
    Placed text e.context e.start (State.start e.start) :=
  placed_start h.source_eq (Nat.le_trans e.stop_le h.stop_le_size) (Nat.le_of_lt e.start_lt_stop)

/-- Every place that a state of highlighting a region of a text, and the step from it, look at is
inside the region and between characters, and what comes next can come up in the current scope. -/
structure InBounds (text : String) (ctx : Context) (first : Nat) (s : State) : Prop where
  first_le_gap : first ≤ s.gap
  gap_le_cursor : s.gap ≤ s.cursor
  cursor_le_stop : s.cursor ≤ ctx.stop
  byte_stop_le : ctx.source.byte ctx.stop ≤ text.utf8ByteSize
  passed : ctx.source.Cuts text s.gap s.cursor
  searched : ∀ stop, s.Searches ctx stop → stop ≤ ctx.stop ∧ ctx.source.Cuts text 0 stop
  looked : ∀ a b, s.LooksAt ctx a b → first ≤ a ∧ b ≤ ctx.stop ∧ ctx.source.Cuts text a b
  rule_hit : ∀ index start stop, s.nextHit? ctx = some (.rule index, start, stop) →
    index < (s.rules ctx).length
  closing_hit : ∀ start stop, s.nextHit? ctx = some (.closing, start, stop) → s.stack ≠ []
  illegal_hit : ∀ start stop, s.nextHit? ctx = some (.illegal, start, stop) → s.stack = []
  closes : ∀ t start stop, s.ClosesIn ctx t start stop → t.stack ≠ []

theorem le_of_wordSearch {grammar : Grammar} {source : Source} {start stop position : Nat}
    (h : WordSearch grammar source start stop position) : start ≤ position := by
  induction h with
  | start => exact Nat.le_refl _
  | behind search going found ih => exact Nat.le_trans ih (Nat.le_of_lt (lt_pastWord found))

variable {text : String} {ctx : Context} {first : Nat} {s : State}

theorem Placed.bounds (h : Placed text ctx first s) :
    first ≤ s.gap ∧ s.gap ≤ s.cursor ∧ s.cursor ≤ ctx.stop := by
  obtain ⟨middle, hfirst, hcovers⟩ := h.covers
  exact ⟨Nat.le_trans hfirst (le_of_tiles hcovers.collected), hcovers.gap_le_cursor,
    hcovers.cursor_le_stop⟩

theorem Placed.cuts (h : Placed text ctx first s) {a b : Nat} (hab : a ≤ b) (hb : b ≤ ctx.stop) :
    ctx.source.Cuts text a b := by
  have hsize := h.stop_le_size
  rw [h.source_eq] at hsize ⊢
  exact Source.cuts_ofString text hab (Nat.le_trans hb hsize)

theorem Placed.collectsTo_bounds (h : Placed text ctx first s) {position : Nat}
    (collects : s.CollectsTo ctx position) : s.cursor ≤ position ∧ position ≤ ctx.stop := by
  cases collects with
  | hit found =>
    obtain ⟨hcursor, hle, hstop⟩ := nextHit?_bounds found
    exact ⟨hcursor, Nat.le_trans hle hstop⟩
  | stop => exact ⟨h.bounds.2.2, Nat.le_refl _⟩

theorem Placed.lookedAt_bounds (h : Placed text ctx first s) {a b : Nat}
    (looks : s.LooksAt ctx a b) : first ≤ a ∧ a ≤ b ∧ b ≤ ctx.stop := by
  obtain ⟨hfirst, hgap, hcursor⟩ := h.bounds
  cases looks with
  | span collected =>
    obtain ⟨middle, hmiddle, hcovers⟩ := h.covers
    have := bounds_of_tiles hcovers.collected _ collected
    omega
  | ahead => omega
  | hit found =>
    have := nextHit?_bounds found
    omega
  | behind found =>
    have := nextHit?_bounds found
    omega
  | gap collects hlt =>
    have := h.collectsTo_bounds collects
    omega
  | words collects search going =>
    have := h.collectsTo_bounds collects
    have := le_of_wordSearch search
    omega
  | word collects search going found =>
    have := h.collectsTo_bounds collects
    have := le_of_wordSearch search
    have := Regex.findSwept?_bounds found
    simp only at this
    omega
  | afterWord collects search going found =>
    have := h.collectsTo_bounds collects
    have := le_of_wordSearch search
    have := Regex.findSwept?_bounds found
    simp only at this
    omega
  | opened opens =>
    have := opens.bounds
    omega
  | @body rule start _ opens =>
    have hbounds := opens.bounds
    have hle := (s.frame ctx rule start a).le_bodyStop (h := ctx.haystack) hbounds.2.2
    have hstop := (s.frame ctx rule start a).bodyStop_le ctx.haystack a
    simp only [Context.stop_haystack] at hstop
    omega
  | closing opens found =>
    have := opens.bounds
    have := Frame.closing?_bounds found
    simp only [Context.stop_haystack] at this
    omega

theorem Placed.inBounds (h : Placed text ctx first s) : InBounds text ctx first s where
  first_le_gap := h.bounds.1
  gap_le_cursor := h.bounds.2.1
  cursor_le_stop := h.bounds.2.2
  byte_stop_le := (h.cuts (Nat.zero_le _) (Nat.le_refl _)).stop_valid.le_utf8ByteSize
  passed := h.cuts h.bounds.2.1 h.bounds.2.2
  searched := by
    intro stop hsearches
    have hstop : stop ≤ ctx.stop := by
      cases hsearches with
      | region => exact Nat.le_refl _
      | gap collects => exact (h.collectsTo_bounds collects).2
    exact ⟨hstop, h.cuts (Nat.zero_le _) hstop⟩
  looked := by
    intro a b hlooks
    obtain ⟨ha, hab, hb⟩ := h.lookedAt_bounds hlooks
    exact ⟨ha, hb, h.cuts hab hb⟩
  rule_hit := by
    intro index start stop hhit
    simpa [Hit.fits] using h.framed.hit_fits hhit
  closing_hit := fun start stop hhit => opened_of_closing hhit
  illegal_hit := by
    intro start stop hhit
    simpa [Hit.fits] using h.framed.hit_fits hhit
  closes := by
    intro t start stop hcloses
    cases hcloses with
    | hit found => exact opened_of_closing found
    | body opens embedded found => simpa [advance] using s.entered_opened ctx _ _ _

end State

/-- What is kept in every state is kept in those that the highlighting of a text comes to. -/
theorem Reached.placed {grammar : Grammar} {language? : String → Option Grammar}
    {maxDepth : Nat} {text : String} {ctx : Context} {first : Nat} {s : State}
    (h : Reached (Highlighting.start grammar language? maxDepth text).ctx ctx first s) :
    State.Placed text ctx first s := by
  induction h with
  | start => exact State.placed_start rfl (Nat.le_refl _) (Nat.zero_le _)
  | take reached popped ih => exact ih.take popped
  | step reached going ih => exact ih.step going
  | embed reached going embeds ih => exact ih.embed _

/-- Every index is in bounds, in every state that the highlighting of a text comes to, in its own
region and in every region embedded in it. -/
theorem inBounds_of_reached (grammar : Grammar) (language? : String → Option Grammar)
    (maxDepth : Nat) (text : String) {ctx : Context} {first : Nat} {s : State}
    (h : Reached (Highlighting.start grammar language? maxDepth text).ctx ctx first s) :
    State.InBounds text ctx first s :=
  h.placed.inBounds

/-- In bounds after a step in the region between the bars. -/
theorem inBounds_between_bars :
    State.InBounds "|a|" barsEmbedding.context 1 ((State.start 1).takeStep barsEmbedding.context) :=
  inBounds_of_reached .bars (fun _ => some .bars) 32 "|a|"
    ((Reached.start.embed rfl embeds_bars).step rfl)

end Scan

end Highlighter
