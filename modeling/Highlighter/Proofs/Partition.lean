import Highlighter.Proofs.Draining
import Highlighter.Proofs.Tiling

/-!
The tokens of a text are the text cut into pieces. Each step keeps what has been collected a
tiling, in the region itself and in every region embedded in it, so the whole run does; and spans
that tile a text in characters are tokens that partition it in bytes.
-/

namespace Highlighter

namespace Scan.State

variable {ctx : Context} {inside : Embedding ctx → Inner} {s t : State} {first start stop : Nat}

theorem emitter_finish (hdone : s.done = false) :
    (s.finish ctx).emitter = (s.flushGap ctx ctx.stop).emitter.flush := by
  unfold finish
  rw [hdone]
  simp only [Bool.false_eq_true, ↓reduceIte]
  split <;> rfl

theorem gap_finish (h : Covers ctx first s) (hdone : s.done = false) :
    (s.finish ctx).gap = ctx.stop := by
  have hgap : (s.flushGap ctx ctx.stop).gap = ctx.stop := by
    rw [toCourse_flushGap]
    exact Nat.max_eq_right (Nat.le_trans h.gap_le_cursor h.cursor_le_stop)
  unfold finish
  rw [hdone]
  simp only [Bool.false_eq_true, ↓reduceIte]
  split <;> exact hgap

theorem cursor_finish (hdone : s.done = false) : (s.finish ctx).cursor = ctx.stop := by
  unfold finish
  rw [hdone]
  rfl

theorem finish_covers (h : Covers ctx first s) (hdone : s.done = false) :
    Covers ctx first (s.finish ctx) where
  collected := by
    rw [emitter_finish hdone, Emitter.spans_flush, gap_finish h hdone]
    exact flushGap_tiles ctx h.collected (Nat.le_trans h.gap_le_cursor h.cursor_le_stop)
  gap_le_cursor := Nat.le_of_eq (by rw [gap_finish h hdone, cursor_finish hdone])
  cursor_le_stop := Nat.le_of_eq (cursor_finish hdone)
  ended := fun _ => by
    refine ⟨gap_finish h hdone, ?_⟩
    rw [emitter_finish hdone]
    exact Emitter.growing_flush _

theorem skipChar_covers (h : Covers ctx first s) (hdone : s.done = false) (hp : s.cursor ≤ start) :
    Covers ctx first (s.skipChar ctx start) := by
  unfold skipChar
  split
  · rename_i hlt
    exact ⟨h.collected, by have := h.gap_le_cursor; simp only; omega, hlt, h.ended⟩
  · exact finish_covers h hdone

theorem closeScope_tiles {frame : Frame} {stack : List Frame} (hs : s.stack = frame :: stack)
    (h : Tiles s.emitter.spans first s.gap) (hstart : s.gap ≤ start) (hle : start ≤ stop) :
    Tiles (s.closeScope ctx start stop).emitter.spans first stop := by
  have hflush := (s.stack_flushGap ctx start).trans hs
  have htiles : Tiles ((s.flushGap ctx start).withStack stack).emitter.spans first start :=
    flushGap_tiles ctx h hstart
  unfold closeScope
  simp only [hflush]
  split
  · exact text_tiles (flushIf_tiles htiles _) hle _
  · exact flushIf_tiles (text_tiles htiles hle _) _

theorem closeScope_covers (h : Covers ctx first s) (hdone : s.done = false)
    (opened : s.stack ≠ []) (hstart : s.cursor ≤ start) (hle : start ≤ stop)
    (hstop : stop ≤ ctx.stop) : Covers ctx first (s.closeScope ctx start stop) := by
  obtain ⟨frame, stack, hs⟩ := List.exists_cons_of_ne_nil opened
  have hcourse := toCourse_closeScope ctx hs start stop
  rw [hdone] at hcourse
  exact covers_of_toCourse hcourse
    (closeScope_tiles hs h.collected (Nat.le_trans h.gap_le_cursor hstart) hle) hstop

theorem markIllegal_covers (h : Covers ctx first s) (hdone : s.done = false)
    (hstart : s.cursor ≤ start) (hstop : stop ≤ ctx.stop) :
    Covers ctx first (s.markIllegal ctx start stop) := by
  by_cases hlt : start < stop
  · have hcourse : (s.markIllegal ctx start stop).toCourse = ⟨stop, stop, s.stack, false⟩ := by
      rw [toCourse_markIllegal hlt, hdone]
    refine covers_of_toCourse hcourse ?_ hstop
    unfold markIllegal
    rw [if_neg (by omega)]
    refine text_tiles ?_ (Nat.le_of_lt hlt) _
    apply flushGap_tiles
    · rw [emitter_recordIf, toCourse_recordIf]
      exact h.collected
    · rw [toCourse_recordIf]
      exact Nat.le_trans h.gap_le_cursor hstart
  · rw [markIllegal_of_le (by omega)]
    exact skipChar_covers h hdone hstart

theorem CollectsBody.tiles {kind : Kind} {language : String}
    (collects : CollectsBody ctx inside s kind language start stop t)
    (hin : ∀ e : Embedding ctx, Tiles (inside e).spans e.start e.stop)
    (h : Tiles s.emitter.spans first start) (hle : start ≤ stop) :
    Tiles t.emitter.spans first stop := by
  cases collects with
  | unknown => exact text_tiles h hle _
  | adopted e _ start_eq stop_eq =>
    have hinner := hin e
    rw [start_eq, stop_eq] at hinner
    exact adopt_tiles h hinner _
  | limited =>
    refine text_tiles ?_ hle _
    rw [← emitter_recordIf] at h
    exact h
  | empty _ le => rwa [Nat.le_antisymm le hle]

theorem takeSingle_tiles (rule : Rule) (h : Tiles s.emitter.spans first start)
    (hle : start ≤ stop) : Tiles (s.takeSingle rule start stop).emitter.spans first stop := by
  unfold takeSingle
  simp only
  split
  · exact atom_tiles h hle _
  · exact text_tiles h hle _

theorem openScope_tiles (rule : Rule) (h : Tiles s.emitter.spans first start)
    (hle : start ≤ stop) : Tiles (s.openScope ctx rule start stop).emitter.spans first stop := by
  unfold openScope
  cases rule.openingOutside with
  | true => exact flushIf_tiles (text_tiles h hle _) _
  | false => exact text_tiles (flushIf_tiles h _) hle _

theorem enterScope_covers (hin : ∀ e : Embedding ctx, Tiles (inside e).spans e.start e.stop)
    (rule : Rule) (h : Tiles s.emitter.spans first start) (hdone : s.done = false)
    (hle : start ≤ stop) (hstop : stop ≤ ctx.stop) :
    Covers ctx first (s.enterScope ctx inside rule start stop) := by
  have hcourse := s.toCourse_openScope ctx rule start stop
  rw [hdone] at hcourse
  have htiles : Tiles (s.openScope ctx rule start stop).emitter.spans first stop :=
    openScope_tiles rule h hle
  have henters := enters_enterScope ctx inside s rule start stop
  generalize s.enterScope ctx inside rule start stop = t at henters
  cases henters with
  | own => exact covers_of_toCourse hcourse htiles hstop
  | @closed language body last next embedded collects found =>
    obtain ⟨hlast, hnext, hend⟩ := Frame.closing?_bounds found
    have hbody : (body.advance last).toCourse =
        ⟨last, last, s.frame ctx rule start stop :: s.stack, false⟩ := by
      simp [advance, collects.toCourse_eq, hcourse]
    refine closeScope_covers (covers_of_toCourse hbody (collects.tiles hin htiles hlast)
      (Nat.le_trans hnext hend)) ?_ ?_ ?_ hnext hend
    · rw [hbody]
    · rw [hbody]
      exact List.cons_ne_nil _ _
    · exact Nat.le_of_eq (congrArg Course.gap hbody)
  | @unclosed language body embedded collects endless =>
    have hbody : (body.advance ctx.stop).toCourse =
        ⟨ctx.stop, ctx.stop, s.frame ctx rule start stop :: s.stack, false⟩ := by
      simp [advance, collects.toCourse_eq, hcourse]
    exact covers_of_toCourse hbody (collects.tiles hin htiles hstop) (Nat.le_refl _)

theorem emitter_refuse : (s.refuse ctx start stop).emitter = s.emitter :=
  emitter_recordIf ..

theorem arrive_tiles (rule : Rule) (h : Tiles s.emitter.spans first s.gap) (hgap : s.gap ≤ start) :
    Tiles (s.arrive ctx rule start).emitter.spans first start :=
  flushGap_tiles ctx h hgap

theorem takes_covers (hin : ∀ e : Embedding ctx, Tiles (inside e).spans e.start e.stop)
    {rule : Rule} (htakes : Takes ctx inside s rule start stop t) (h : Covers ctx first s)
    (hdone : s.done = false) (hstart : s.cursor ≤ start) (hstop : stop ≤ ctx.stop) :
    Covers ctx first t := by
  have hgap : s.gap ≤ start := Nat.le_trans h.gap_le_cursor hstart
  have harrive := (s.done_arrive ctx rule start).trans hdone
  cases htakes with
  | skip empty =>
    exact skipChar_covers ⟨h.collected, h.gap_le_cursor, h.cursor_le_stop, h.ended⟩ hdone hstart
  | refuse lt opens full =>
    have hcourse := s.toCourse_refuse ctx start stop
    refine ⟨?_, ?_, ?_, ?_⟩ <;> rw [hcourse]
    · rw [emitter_refuse]
      exact h.collected
    · exact Nat.le_trans hgap (Nat.le_of_lt lt)
    · exact hstop
    · simp [hdone]
  | enter lt opens room =>
    exact enterScope_covers hin rule (arrive_tiles rule h.collected hgap) harrive
      (Nat.le_of_lt lt) hstop
  | single lt opens =>
    have hcourse := (s.arrive ctx rule start).toCourse_takeSingle rule start stop
    rw [harrive] at hcourse
    exact covers_of_toCourse hcourse
      (takeSingle_tiles rule (arrive_tiles rule h.collected hgap) (Nat.le_of_lt lt)) hstop

theorem steps_covers (hin : ∀ e : Embedding ctx, Tiles (inside e).spans e.start e.stop)
    (hsteps : Steps ctx inside s t) (h : Covers ctx first s) (hdone : s.done = false) :
    Covers ctx first t := by
  cases hsteps with
  | ended => exact finish_covers h hdone
  | lost => exact finish_covers h hdone
  | rule hit found takes =>
    obtain ⟨hstart, -, hstop⟩ := nextHit?_bounds hit
    exact takes_covers hin takes h hdone hstart hstop
  | close hit =>
    obtain ⟨hstart, hle, hstop⟩ := nextHit?_bounds hit
    exact closeScope_covers h hdone (opened_of_closing hit) hstart hle hstop
  | illegal hit =>
    obtain ⟨hstart, -, hstop⟩ := nextHit?_bounds hit
    exact markIllegal_covers h hdone hstart hstop

/-- A step keeps what has been collected a tiling, if the embedded regions are tiled. -/
theorem step_covers (hin : ∀ e : Embedding ctx, Tiles (inside e).spans e.start e.stop)
    (h : Covers ctx first s) (hdone : s.done = false) : Covers ctx first (s.step ctx inside) :=
  steps_covers hin (steps_iff.2 rfl) h hdone

/-- Taking the finished spans out leaves the rest. -/
theorem emptied_covers (h : Covers ctx first s) :
    ∃ middle, Tiles s.emitter.ready first middle ∧ Covers ctx middle s.emptied := by
  obtain ⟨middle, hready, hrest⟩ := tiles_append.1 h.collected
  exact ⟨middle, hready, hrest, h.gap_le_cursor, h.cursor_le_stop, h.ended⟩

/-- What is drained continues a tiling up to the end of the region. -/
theorem drain_tiles (hin : ∀ e : Embedding ctx, Tiles (inside e).spans e.start e.stop)
    (found : Array Span) (origin : Nat) (s : State) :
    ∀ first, Tiles found.toList origin first → Covers ctx first s →
      Tiles (s.drain ctx inside found).1.toList origin ctx.stop := by
  fun_induction s.drain ctx inside found with
  | case1 found s found' hdone =>
    intro first hfound h
    obtain ⟨hgap, hgrowing⟩ := h.ended hdone
    have hall : s.emitter.spans = s.emitter.ready := by
      simp [Emitter.spans, hgrowing]
    have htiles := h.collected
    rw [hall, hgap] at htiles
    simpa [found'] using tiles_append.2 ⟨first, hfound, htiles⟩
  | case2 found s found' hdone ih =>
    intro first hfound h
    obtain ⟨middle, hready, hrest⟩ := emptied_covers h
    refine ih middle ?_ (step_covers hin hrest (Bool.eq_false_iff.2 hdone))
    simpa [found'] using tiles_append.2 ⟨first, hfound, hready⟩

end Scan.State

/-- The spans of a region tile it, whatever is embedded in it. -/
theorem Scan.region_tiles (ctx : Scan.Context) {start : Nat} (h : start ≤ ctx.stop) :
    Tiles (Scan.region ctx start).spans start ctx.stop := by
  fun_induction Scan.region ctx start with
  | case1 ctx start spans s hdrain ih =>
    have hin : ∀ e : Scan.Embedding ctx,
        Tiles (Scan.region e.context e.start).spans e.start e.stop :=
      fun e => ih e (Nat.le_of_lt e.start_lt_stop)
    exact Scan.State.drain_tiles hin #[] start _ start rfl (Scan.State.covers_start h)

/-- So do the spans of every region that is embedded in one. -/
theorem Scan.Context.inside_tiles (ctx : Scan.Context) (e : Scan.Embedding ctx) :
    Tiles (ctx.inside e).spans e.start e.stop :=
  Scan.region_tiles e.context (Nat.le_of_lt e.start_lt_stop)

/-- The token is the part of a text that its range names, in bytes. -/
def Token.IsSlice (t : Token) (text : String) : Prop :=
  ∃ before after, text = before ++ t.text ++ after ∧
    before.utf8ByteSize = t.start ∧ (before ++ t.text).utf8ByteSize = t.stop

/-- The tokens are a text cut into pieces. -/
structure Partitions (text : String) (tokens : List Token) : Prop where
  starts : ∀ t ∈ tokens.head?, t.start = 0
  meet : ∀ i t u, tokens[i]? = some t → tokens[i + 1]? = some u → u.start = t.stop
  stops : ∀ t ∈ tokens.getLast?, t.stop = text.utf8ByteSize
  nonempty : ∀ t ∈ tokens, t.start < t.stop
  sliced : ∀ t ∈ tokens, t.IsSlice text
  join : String.join (tokens.map Token.text) = text
  none : text = "" → tokens = []

theorem Source.join_slices (source : Source) {spans : List Span} {a b : Nat} (h : Tiles spans a b) :
    String.join (spans.map fun span => source.slice span.start span.stop) = source.slice a b := by
  induction spans generalizing a with
  | nil =>
    cases h
    rw [source.slice_self]
    rfl
  | cons span spans ih =>
    obtain ⟨rfl, hlt, hrest⟩ := h
    rw [List.map_cons, String.join_cons, ih hrest,
      source.slice_append (Nat.le_of_lt hlt) (le_of_tiles hrest)]

theorem Source.isSlice_token (text : String) {span : Span} (hle : span.start ≤ span.stop)
    (hstop : span.stop ≤ (Source.ofString text).size) :
    ((Source.ofString text).token span).IsSlice text := by
  let source := Source.ofString text
  have hfront : source.slice 0 span.start ++ source.slice span.start span.stop =
      source.slice 0 span.stop := source.slice_append (Nat.zero_le _) hle
  refine ⟨source.slice 0 span.start, source.slice span.stop source.size, ?_, ?_, ?_⟩
  · calc
      text = source.slice 0 source.size := (Source.slice_all text).symm
      _ = source.slice 0 span.stop ++ source.slice span.stop source.size :=
        (source.slice_append (Nat.zero_le _) hstop).symm
      _ = _ := by rw [← hfront]; rfl
  · exact (source.byte_eq (Nat.le_trans hle hstop)).symm
  · change (source.slice 0 span.start ++ source.slice span.start span.stop).utf8ByteSize = _
    rw [hfront]
    exact (source.byte_eq hstop).symm

/-- Spans that tile a text in characters are tokens that partition it in bytes. -/
theorem partitions_of_tiles (text : String) {spans : List Span}
    (h : Tiles spans 0 (Source.ofString text).size) :
    Partitions text (spans.map (Source.ofString text).token) where
  starts := by
    intro t ht
    rw [List.head?_map] at ht
    obtain ⟨span, hspan, rfl⟩ := Option.map_eq_some_iff.1 ht
    change (Source.ofString text).byte span.start = 0
    rw [start_of_tiles h span hspan, Source.byte_eq _ (Nat.zero_le _), Source.slice_self]
    rfl
  meet := by
    intro i t u ht hu
    rw [List.getElem?_map] at ht hu
    obtain ⟨x, hx, rfl⟩ := Option.map_eq_some_iff.1 ht
    obtain ⟨y, hy, rfl⟩ := Option.map_eq_some_iff.1 hu
    exact congrArg (Source.ofString text).byte (adjacent_of_tiles h hx hy)
  stops := by
    intro t ht
    rw [List.getLast?_map] at ht
    obtain ⟨span, hspan, rfl⟩ := Option.map_eq_some_iff.1 ht
    change (Source.ofString text).byte span.stop = _
    rw [stop_of_tiles h span hspan, Source.byte_eq _ (Nat.le_refl _), Source.slice_all]
  nonempty := by
    intro t ht
    obtain ⟨span, hspan, rfl⟩ := List.mem_map.1 ht
    obtain ⟨-, hlt, hstop⟩ := bounds_of_tiles h span hspan
    exact (Source.ofString text).byte_lt_byte hlt hstop
  sliced := by
    intro t ht
    obtain ⟨span, hspan, rfl⟩ := List.mem_map.1 ht
    obtain ⟨-, hlt, hstop⟩ := bounds_of_tiles h span hspan
    exact Source.isSlice_token text (Nat.le_of_lt hlt) hstop
  join := by
    rw [List.map_map]
    exact ((Source.ofString text).join_slices h).trans (Source.slice_all text)
  none := by
    rintro rfl
    cases spans with
    | nil => rfl
    | cons span spans =>
      obtain ⟨-, hlt, hstop⟩ := bounds_of_tiles h span (List.mem_cons_self ..)
      have hzero : (Source.ofString "").size = 0 := rfl
      omega

/-- The tokens of a text partition it, in every grammar, with every way to find embedded languages
and at every depth cap, and they are what the calls for the next token give one after the other. -/
theorem highlight_partitions (grammar : Grammar) (language? : String → Option Grammar)
    (maxDepth : Nat) (text : String) :
    Partitions text (grammar.highlight text language? maxDepth).tokens ∧
      ∀ n, ((Highlighting.start grammar language? maxDepth text).after n).next.1 =
        (grammar.highlight text language? maxDepth).tokens[n]? := by
  let h := Highlighting.start grammar language? maxDepth text
  have hin : ∀ e : Scan.Embedding h.ctx, Tiles (h.ctx.inside e).spans e.start e.stop :=
    fun e => Scan.region_tiles e.context (Nat.le_of_lt e.start_lt_stop)
  have hstart : Scan.State.Covers h.ctx 0 h.state := Scan.State.covers_start (Nat.zero_le _)
  exact ⟨partitions_of_tiles text (Scan.State.drain_tiles hin #[] 0 h.state 0 rfl hstart),
    h.next_after⟩

end Highlighter
