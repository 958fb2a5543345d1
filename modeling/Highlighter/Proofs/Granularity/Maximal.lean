import Highlighter.Proofs.Embedding.Absorbs
import Highlighter.Proofs.Granularity.Story
import Mathlib.Data.List.Chain

/-!
Plain text is one token wherever it is not interrupted. Where a span that is cut off is never plain,
text that is plain always joins the plain text in front of it, through scopes without a kind, illegal
text, openings that are left to the text, and regions in other languages. The invariant is that a
plain span grows until something else comes: where nothing grows, what was collected last is not plain.
-/

namespace Highlighter

/-- Not both of two spans are plain. -/
def Span.Apart (x y : Span) : Prop := ¬(x.kind = .plain ∧ y.kind = .plain)

theorem Span.isChain_apart_concat {spans : List Span} {span : Span} :
    (spans ++ [span]).IsChain Span.Apart ↔
      spans.IsChain Span.Apart ∧ ∀ last ∈ spans.getLast?, last.Apart span := by
  simp [List.isChain_append]

/-- A grammar in which nothing but text without a kind is plain, and in which the opening of a scope
with a kind is in the scope. -/
structure Grammar.KeepsPlain (g : Grammar) : Prop where
  label : ∀ rule, Rule.Among g.rules rule → rule.kind ≠ some .plain
  opening : ∀ rule, Rule.Among g.rules rule → rule.kind.isSome → rule.openingOutside = false
  keyword : ∀ entry ∈ g.keywords.entries, entry.2.kind ≠ .plain

/-- No word is a keyword that is plain. -/
theorem Grammar.KeepsPlain.find? {g : Grammar} (h : g.KeepsPlain) {word : String}
    {entry : Keyword.Entry} (found : g.keywords.find? word = some entry) : entry.kind ≠ .plain := by
  obtain ⟨before, after, hentries, -⟩ := List.lookup_eq_some_iff.1 found
  exact h.keyword (g.keywords.key word, entry) (by rw [hentries]; simp)

namespace Emitter

/-- What has been collected up to a position of a scope, behind some spans that have been taken out,
has no two plain neighbours, and it is fit for more text of the scope. -/
structure Settles (taken : List Span) (scope : Kind) (position : Nat) (e : Emitter) : Prop where
  apart : (taken ++ e.spans).IsChain Span.Apart
  meets : ∀ span ∈ e.growing, span.stop = position
  /-- Where nothing grows any more, plain text may begin. -/
  edge : e.growing = none → ∀ last ∈ (taken ++ e.spans).getLast?, last.kind ≠ .plain
  /-- Inside a scope with a kind nothing plain grows, so that it can be cut off. -/
  inside : scope ≠ .plain → ∀ span ∈ e.growing, span.kind ≠ .plain

/-- At the beginning nothing has been collected. -/
theorem settles_start (scope : Kind) (position : Nat) : Settles [] scope position {} where
  apart := .nil
  meets := by simp
  edge := by simp [spans]
  inside := by simp

namespace Settles

variable {taken : List Span} {scope k : Kind} {a b : Nat} {e : Emitter}
  (h : e.Settles taken scope a)

include h

theorem text (hab : a ≤ b) (hk : scope ≠ .plain → k ≠ .plain) :
    (e.text k a b).Settles taken scope b := by
  unfold Emitter.text
  split
  · rename_i hle
    rwa [Nat.le_antisymm hle hab]
  · cases hg : e.growing with
    | none =>
      have hspans : e.spans = e.ready := by simp [spans, hg]
      refine ⟨?_, by simp, by simp, by simpa using hk⟩
      simp only [spans, Option.toList_some, ← List.append_assoc, Span.isChain_apart_concat]
      rw [← hspans]
      exact ⟨h.apart, fun last hlast hplain => h.edge hg last hlast hplain.1⟩
    | some span =>
      have hspans : e.spans = e.ready ++ [span] := by simp [spans, hg]
      have hapart := h.apart
      rw [hspans, ← List.append_assoc, Span.isChain_apart_concat] at hapart
      simp only
      by_cases hkind : span.kind = k
      · rw [if_pos ⟨hkind, h.meets span hg⟩]
        refine ⟨?_, by simp, by simp, fun hscope => by simpa [hkind] using hk hscope⟩
        simp only [spans, Option.toList_some, ← List.append_assoc, Span.isChain_apart_concat]
        exact hapart
      · rw [if_neg fun hjoin => hkind hjoin.1]
        refine ⟨?_, by simp, by simp, by simpa using hk⟩
        simp only [spans, Option.toList_some, ready_flush, hg, ← List.append_assoc,
          Span.isChain_apart_concat, List.getLast?_concat, Option.mem_some_iff, forall_eq']
        exact ⟨hapart, fun hplain => hkind (hplain.1.trans hplain.2.symm)⟩

/-- What grows is cut off, if it is not plain. -/
theorem flush (hg : ∀ span ∈ e.growing, span.kind ≠ .plain) (scope' : Kind) :
    e.flush.Settles taken scope' a := by
  refine ⟨by rw [spans_flush]; exact h.apart, by simp [growing_flush], fun _ => ?_,
    by simp [growing_flush]⟩
  rw [spans_flush]
  cases hgrowing : e.growing with
  | none => exact h.edge hgrowing
  | some span =>
    have hspans : e.spans = e.ready ++ [span] := by simp [spans, hgrowing]
    simp only [hspans, ← List.append_assoc, List.getLast?_concat, Option.mem_some_iff, forall_eq']
    exact hg span hgrowing

theorem atom (hab : a < b) (hk : k ≠ .plain) (scope' : Kind) :
    (e.atom k a b).Settles taken scope' b := by
  have hgrowing := growing_atom e k a b
  refine ⟨?_, by simp [hgrowing], fun _ => ?_, by simp [hgrowing]⟩
  · rw [spans_atom e hab, ← List.append_assoc, Span.isChain_apart_concat]
    exact ⟨h.apart, fun last _ hplain => hk hplain.2⟩
  · rw [spans_atom e hab]
    simpa [← List.append_assoc] using hk

/-- A scope with a kind begins with its opening, whatever grew in front of it. -/
theorem opening (hab : a < b) (hk : k ≠ .plain) : (e.flush.text k a b).Settles taken k b := by
  have htext := e.flush_text hab k
  have hspans : (e.flush.text k a b).spans = e.spans ++ [⟨k, a, b⟩] := by
    rw [htext]
    rfl
  refine ⟨?_, by simp [htext], by simp [htext], by simp [htext, hk]⟩
  rw [hspans, ← List.append_assoc, Span.isChain_apart_concat]
  exact ⟨h.apart, fun last _ hplain => hk hplain.2⟩

end Settles

end Emitter

namespace Scan

theorem Labelled.of_suffix {stack stack' : List Frame} (h : Labelled stack')
    (hsuffix : stack <:+ stack') : Labelled stack := by
  induction stack' with
  | nil => exact List.suffix_nil.1 hsuffix ▸ h
  | cons frame rest ih =>
    rcases List.suffix_cons_iff.1 hsuffix with rfl | hrest
    · exact h
    · exact ih h.2 hrest

namespace State

variable {ctx : Context} {s t : State} {taken : List Span} {rule : Rule} {start stop : Nat}

/-- Every step leaves the open scopes with the kinds that their rules give them. -/
theorem labelled_step (inside : Embedding ctx → Inner) (h : Labelled s.stack) :
    Labelled (s.step ctx inside).stack := by
  rcases stack_step ctx inside s with hsuffix | ⟨rule, start, stop, -, hstack⟩
  · exact h.of_suffix hsuffix
  · rw [hstack]
    exact ⟨kind_frame h rule start stop, h⟩

section Actions

variable (keeps : ctx.grammar.KeepsPlain)

include keeps

theorem settles_flushGap {position : Nat} (h : s.emitter.Settles taken s.kind s.gap)
    (hp : s.gap ≤ position) :
    (s.flushGap ctx position).emitter.Settles taken s.kind position := by
  obtain ⟨t, plain, ht, hplain, hflush⟩ :=
    exists_flushGap (P := fun t plain => t.emitter.Settles taken s.kind plain) ctx s position
      (by
        intro outside t plain first last entry hsettles hle hlt _ hentry
        have hkind : s.kind = .plain := by rw [kind, outside]
        rw [hkind] at hsettles ⊢
        rw [emitter_countKeyword]
        exact (hsettles.text hle id).atom hlt (keeps.find? hentry) .plain)
      h
  rw [hflush]
  exact ht.text (hplain hp) id

/-- An open scope whose rule has a kind is not plain. -/
theorem kind_ne_plain_of_labelled {frame : Frame} {stack : List Frame}
    (h : Labelled (frame :: stack)) (belongs : frame.BelongsTo ctx.grammar)
    (labelled : frame.rule.kind.isSome = true) : frame.kind ≠ .plain := by
  obtain ⟨k, hk⟩ := Option.isSome_iff_exists.1 labelled
  have hkind : frame.kind = k := by
    rw [h.1, List.map_cons, Rule.effectiveKind_cons, hk]
    rfl
  rintro hplain
  exact keeps.label frame.rule belongs.among (by rw [hk, ← hkind, hplain])

/-- A scope is closed in front of which everything has been collected. -/
theorem settles_closeScope {frame : Frame} {stack : List Frame} (hs : s.stack = frame :: stack)
    (labelled : Labelled s.stack) (belongs : frame.BelongsTo ctx.grammar)
    (h : s.emitter.Settles taken s.kind s.gap) (hgap : s.gap ≤ start) (hle : start ≤ stop) :
    (s.closeScope ctx start stop).emitter.Settles taken (s.closeScope ctx start stop).kind stop := by
  rw [hs] at labelled
  have hflushed := settles_flushGap keeps h hgap
  have hkind : s.kind = frame.kind := by
    unfold kind
    rw [hs]
  have hstack : (s.closeScope ctx start stop).stack = stack := by
    rw [toCourse_closeScope ctx hs]
  have houter : (s.closeScope ctx start stop).kind = Rule.effectiveKind (stack.map Frame.rule) := by
    have hcanvas := kind_canvas (s := s.closeScope ctx start stop) (hstack.symm ▸ labelled.2)
    rw [← hcanvas, Canvas.kind, canvas, hstack]
  have hopen := (s.stack_flushGap ctx start).trans hs
  rw [hkind] at hflushed
  rw [houter]
  unfold closeScope
  generalize s.flushGap ctx start = u at hopen hflushed
  have hbelow : (u.withStack stack).kind = Rule.effectiveKind (stack.map Frame.rule) :=
    (kind_canvas (s := u.withStack stack) labelled.2).symm
  simp only [hopen, hbelow]
  cases hlabel : frame.rule.kind with
  | none =>
    have hsame : frame.kind = Rule.effectiveKind (stack.map Frame.rule) := by
      rw [labelled.1, List.map_cons, Rule.effectiveKind_cons, hlabel]
      rfl
    rw [← hsame]
    cases frame.rule.closingOutside <;> exact hflushed.text hle id
  | some k =>
    have hne := kind_ne_plain_of_labelled keeps labelled belongs (by rw [hlabel]; rfl)
    cases frame.rule.closingOutside with
    | true => exact (hflushed.flush (hflushed.inside hne) _).text hle id
    | false =>
      have htext := hflushed.text hle fun _ => hne
      exact htext.flush (htext.inside hne) _

theorem settles_openScope (hrule : Rule.Among ctx.grammar.rules rule)
    (h : s.emitter.Settles taken s.kind start) (hlt : start < stop) :
    (s.openScope ctx rule start stop).emitter.Settles taken
      (s.openScope ctx rule start stop).kind stop := by
  have hkind : (s.openScope ctx rule start stop).kind = rule.kind.getD s.kind := by
    unfold kind
    rw [stack_openScope]
    rfl
  rw [hkind]
  unfold openScope
  cases hlabel : rule.kind with
  | none =>
    have hframe : (s.frame ctx rule start stop).kind = s.kind := by
      unfold frame
      rw [hlabel]
      rfl
    simp only [Option.isSome_none, hframe]
    cases rule.openingOutside <;> exact h.text (Nat.le_of_lt hlt) id
  | some k =>
    have hinside := keeps.opening rule hrule (by rw [hlabel]; rfl)
    have hne : k ≠ .plain := fun hplain => keeps.label rule hrule (by rw [hlabel, hplain])
    have hframe : (s.frame ctx rule start stop).kind = k := by
      unfold frame
      rw [hlabel]
      rfl
    simp only [hinside, Option.isSome_some, hframe]
    exact h.opening hlt hne

theorem settles_takeSingle (hrule : Rule.Among ctx.grammar.rules rule)
    (h : s.emitter.Settles taken s.kind start) (hlt : start < stop) :
    (s.takeSingle rule start stop).emitter.Settles taken s.kind stop := by
  unfold takeSingle
  cases hlabel : rule.kind with
  | none => exact h.text (Nat.le_of_lt hlt) id
  | some k =>
    have hne : k ≠ .plain := fun hplain => keeps.label rule hrule (by rw [hlabel, hplain])
    exact h.atom hlt hne _

end Actions

/-- What a scope takes over from an embedded region is not cut off while it is plain, whatever the
region is like. -/
theorem settles_adopt {kind : Kind} {inner : Inner} (h : s.emitter.Settles taken kind start)
    (hinner : Tiles inner.spans start stop) :
    (s.adopt kind inner).emitter.Settles taken kind stop := by
  unfold adopt
  simp only
  generalize inner.spans = spans at hinner
  induction spans generalizing s start with
  | nil =>
    cases hinner
    exact h
  | cons span spans ih =>
    obtain ⟨rfl, hlt, hrest⟩ := hinner
    rw [List.foldl_cons]
    refine ih ?_ hrest
    split
    · exact h.text (Nat.le_of_lt hlt) id
    · rename_i hkept
      exact h.atom hlt (not_or.1 hkept).1 _

/-- The text of a scope in another language is collected as text of the scope. -/
theorem CollectsBody.settles {inside : Embedding ctx → Inner} {kind : Kind} {language : String}
    (collects : CollectsBody ctx inside s kind language start stop t)
    (tiled : ∀ e : Embedding ctx, Tiles (inside e).spans e.start e.stop)
    (h : s.emitter.Settles taken kind start) (hle : start ≤ stop) :
    t.emitter.Settles taken kind stop := by
  cases collects with
  | unknown => exact h.text hle id
  | adopted e _ start_eq stop_eq =>
    have hinner := tiled e
    rw [start_eq, stop_eq] at hinner
    exact settles_adopt h hinner
  | limited =>
    rw [← emitter_recordIf] at h
    exact h.text hle id
  | empty _ le => rwa [Nat.le_antisymm le hle]

/-- No two plain spans of what has been taken out and collected are neighbours, and while the region
is going on more text may follow. -/
def Merged (taken : List Span) (s : State) : Prop :=
  (taken ++ s.emitter.spans).IsChain Span.Apart ∧
    (s.done = false → s.emitter.Settles taken s.kind s.gap)

theorem merged_of_settles (h : s.emitter.Settles taken s.kind s.gap) : s.Merged taken :=
  ⟨h.apart, fun _ => h⟩

/-- An action that leads to a position up to which it has collected everything. -/
theorem merged_of_gap {kind : Kind} {position : Nat} (h : s.emitter.Settles taken kind position)
    (hkind : s.kind = kind) (hgap : s.gap = position) : s.Merged taken := by
  subst hkind hgap
  exact merged_of_settles h

section Steps

variable {inside : Embedding ctx → Inner} (keeps : ctx.grammar.KeepsPlain)

include keeps

theorem merged_finish (h : s.emitter.Settles taken s.kind s.gap) (hgap : s.gap ≤ ctx.stop)
    (going : s.done = false) : (s.finish ctx).Merged taken := by
  refine ⟨?_, fun hdone => by rw [done_finish] at hdone; cases hdone⟩
  rw [emitter_finish going, Emitter.spans_flush]
  exact (settles_flushGap keeps h hgap).apart

theorem merged_skipChar (h : s.emitter.Settles taken s.kind s.gap) (hgap : s.gap ≤ ctx.stop)
    (going : s.done = false) (position : Nat) : (s.skipChar ctx position).Merged taken := by
  unfold skipChar
  split
  · exact merged_of_settles h
  · exact merged_finish keeps h hgap going

theorem merged_markIllegal (outside : s.stack = []) (h : s.emitter.Settles taken s.kind s.gap)
    (hgap : s.gap ≤ start) (hstart : start ≤ ctx.stop) (going : s.done = false) :
    (s.markIllegal ctx start stop).Merged taken := by
  by_cases hlt : start < stop
  · have hkind : (s.markIllegal ctx start stop).kind = .plain := by
      unfold kind
      rw [toCourse_markIllegal hlt, outside]
    have hplain : s.kind = .plain := by
      unfold kind
      rw [outside]
    refine merged_of_gap ?_ hkind (by rw [toCourse_markIllegal hlt])
    unfold markIllegal
    rw [if_neg (Nat.not_le.2 hlt)]
    simp only
    generalize (Event.metIllegal ctx.grammar.name (ctx.source.slice start stop)
      (ctx.source.byte start)) = event
    have hflushed : ((s.recordIf (!s.outcome.illegal) event).flushGap ctx start).emitter.Settles taken
        .plain start := by
      rw [← hplain]
      cases s.outcome.illegal with
      | true => exact settles_flushGap keeps h hgap
      | false => exact settles_flushGap (s := s.record event) keeps h hgap
    exact hflushed.text (Nat.le_of_lt hlt) fun hne => absurd rfl hne
  · rw [markIllegal_of_le (Nat.not_lt.1 hlt)]
    exact merged_skipChar keeps h (Nat.le_trans hgap hstart) going start

theorem merged_enterScope (tiled : ∀ e : Embedding ctx, Tiles (inside e).spans e.start e.stop)
    (labelled : Labelled s.stack) (belongs : (s.frame ctx rule start stop).BelongsTo ctx.grammar)
    (h : s.emitter.Settles taken s.kind start) (hlt : start < stop) (hstop : stop ≤ ctx.stop) :
    (s.enterScope ctx inside rule start stop).Merged taken := by
  have hopen : (s.openScope ctx rule start stop).emitter.Settles taken
      (s.openScope ctx rule start stop).kind stop := settles_openScope keeps belongs.among h hlt
  have hcourse := s.toCourse_openScope ctx rule start stop
  have hkind : ∀ {t : State}, t.stack = s.frame ctx rule start stop :: s.stack →
      t.kind = (s.frame ctx rule start stop).kind := by
    intro t hstack
    unfold kind
    rw [hstack]
  rw [hkind (by rw [hcourse])] at hopen
  have henters := enters_enterScope ctx inside s rule start stop
  generalize s.enterScope ctx inside rule start stop = t at henters
  cases henters with
  | own => exact merged_of_gap hopen (hkind (by rw [hcourse])) (by rw [hcourse])
  | @closed language body last next embedded collects found =>
    obtain ⟨hlast, hnext, -⟩ := Frame.closing?_bounds found
    have hstack : (body.advance last).stack = s.frame ctx rule start stop :: s.stack := by
      simp [advance, collects.toCourse_eq, hcourse]
    refine merged_of_gap (settles_closeScope keeps hstack ?_ belongs ?_ (Nat.le_refl _) hnext) rfl ?_
    · rw [hstack]
      exact ⟨kind_frame labelled rule start stop, labelled⟩
    · rw [hkind hstack]
      exact collects.settles tiled hopen hlast
    · rw [toCourse_closeScope ctx hstack]
  | @unclosed language body embedded collects endless =>
    have hstack : (body.advance ctx.stop).stack = s.frame ctx rule start stop :: s.stack := by
      simp [advance, collects.toCourse_eq, hcourse]
    exact merged_of_gap (collects.settles tiled hopen hstop) (hkind hstack) rfl

theorem merged_takes (tiled : ∀ e : Embedding ctx, Tiles (inside e).spans e.start e.stop)
    (playing : s.Playing ctx) (h : s.emitter.Settles taken s.kind s.gap) (going : s.done = false)
    {index : Nat} (hit : s.nextHit? ctx = some (.rule index, start, stop))
    (found : (s.rules ctx)[index]? = some rule) (takes : Takes ctx inside s rule start stop t) :
    t.Merged taken := by
  obtain ⟨first, covers⟩ := playing.covers
  obtain ⟨hcursor, -, hstop⟩ := nextHit?_bounds hit
  have hgap : s.gap ≤ start := Nat.le_trans covers.gap_le_cursor hcursor
  have hend : s.gap ≤ ctx.stop := Nat.le_trans covers.gap_le_cursor covers.cursor_le_stop
  have hrule := among_rules rfl playing.belongs rule (List.mem_of_getElem? found)
  have hstack := s.stack_arrive ctx rule start
  have hkind : (s.arrive ctx rule start).kind = s.kind := by
    unfold kind
    rw [hstack]
  have harrived : (s.arrive ctx rule start).emitter.Settles taken (s.arrive ctx rule start).kind
      start := hkind ▸ settles_flushGap keeps h hgap
  cases takes with
  | skip empty =>
    exact merged_skipChar (s := s.record (.skippedEmptyOpening (ctx.source.byte start))) keeps h
      hend going start
  | refuse lt opens full =>
    have hcourse := s.toCourse_refuse ctx start stop
    have hsettles : (s.refuse ctx start stop).emitter.Settles taken s.kind s.gap := by
      rwa [emitter_refuse]
    refine merged_of_gap hsettles ?_ ?_
    · unfold kind
      rw [hcourse]
    · rw [hcourse]
  | enter lt opens room =>
    refine merged_enterScope keeps tiled (hstack.symm ▸ playing.labelled) ?_ harrived lt hstop
    rw [frame_congr ctx hstack]
    exact Opens.belongsTo ⟨⟨index, hit, found⟩, lt, opens, room⟩ playing.belongs
  | single lt opens =>
    have hcourse := (s.arrive ctx rule start).toCourse_takeSingle rule start stop
    refine merged_of_gap (settles_takeSingle keeps hrule harrived lt) ?_ (by rw [hcourse])
    unfold kind
    rw [hcourse]

theorem merged_steps (tiled : ∀ e : Embedding ctx, Tiles (inside e).spans e.start e.stop)
    (playing : s.Playing ctx) (h : s.emitter.Settles taken s.kind s.gap) (going : s.done = false)
    (steps : Steps ctx inside s t) : t.Merged taken := by
  obtain ⟨first, covers⟩ := playing.covers
  have hend : s.gap ≤ ctx.stop := Nat.le_trans covers.gap_le_cursor covers.cursor_le_stop
  cases steps with
  | ended => exact merged_finish keeps h hend going
  | lost => exact merged_finish keeps h hend going
  | rule hit found takes => exact merged_takes keeps tiled playing h going hit found takes
  | close hit =>
    obtain ⟨hcursor, hle, -⟩ := nextHit?_bounds hit
    obtain ⟨frame, stack, hs⟩ := List.exists_cons_of_ne_nil (opened_of_closing hit)
    have belongs := playing.belongs frame (hs ▸ List.mem_cons_self ..)
    exact merged_of_gap (settles_closeScope keeps hs playing.labelled belongs h
      (Nat.le_trans covers.gap_le_cursor hcursor) hle) rfl (by rw [toCourse_closeScope ctx hs])
  | illegal hit =>
    obtain ⟨hcursor, hle, hstop⟩ := nextHit?_bounds hit
    have outside : s.stack = [] := by simpa [Hit.fits] using playing.framed.hit_fits hit
    exact merged_markIllegal keeps outside h (Nat.le_trans covers.gap_le_cursor hcursor)
      (Nat.le_trans hle hstop) going

end Steps

/-- Spans that are taken out stay in front of what is collected. -/
theorem Merged.emptied (h : s.Merged taken) : s.emptied.Merged (taken ++ s.emitter.ready) := by
  have hspans : taken ++ s.emitter.spans =
      taken ++ s.emitter.ready ++ s.emptied.emitter.spans := by
    simp [Emitter.spans, State.emptied]
  refine ⟨hspans ▸ h.1, fun going => ?_⟩
  obtain ⟨apart, meets, edge, inside⟩ := h.2 going
  exact ⟨hspans ▸ apart, meets, hspans ▸ edge, inside⟩

/-- In what is drained no two neighbours are plain. -/
theorem isChain_apart_drain (keeps : ctx.grammar.KeepsPlain) (found : Array Span)
    (h : s.Merged found.toList) (playing : s.Playing ctx) :
    (s.drain ctx ctx.inside found).1.toList.IsChain Span.Apart := by
  fun_induction s.drain ctx ctx.inside found with
  | case1 found s found' hdone =>
    have hready := h.emptied.1
    rw [List.isChain_append] at hready
    simpa [found'] using hready.1
  | case2 found s found' going ih =>
    have going := Bool.eq_false_iff.2 going
    have hempty := h.emptied
    obtain ⟨first, covers⟩ := playing.emptied.covers
    have hstep := merged_steps keeps ctx.inside_tiles playing.emptied (hempty.2 going) going
      (steps_iff.2 rfl)
    refine ih (by simpa [found'] using hstep) ⟨⟨first, step_covers ctx.inside_tiles covers going⟩,
      labelled_step ctx.inside playing.labelled, belongsTo_step ctx.inside playing.belongs⟩

end State

end Scan

/-- Plain tokens are never neighbours, in every grammar in which nothing but text without a kind is
plain and the opening of a scope with a kind is in the scope. Of the languages of embedded regions
nothing is asked. -/
theorem plain_maximal_of_highlight (grammar : Grammar) (keeps : grammar.KeepsPlain)
    (language? : String → Option Grammar) (maxDepth : Nat) (text : String) :
    (grammar.highlight text language? maxDepth).tokens.IsChain fun t u =>
      ¬(t.kind = .plain ∧ u.kind = .plain) := by
  let h := Highlighting.start grammar language? maxDepth text
  have hmerged : h.state.Merged (#[] : Array Span).toList :=
    Scan.State.merged_of_settles (Emitter.settles_start .plain 0)
  have hplaying : h.state.Playing h.ctx :=
    ⟨⟨0, Scan.State.covers_start (Nat.zero_le _)⟩, trivial, fun _ hframe => nomatch hframe⟩
  exact (List.isChain_map h.ctx.source.token).2
    (Scan.State.isChain_apart_drain keeps #[] hmerged hplaying)

/-- Text between bars, which may be in another language, without a kind. -/
def Rule.pane : Rule := { Rule.bars with kind := none, closingOutside := true }

/-- A language of text between bars, which is nothing by itself, in which an exclamation mark is
illegal. -/
def Grammar.panes : Grammar where
  name := "panes"
  aliases := []
  category := none
  caseless := false
  supersetOf := none
  keywords := ⟨false, [⟨"x", .keyword, 1⟩]⟩
  word := .plus true (.char .word)
  rules := [.pane, .letter]
  scanner := ⟨[(some (.rule 0), .char (.one '|')), (some .illegal, .char (.one '!'))]⟩
  rules_sound := by
    intro rule hrule
    simp only [List.mem_cons, List.not_mem_nil, or_false] at hrule
    rcases hrule with rfl | rfl
    · exact .intro (by simp [Rule.pane, Rule.bars])
        (by simp [Rule.pane, Rule.bars, Scanner.hits, Hit.fits])
    · exact .intro (by simp [Rule.letter]) (by simp [Rule.letter, Scanner.hits, Scanner.none])
  hits_fit := by simp [Scanner.hits, Hit.fits]

theorem Grammar.keepsPlain_panes : Grammar.panes.KeepsPlain := by
  have hrules : ∀ rule, Rule.Among Grammar.panes.rules rule → rule = .pane ∨ rule = .letter := by
    intro rule h
    induction h with
    | top mem => simpa [Grammar.panes] using mem
    | inner outer mem ih =>
      rcases ih with rfl | rfl
      · simp [Rule.pane, Rule.bars] at mem
      · simp [Rule.letter] at mem
  refine ⟨fun rule h => ?_, fun rule h => ?_, ?_⟩
  · rcases hrules rule h with rfl | rfl <;> simp [Rule.pane, Rule.letter]
  · rcases hrules rule h with rfl | rfl <;> simp [Rule.pane, Rule.letter]
  · simp [Grammar.panes]

/-- So it is around bars that open scopes, at the cap and below it, with illegal text between. -/
theorem plain_maximal_panes :
    Grammar.panes.KeepsPlain ∧
      (Grammar.panes.highlight "é|é!|é!é| x" (fun _ => some .panes) 1).tokens.IsChain fun t u =>
        ¬(t.kind = .plain ∧ u.kind = .plain) :=
  ⟨Grammar.keepsPlain_panes,
    plain_maximal_of_highlight .panes Grammar.keepsPlain_panes (fun _ => some .panes) 1
      "é|é!|é!é| x"⟩

end Highlighter
