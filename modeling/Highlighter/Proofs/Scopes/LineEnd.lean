import Highlighter.Proofs.Continued
import Highlighter.Proofs.Scopes.Quoted
import Highlighter.Proofs.Steering.Flags

/-!
Scopes that end with the line. Nothing opens in such a scope, and what closes it is no character but
the place where the line ends, so the step behind the one that opens it closes it there. The end of
the line is left to the text around the scope, and at the end of the region the scope is closed too.
-/

namespace Highlighter

/-- From a position on the line goes up to another one: to the first carriage return or line feed, or
to the end of the text if there is none. -/
structure Haystack.LineEnds (h : Haystack) (p q : Nat) : Prop where
  le : p ≤ q
  le_stop : q ≤ h.stop
  clear : ∀ r, p ≤ r → r < q → h.char? r ≠ some '\r' ∧ h.char? r ≠ some '\n'
  ends : q = h.stop ∨ h.char? q = some '\r' ∨ h.char? q = some '\n'

namespace Haystack

variable {h : Haystack} {p q : Nat}

/-- Every line ends. -/
theorem exists_lineEnds (h : Haystack) {p : Nat} (hp : p ≤ h.stop) : ∃ q, h.LineEnds p q := by
  induction hd : h.stop - p generalizing p with
  | zero => exact ⟨p, Nat.le_refl p, hp, fun r hle hlt => absurd hle (by omega), .inl (by omega)⟩
  | succ d ih =>
    by_cases hend : h.char? p = some '\r' ∨ h.char? p = some '\n'
    · exact ⟨p, Nat.le_refl p, hp, fun r hle hlt => absurd hle (by omega), .inr hend⟩
    · obtain ⟨q, line⟩ := ih (p := p + 1) (by omega) (by omega)
      refine ⟨q, Nat.le_of_succ_le line.le, line.le_stop, fun r hle hlt => ?_, line.ends⟩
      rcases Nat.eq_or_lt_of_le hle with rfl | hlt'
      · exact not_or.1 hend
      · exact line.clear r hlt' hlt

/-- It ends in one place. -/
theorem LineEnds.unique (line : h.LineEnds p q) {q' : Nat} (line' : h.LineEnds p q') : q = q' := by
  have hle : ∀ {q q'}, h.LineEnds p q → h.LineEnds p q' → q ≤ q' := by
    intro q q' line line'
    by_contra hlt
    have hclear := line.clear q' line'.le (by omega)
    rcases line'.ends with hstop | hr | hn
    · have := line.le_stop
      omega
    · exact hclear.1 hr
    · exact hclear.2 hn
  exact Nat.le_antisymm (hle line line') (hle line' line)

end Haystack

namespace Regex

/-- The end of a line, where one line feed behind a carriage return belongs to it. -/
theorem holds_lineEnd {h : Haystack} {p : Nat} : (Anchor.lineEnd true).holds h p = true ↔
    p = h.stop ∨ h.char? p = some '\r' ∨ h.char? p = some '\n' ∧ h.before? p ≠ some '\r' := by
  simp [Anchor.holds, or_assoc]

/-- A condition matches nothing, where it holds. -/
theorem endAt?_look (anchor : Anchor) (h : Haystack) (p : Nat) :
    (look anchor).endAt? h p = if anchor.holds h p then some p else none := by
  have hsettle : settle (·.holds h p) false [(look anchor).start] (.none 1) =
      if anchor.holds h p then [[]] else [] := by
    cases hholds : anchor.holds h p <;>
      simp [settle, start, Marks.none, Marks.isFree, hholds]
  change endFrom? h 1 p [(look anchor).start] none = _
  rw [endFrom?_eq, hsettle]
  cases anchor.holds h p <;> simp [isOver, pass, endFrom?_nil]

/-- The first place where a line ends is the end of the line, if the search does not begin between a
carriage return and a line feed. -/
theorem first?_lineEnd {h : Haystack} {p q : Nat} (line : h.LineEnds p q)
    (before : h.before? p ≠ some '\r') :
    h.first? ((look (.lineEnd true)).endAt? h) p = some (q, q) := by
  have hbefore : ∀ r, p ≤ r → r ≤ q → h.before? r ≠ some '\r' := by
    intro r hle hrq
    rcases Nat.eq_or_lt_of_le hle with rfl | hlt
    · exact before
    · unfold Haystack.before?
      rw [if_neg (by omega)]
      exact (line.clear (r - 1) (by omega) (by omega)).1
  refine Haystack.first?_eq_some_iff.2 ⟨line.le, line.le_stop, ?_, fun r hle hlt => ?_⟩
  · rw [endAt?_look, if_pos]
    exact holds_lineEnd.2 (line.ends.imp_right fun hend =>
      hend.imp_right fun hn => ⟨hn, hbefore q line.le (Nat.le_refl q)⟩)
  · rw [endAt?_look, if_neg]
    have hstop := line.le_stop
    have hclear := line.clear r hle hlt
    rintro hholds
    rcases holds_lineEnd.1 hholds with hend | hr | ⟨hn, -⟩
    · omega
    · exact hclear.1 hr
    · exact hclear.2 hn

end Regex

/-- A rule for a comment that ends with the line. -/
structure Rule.CommentsLine (rule : Rule) : Prop where
  kind : rule.kind = some .comment
  ending : rule.ending = .pattern "$"
  language : rule.language = none
  openingOutside : rule.openingOutside = false
  closingOutside : rule.closingOutside = false
  inner : rule.inner = []
  scanner : Scanner.build? [⟨"$", true, .closing⟩] = some rule.scanner

namespace Rule.CommentsLine

variable {rule : Rule} (comments : rule.CommentsLine)

include comments

theorem opensScope : rule.opensScope = true := by
  simp [Rule.opensScope, comments.ending]

/-- In the comment nothing is found but its end. -/
theorem find?_eq {h : Haystack} {p q : Nat} (line : h.LineEnds p q)
    (before : h.before? p ≠ some '\r') : rule.scanner.find? h p = some (.closing, q, q) := by
  have hwhole : ∀ a ∈ [(⟨"$", true, .closing⟩ : Alternative)], a.IsWhole := fun a ha =>
    Alternative.isWhole_of_joins (List.all_eq_true.1
      (show [(⟨"$", true, .closing⟩ : Alternative)].all Alternative.joins = true by decide +kernel) a
      ha)
  have hend : Alternative.regex ⟨"$", true, .closing⟩ = .look (.lineEnd true) := by decide +kernel
  have hfound : Scanner.foundAt? [⟨"$", true, .closing⟩] h =
      fun q => ((Regex.look (.lineEnd true)).endAt? h q).map (Hit.closing, ·) := by
    funext q
    simp only [Scanner.foundAt?, List.findSome?_cons, List.findSome?_nil, hend]
    cases (Regex.look (.lineEnd true)).endAt? h q <;> rfl
  rw [Scanner.find?_eq_first? comments.scanner hwhole, hfound, Haystack.first?_map,
    Regex.first?_lineEnd line before]
  rfl

end Rule.CommentsLine

namespace Scan.State

variable {ctx : Context} {s : State} {rule : Rule} {start stop q : Nat}

/-- A comment from its opening up to a place where the line ends. One step opens it, and nothing is
looked for in it but its end; the next step closes it and goes on there, with a span of its own for
the comment and with the flags as they were. -/
structure Comments (ctx : Context) (s : State) (start q : Nat) : Prop where
  opened : (s.takeStep ctx).done = false
  /-- No rules apply in the comment. -/
  bare : (s.takeStep ctx).emptied.rules ctx = []
  closes : (s.takeStep ctx).emptied.nextHit? ctx = some (.closing, q, q)
  resumes : ((s.takeStep ctx).emptied.takeStep ctx).toCourse = ⟨q, q, s.stack, false⟩
  collected : ((s.takeStep ctx).emptied.takeStep ctx).emitter = ⟨none, [⟨.comment, start, q⟩]⟩
  flags : ((s.takeStep ctx).emptied.takeStep ctx).outcome.flags = s.outcome.flags

/-- The opening of a comment is a span that grows. -/
theorem growing_of_comments (ctx : Context) (s : State) (comments : rule.CommentsLine)
    (hlt : start < stop) :
    (s.entered ctx rule start stop).emitter.growing = some ⟨.comment, start, stop⟩ := by
  have htext := (s.arrive ctx rule start).emitter.flush_text hlt .comment
  unfold entered openScope State.frame
  simp only [comments.openingOutside, comments.kind]
  exact congrArg Emitter.growing htext

theorem comments_of_opens (comments : rule.CommentsLine) (opens : s.Opens ctx rule start stop)
    (going : s.done = false) (line : ctx.haystack.LineEnds stop q)
    (before : ctx.haystack.before? stop ≠ some '\r') : Comments ctx s start q := by
  let frame := s.frame ctx rule start stop
  have hkind : frame.kind = .comment := by simp [frame, State.frame, comments.kind]
  have hopened := opens.takeStep_of_own comments.language
  have hcourse := s.toCourse_entered ctx rule start stop
  have hgrowing := growing_of_comments ctx s comments opens.start_lt_stop
  have hflags : (s.takeStep ctx).outcome.flags = s.outcome.flags := by
    rw [hopened, entered, flags_openScope, flags_arrive]
  obtain ⟨t, ht⟩ : ∃ t, s.takeStep ctx = t := ⟨_, rfl⟩
  rw [← hopened, going, ht] at hcourse
  rw [← hopened, ht] at hgrowing
  rw [ht] at hflags
  have hstack : t.emptied.stack = frame :: s.stack := congrArg Course.stack hcourse
  have hcloses : t.emptied.nextHit? ctx = some (.closing, q, q) := by
    have hclose : frame.literalHit? ctx.haystack t.emptied.cursor = none := by
      simp [Frame.literalHit?, frame, State.frame, comments.ending]
    have hcursor : t.emptied.cursor = stop := congrArg Course.cursor hcourse
    have hfind : frame.rule.scanner.find? ctx.haystack t.emptied.cursor =
        some (.closing, q, q) := by
      rw [hcursor]
      exact comments.find?_eq line before
    unfold nextHit?
    simp only [hstack, hclose, hfind]
  have hclosed : t.emptied.takeStep ctx = t.emptied.closeScope ctx q q :=
    steps_iff.1 (.close hcloses)
  have hflushed : (t.emptied.flushGap ctx q).emitter = ⟨some ⟨.comment, start, q⟩, []⟩ := by
    have hemitter : t.emptied.emitter = ⟨some ⟨.comment, start, stop⟩, []⟩ := by
      simp [emptied, hgrowing]
    have hgap : t.emptied.gap = stop := congrArg Course.gap hcourse
    rw [flushGap_inside hstack, text, hemitter, hkind, hgap]
    exact Emitter.text_join [] line.le
  refine ⟨?_, ?_, ?_, ?_, ?_, ?_⟩ <;> rw [ht]
  · exact congrArg Course.done hcourse
  · unfold rules
    simp only [hstack]
    exact comments.inner
  · exact hcloses
  · rw [hclosed, toCourse_closeScope ctx hstack]
    exact congrArg (Course.mk q q s.stack) (congrArg Course.done hcourse)
  · rw [hclosed]
    unfold closeScope
    simp only [stack_flushGap, hstack, show frame.rule = rule from rfl, comments.closingOutside,
      comments.kind, Bool.false_eq_true, ↓reduceIte, Option.isSome_some]
    change ((t.emptied.flushGap ctx q).emitter.text frame.kind q q).flush = _
    rw [hflushed, hkind, Emitter.text_join [] (Nat.le_refl q)]
    rfl
  · rw [hclosed, flags_closeScope]
    exact hflags

theorem Comments.mem_trail {first : Nat} (comments : Comments ctx s start q)
    (hs : s ∈ (State.start first).trail ctx) :
    (s.takeStep ctx).emptied ∈ (State.start first).trail ctx := by
  refine (takeStep_trail_suffix_of_mem hs).subset ?_
  rw [trail_of_going comments.opened]
  exact List.mem_cons_self ..

/-- The comment is a span of the region. -/
theorem Comments.mem_region {first : Nat} (comments : Comments ctx s start q)
    (hfirst : first ≤ ctx.stop) (hs : s ∈ (State.start first).trail ctx) :
    ⟨.comment, start, q⟩ ∈ (region ctx first).spans := by
  obtain ⟨front, e, hcontinues, hspans⟩ :=
    continues_of_mem_trail (covers_start hfirst) (comments.mem_trail hs)
  have hready := hcontinues.ready
  rw [comments.collected] at hready
  rw [region_eq]
  simp only [hspans]
  exact List.mem_append_right _
    (e.ready_prefix.subset (hready.subset (List.mem_singleton_self _)))

/-- A comment up to the end of the region leaves the outcome of the region as it is, if no scopes are
open around it. -/
theorem Comments.flags_region {first : Nat} (comments : Comments ctx s start ctx.stop)
    (outside : s.stack = []) (hs : s ∈ (State.start first).trail ctx) :
    (region ctx first).outcome.flags = s.outcome.flags := by
  have hend := takeStep_of_end (s := ((s.takeStep ctx).emptied.takeStep ctx).emptied)
    (comments.resumes.trans (by rw [outside]))
  obtain ⟨front, hdrain⟩ := drain_of_mem_trail (comments.mem_trail hs)
  have hgoing : ((s.takeStep ctx).emptied.takeStep ctx).done = false := by rw [comments.resumes]
  rw [region_eq]
  simp only [hdrain]
  rw [drain_of_going ctx.inside #[] hgoing]
  exact (congrArg (·.2.outcome.flags) (drain_of_done ctx.inside _ hend.1)).trans
    (hend.2.2.trans comments.flags)

end Scan.State

end Highlighter
