import Highlighter.Proofs.Continued

/-!
How text outside all scopes is split. The words of a stretch of text are the matches of an
expression one after the other, and those that the keyword table knows are keywords; what is between
them is plain. While the words are searched, what has been collected is some spans and behind them
plain text up to the last keyword, or to where the stretch begins.
-/

namespace Highlighter

open Scan.State (pastWord lt_pastWord)

/-- The matches of an expression one after the other: the next one is searched behind a match, and
one character further behind an empty one. -/
def Regex.matchesFrom (r : Regex) (h : Haystack) (position : Nat) : List (Nat × Nat) :=
  match _h : r.findSwept? h position with
  | none => []
  | some (first, last) => (first, last) :: r.matchesFrom h (pastWord first last)
termination_by h.stop + 1 - position
decreasing_by
  have hbounds := Regex.findSwept?_bounds _h
  have hpast := lt_pastWord _h
  omega

namespace Regex

variable {r : Regex} {h : Haystack} {position first last : Nat}

theorem matchesFrom_of_none (hnone : r.findSwept? h position = none) :
    r.matchesFrom h position = [] := by
  rw [matchesFrom]
  split
  · rfl
  · rename_i hsome
    rw [hnone] at hsome
    cases hsome

theorem matchesFrom_of_some (hsome : r.findSwept? h position = some (first, last)) :
    r.matchesFrom h position = (first, last) :: r.matchesFrom h (pastWord first last) := by
  rw [matchesFrom]
  split
  · rename_i hnone
    rw [hsome] at hnone
    cases hnone
  · rename_i first' last' hsome'
    rw [hsome] at hsome'
    cases hsome'
    rfl

/-- There are no more matches than places where one can begin. -/
theorem length_matchesFrom_le (r : Regex) (h : Haystack) (position : Nat) :
    (r.matchesFrom h position).length ≤ h.stop + 1 - position := by
  fun_induction r.matchesFrom h position with
  | case1 => exact Nat.zero_le _
  | case2 position first last hfound ih =>
    have hbounds := findSwept?_bounds hfound
    have hpast := lt_pastWord hfound
    rw [List.length_cons]
    omega

/-- Every match lies behind where the search began, and inside of what is searched. -/
theorem bounds_of_mem_matchesFrom :
    ∀ word ∈ r.matchesFrom h position, position ≤ word.1 ∧ word.1 ≤ word.2 ∧ word.2 ≤ h.stop := by
  fun_induction r.matchesFrom h position with
  | case1 => simp
  | case2 position first last hfound ih =>
    have hbounds := findSwept?_bounds hfound
    have hpast := lt_pastWord hfound
    intro word hword
    rcases List.mem_cons.1 hword with rfl | hword
    · exact hbounds
    · have := ih word hword
      omega

end Regex

namespace Grammar

variable {grammar : Grammar} {source : Source} {stop plain position first last : Nat}

/-- What a word is in the keyword table. An empty match is no word. -/
def keywordSpan? (grammar : Grammar) (source : Source) (word : Nat × Nat) : Option Span :=
  if word.1 < word.2 then
    (grammar.keywords.find? (source.slice word.1 word.2)).map fun entry =>
      ⟨entry.kind, word.1, word.2⟩
  else none

/-- The keywords of a stretch of text, in order. -/
def keywordSpans (grammar : Grammar) (source : Source) (stop start : Nat) : List Span :=
  (grammar.word.matchesFrom ⟨source.chars, stop⟩ start).filterMap (grammar.keywordSpan? source)

theorem keywordSpan?_eq_some {word : Nat × Nat} {span : Span}
    (h : grammar.keywordSpan? source word = some span) :
    word.1 < word.2 ∧ ∃ entry, grammar.keywords.find? (source.slice word.1 word.2) = some entry ∧
      span = ⟨entry.kind, word.1, word.2⟩ := by
  unfold keywordSpan? at h
  split at h
  · rename_i hlt
    obtain ⟨entry, hentry, rfl⟩ := Option.map_eq_some_iff.1 h
    exact ⟨hlt, entry, hentry, rfl⟩
  · cases h

theorem keywordSpans_of_none
    (h : grammar.word.findSwept? ⟨source.chars, stop⟩ position = none) :
    grammar.keywordSpans source stop position = [] := by
  rw [keywordSpans, Regex.matchesFrom_of_none h]
  rfl

theorem keywordSpans_of_some
    (h : grammar.word.findSwept? ⟨source.chars, stop⟩ position = some (first, last)) :
    grammar.keywordSpans source stop position =
      (grammar.keywordSpan? source (first, last)).toList ++
        grammar.keywordSpans source stop (pastWord first last) := by
  rw [keywordSpans, Regex.matchesFrom_of_some h, List.filterMap_cons]
  cases grammar.keywordSpan? source (first, last) <;> rfl

/-- At the end of the stretch no word begins any more. -/
theorem keywordSpans_of_le (h : stop ≤ position) : grammar.keywordSpans source stop position = [] := by
  refine List.filterMap_eq_nil_iff.2 fun word hword => ?_
  have hbounds := Regex.bounds_of_mem_matchesFrom word hword
  simp only at hbounds
  rw [keywordSpan?, if_neg (by omega)]

end Grammar

/-- A keyword as something that happens. -/
def Span.asKeyword (span : Span) : Scan.Incident := .keyword span.kind span.start span.stop

/-- The keywords that a search comes upon are those of the stretch it searches. -/
theorem Scan.State.keywordsFrom_eq (grammar : Grammar) (source : Source) (stop position : Nat) :
    keywordsFrom grammar source stop position =
      (grammar.keywordSpans source stop position).map Span.asKeyword := by
  fun_induction keywordsFrom grammar source stop position with
  | case1 position hlt hnone =>
    rw [Grammar.keywordSpans_of_none hnone]
    rfl
  | case2 position hlt first last hfound ih =>
    rw [Grammar.keywordSpans_of_some hfound, List.map_append, ih]
    congr 1
    unfold keyword? Grammar.keywordSpan?
    simp only
    split
    · cases grammar.keywords.find? (source.slice first last) <;> rfl
    · rfl
  | case3 position hge =>
    rw [Grammar.keywordSpans_of_le (Nat.not_lt.1 hge)]
    rfl

/-- A stretch of plain text. -/
def plainSpan (a b : Nat) : List Span := if a < b then [⟨.plain, a, b⟩] else []

theorem plainSpan_of_lt {a b : Nat} (h : a < b) : plainSpan a b = [⟨.plain, a, b⟩] := if_pos h

theorem plainSpan_self (a : Nat) : plainSpan a a = [] := if_neg (Nat.lt_irrefl a)

theorem tiles_plainSpan {a b : Nat} (h : a ≤ b) : Tiles (plainSpan a b) a b := by
  rcases Nat.lt_or_eq_of_le h with hlt | rfl
  · rw [plainSpan_of_lt hlt]
    exact tiles_singleton.2 ⟨rfl, hlt, rfl⟩
  · rw [plainSpan_self]
    rfl

/-- A stretch of text cut at some spans in it: the spans, and what is between them as plain text. -/
def cutAt (b : Nat) : Nat → List Span → List Span
  | a, [] => plainSpan a b
  | a, span :: spans => plainSpan a span.start ++ span :: cutAt b span.stop spans

/-- The spans at which a stretch is cut are in it, in order. -/
theorem sublist_cutAt (a b : Nat) (spans : List Span) : spans.Sublist (cutAt b a spans) := by
  induction spans generalizing a with
  | nil => exact List.nil_sublist _
  | cons span spans ih =>
    exact ((ih span.stop).cons_cons span).trans (List.sublist_append_right ..)

/-- What is between them is plain. -/
theorem kind_of_mem_cutAt {a b : Nat} {spans : List Span} :
    ∀ span ∈ cutAt b a spans, span ∈ spans ∨ span.kind = .plain := by
  have hplain : ∀ a b, ∀ span ∈ plainSpan a b, span.kind = .plain := by
    intro a b
    unfold plainSpan
    split <;> simp
  induction spans generalizing a with
  | nil => exact fun span hspan => .inr (hplain a b span hspan)
  | cons first spans ih =>
    intro span hspan
    rcases List.mem_append.1 hspan with hfront | hrest
    · exact .inr (hplain a first.start span hfront)
    · rcases List.mem_cons.1 hrest with rfl | hrest
      · exact .inl (List.mem_cons_self ..)
      · exact (ih span hrest).imp_left (List.mem_cons_of_mem first)

/-- The keywords of a stretch of text and the plain text around them are the stretch. -/
theorem tiles_cutAt_keywordSpans (grammar : Grammar) (source : Source) {stop plain position : Nat}
    (hp : plain ≤ position) (hstop : plain ≤ stop) :
    Tiles (cutAt stop plain (grammar.keywordSpans source stop position)) plain stop := by
  unfold Grammar.keywordSpans
  generalize hhaystack : (⟨source.chars, stop⟩ : Haystack) = h
  have hend : h.stop = stop := by rw [← hhaystack]
  fun_induction grammar.word.matchesFrom h position generalizing plain with
  | case1 => exact tiles_plainSpan hstop
  | case2 position first last hfound ih =>
    obtain ⟨hle, -, hlast⟩ := Regex.findSwept?_bounds hfound
    have hpast := lt_pastWord hfound
    rw [List.filterMap_cons]
    cases hkey : grammar.keywordSpan? source (first, last) with
    | none => exact ih (by omega) hstop
    | some span =>
      obtain ⟨hlt, entry, -, rfl⟩ := Grammar.keywordSpan?_eq_some hkey
      simp only at hlt
      refine tiles_append.2 ⟨first, tiles_plainSpan (Nat.le_trans hp hle), rfl, hlt, ih ?_ ?_⟩
      · rw [pastWord, if_pos hlt]
      · rwa [← hend]

namespace Emitter

/-- Some spans have been collected, and behind them plain text that more plain text will join. -/
structure Stands (before : List Span) (first position : Nat) (e : Emitter) : Prop where
  spans : e.spans = before ++ plainSpan first position
  le : first ≤ position
  grows : first < position → e.growing = some ⟨.plain, first, position⟩
  fresh : first = position → ∀ span ∈ e.growing, ¬(span.kind = .plain ∧ span.stop = position)

namespace Stands

variable {before : List Span} {first a b : Nat} {e : Emitter}

theorem text (h : e.Stands before first a) (hab : a ≤ b) :
    (e.text .plain a b).Stands before first b := by
  rcases Nat.lt_or_eq_of_le hab with hlt | rfl
  · have hfirst : first < b := Nat.lt_of_le_of_lt h.le hlt
    rcases Nat.lt_or_eq_of_le h.le with hold | rfl
    · -- The plain text that grows is joined.
      have htext : e.text .plain a b = { e with growing := some ⟨.plain, first, b⟩ } := by
        unfold Emitter.text
        rw [if_neg (Nat.not_le.2 hlt), h.grows hold]
        simp
      have hready : e.ready = before := by
        have hspans := h.spans
        rw [Emitter.spans, h.grows hold, plainSpan_of_lt hold] at hspans
        exact (List.append_inj' hspans rfl).1
      rw [htext]
      refine ⟨?_, Nat.le_of_lt hfirst, fun _ => rfl, fun heq => absurd heq (Nat.ne_of_lt hfirst)⟩
      simp [Emitter.spans, hready, plainSpan_of_lt hfirst]
    · have htext : e.text .plain first b = ⟨some ⟨.plain, first, b⟩, e.spans⟩ := by
        unfold Emitter.text
        rw [if_neg (Nat.not_le.2 hlt)]
        cases hgrowing : e.growing with
        | none => simp [Emitter.spans, hgrowing]
        | some span =>
          simp only
          rw [if_neg (h.fresh rfl span hgrowing), ready_flush]
      have hspans : e.spans = before := by rw [h.spans, plainSpan_self, List.append_nil]
      rw [htext]
      refine ⟨?_, Nat.le_of_lt hfirst, fun _ => rfl, fun heq => absurd heq (Nat.ne_of_lt hfirst)⟩
      rw [hspans, plainSpan_of_lt hfirst]
      rfl
  · have hsame : e.text .plain a a = e := by
      unfold Emitter.text
      rw [if_pos (Nat.le_refl a)]
    rwa [hsame]

theorem atom (h : e.Stands before first a) (hab : a < b) (kind : Kind) :
    (e.atom kind a b).Stands (before ++ plainSpan first a ++ [⟨kind, a, b⟩]) b b where
  spans := by rw [spans_atom e hab, h.spans, plainSpan_self, List.append_nil]
  le := Nat.le_refl b
  grows := fun hlt => absurd hlt (Nat.lt_irrefl b)
  fresh := by simp [growing_atom]

/-- Keywords that are drawn cut the text in which they stand. Behind the last of them, and only if
there is no text behind it, nothing grows. -/
theorem draw_keywords (h : e.Stands before first a) {keywords : List Span}
    (tiles : Tiles (cutAt b a keywords) a b) (cut : a < b ∨ e.growing = none) :
    ∃ front last, (∀ d, cutAt d first keywords = front ++ plainSpan last d) ∧
      (((keywords.map Span.asKeyword).foldl Scan.Canvas.draw ⟨e, a, []⟩).reach b).emitter.Stands
        (before ++ front) last b ∧
      (last = b → (((keywords.map Span.asKeyword).foldl Scan.Canvas.draw
        ⟨e, a, []⟩).reach b).emitter.growing = none) := by
  induction keywords generalizing before first a e with
  | nil =>
    refine ⟨[], first, fun d => rfl, ?_, fun hlast => ?_⟩
    · rw [List.append_nil]
      exact h.text (le_of_tiles tiles)
    · have hle := h.le
      have hempty : b ≤ a := by omega
      have hsame : e.text .plain a b = e := by
        unfold Emitter.text
        rw [if_pos hempty]
      exact (congrArg Emitter.growing hsame).trans (cut.resolve_left (Nat.not_lt.2 hempty))
  | cons span keywords ih =>
    obtain ⟨middle, hplain, rfl, hlt, hrest⟩ := tiles_append.1 tiles
    have hatom := (h.text (le_of_tiles hplain)).atom hlt span.kind
    obtain ⟨front, last, hcut, hstands, hgrowing⟩ := ih hatom hrest (.inr (growing_atom ..))
    refine ⟨plainSpan first span.start ++ span :: front, last, fun d => ?_, ?_, hgrowing⟩
    · rw [cutAt, hcut, List.append_assoc, List.cons_append]
    · rw [List.append_assoc, List.append_assoc, List.singleton_append] at hstands
      exact hstands

/-- What stands behind the cuts of a stretch is found again later, with the plain text at its end at
least as long. -/
theorem continues {last : Nat} {e' : Emitter} (h : e.Stands before last b)
    (cut : last = b → e.growing = none) (later : e.Continues e') :
    ∃ d, b ≤ d ∧ before ++ plainSpan last d <+: e'.spans := by
  rcases Nat.lt_or_eq_of_le h.le with hlt | rfl
  · have hspans := h.spans
    rw [Emitter.spans, h.grows hlt, plainSpan_of_lt hlt] at hspans
    obtain ⟨d, hd, hfront⟩ := later.growing _ (h.grows hlt)
    rw [(List.append_inj' hspans rfl).1] at hfront
    refine ⟨d, hd, ?_⟩
    rw [plainSpan_of_lt (Nat.lt_of_lt_of_le hlt hd)]
    exact hfront
  · have hready : e.ready = before ++ plainSpan last last := by
      rw [← h.spans, Emitter.spans, cut rfl]
      simp
    exact ⟨last, Nat.le_refl last, hready ▸ later.ready.trans e'.ready_prefix⟩

end Stands

/-- Wherever a tiling ends, what has been collected stands there: plain text that grows is joined, and
anything else is in front. -/
theorem exists_stands {e : Emitter} {origin a : Nat} (h : Tiles e.spans origin a) :
    ∃ before first, origin ≤ first ∧ e.Stands before first a := by
  by_cases hplain : ∃ span ∈ e.growing, span.kind = .plain
  · obtain ⟨⟨kind, first, stop⟩, hgrowing, rfl⟩ := hplain
    have hspans : e.spans = e.ready ++ [⟨.plain, first, stop⟩] := by
      rw [spans, Option.mem_def.1 hgrowing]
      rfl
    rw [hspans] at h
    obtain ⟨middle, hready, hspan⟩ := tiles_append.1 h
    obtain ⟨rfl, hlt, rfl⟩ := tiles_singleton.1 hspan
    refine ⟨e.ready, first, le_of_tiles hready, ?_, Nat.le_of_lt hlt, fun _ => hgrowing, ?_⟩
    · rw [hspans, plainSpan_of_lt hlt]
    · exact fun heq => absurd heq (Nat.ne_of_lt hlt)
  · refine ⟨e.spans, a, le_of_tiles h, ?_, Nat.le_refl a, fun hlt => absurd hlt (Nat.lt_irrefl a), ?_⟩
    · rw [plainSpan_self, List.append_nil]
    · exact fun _ span hspan hjoin => hplain ⟨span, hspan, hjoin.1⟩

end Emitter

namespace Scan.State

variable {ctx : Context} {s : State} {origin stop : Nat}

/-- Text passed over outside all scopes is collected as its keywords draw it. -/
theorem emitter_flushGap_outside (outside : s.stack = []) (hlt : s.gap < stop) :
    (s.flushGap ctx stop).emitter =
      ((((ctx.grammar.keywordSpans ctx.source stop s.gap).map Span.asKeyword).foldl Canvas.draw
        ⟨s.emitter, s.gap, []⟩).reach stop).emitter := by
  rw [flushGap_outside outside hlt, emitter_classifyFrom, keywordsFrom_eq]

/-- Text outside all scopes is collected cut at its keywords. Plain text at its beginning joins the
plain text in front of it. -/
theorem stands_flushGap (ctx : Context) (outside : s.stack = [])
    (h : Tiles s.emitter.spans origin s.gap) (hlt : s.gap < stop) :
    ∃ before first front last, first ≤ s.gap ∧ s.emitter.Stands before first s.gap ∧
      (∀ d, cutAt d first (ctx.grammar.keywordSpans ctx.source stop s.gap) =
        front ++ plainSpan last d) ∧
      (s.flushGap ctx stop).emitter.Stands (before ++ front) last stop ∧
      (last = stop → (s.flushGap ctx stop).emitter.growing = none) := by
  obtain ⟨before, first, -, hstands⟩ := Emitter.exists_stands h
  have htiles : Tiles (cutAt stop s.gap (ctx.grammar.keywordSpans ctx.source stop s.gap)) s.gap stop :=
    tiles_cutAt_keywordSpans _ _ (Nat.le_refl _) (Nat.le_of_lt hlt)
  obtain ⟨front, last, hcut, hdrawn, hgrowing⟩ := hstands.draw_keywords htiles (.inl hlt)
  rw [← emitter_flushGap_outside outside hlt] at hdrawn hgrowing
  exact ⟨before, first, front, last, hstands.le, hstands, hcut, hdrawn, hgrowing⟩

/-- What has been split is found again later, with the plain text at its edges at least as long. -/
theorem split_flushGap (ctx : Context) (outside : s.stack = [])
    (h : Tiles s.emitter.spans origin s.gap) (hlt : s.gap < stop) {e : Emitter}
    (later : (s.flushGap ctx stop).emitter.Continues e) :
    ∃ front back first last, first ≤ s.gap ∧ stop ≤ last ∧
      e.spans =
        front ++ cutAt last first (ctx.grammar.keywordSpans ctx.source stop s.gap) ++ back := by
  obtain ⟨before, first, front, last, hfirst, -, hcut, hstands, hgrowing⟩ :=
    stands_flushGap ctx outside h hlt
  obtain ⟨d, hd, back, hback⟩ := hstands.continues hgrowing later
  exact ⟨before, back, first, d, hfirst, hd, by rw [← hback, hcut, List.append_assoc before]⟩

end Scan.State

end Highlighter
