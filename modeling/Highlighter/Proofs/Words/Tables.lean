import Highlighter.Proofs.Granularity.Tokens
import Highlighter.Proofs.Twins.Region
import Highlighter.Proofs.Words.Lookups

/-!
Keyword tables that say the same about the words that are looked up. A step consults the table only
for the words of the text that it splits, so with a table that agrees on these it is the same step,
and a region comes to the same with every table that agrees on the words looked up in it.
-/

namespace Highlighter

/-- The same grammar with another keyword table. -/
def Grammar.withKeywords (grammar : Grammar) (table : KeywordTable) : Grammar :=
  { grammar with keywords := table }

/-- Two keyword tables say the same about a word. -/
def KeywordTable.Agrees (t t' : KeywordTable) (word : String) : Prop :=
  t'.find? word = t.find? word ∧ t'.key word = t.key word

namespace Scan

/-- The same with another keyword table. -/
def Context.withKeywords (ctx : Context) (table : KeywordTable) : Context :=
  { ctx with grammar := ctx.grammar.withKeywords table }

/-- A region that can be embedded with one keyword table can be embedded with any. -/
def Embedding.withKeywords {ctx : Context} (e : Embedding ctx) (table : KeywordTable) :
    Embedding (ctx.withKeywords table) :=
  ⟨e.grammar, e.start, e.stop, e.base, e.start_lt_stop, e.stop_le, e.lt_base, e.base_lt_cap⟩

namespace State

variable {ctx : Context} {table : KeywordTable} {s t : State} {start stop : Nat}

section Words

variable (grammar : Grammar) (source : Source)

theorem takeWord_withKeywords {first last : Nat} (plain : Nat)
    (agrees : grammar.keywords.Agrees table (source.slice first last)) :
    s.takeWord (grammar.withKeywords table) source plain first last =
      s.takeWord grammar source plain first last := by
  unfold takeWord
  simp only [Grammar.withKeywords, agrees.1, agrees.2]

/-- Text is split in the same way if the tables agree on its words. -/
theorem classifyFrom_withKeywords {plain position : Nat}
    (agrees : ∀ word ∈ grammar.word.matchesFrom ⟨source.chars, stop⟩ position, word.1 < word.2 →
      grammar.keywords.Agrees table (source.slice word.1 word.2)) :
    s.classifyFrom (grammar.withKeywords table) source stop plain position =
      s.classifyFrom grammar source stop plain position := by
  fun_induction s.classifyFrom grammar source stop plain position with
  | case1 s plain position hlt hnone =>
    exact classifyFrom_of_none hnone
  | case2 s plain position hlt first last hfound s' plain' hword ih =>
    rw [Regex.matchesFrom_of_some hfound] at agrees
    have hrest := ih fun word hmem => agrees word (List.mem_cons_of_mem _ hmem)
    have hfound' : (grammar.withKeywords table).word.findSwept? ⟨source.chars, stop⟩ position =
        some (first, last) := hfound
    rw [classifyFrom_of_some hlt hfound', ← hrest]
    by_cases hne : first < last
    · have htake := takeWord_withKeywords (s := s) grammar source plain
        (agrees _ (List.mem_cons_self ..) hne)
      rw [dif_pos hne] at hword
      rw [if_pos hne, htake, hword]
    · rw [dif_neg hne] at hword
      cases hword
      rw [if_neg hne]
  | case3 s plain position hge =>
    exact classifyFrom_of_le (Nat.not_lt.1 hge)

end Words

/-- The tables agree on the words of what is passed over, up to a position, if no scope is open. -/
def AgreesTo (ctx : Context) (table : KeywordTable) (s : State) (position : Nat) : Prop :=
  s.stack = [] → s.gap < position →
    ∀ word ∈ ctx.grammar.word.matchesFrom ⟨ctx.source.chars, position⟩ s.gap, word.1 < word.2 →
      ctx.grammar.keywords.Agrees table (ctx.source.slice word.1 word.2)

theorem flushGap_withKeywords {position : Nat} (agrees : s.AgreesTo ctx table position) :
    s.flushGap (ctx.withKeywords table) position = s.flushGap ctx position := by
  cases hs : s.stack with
  | cons frame stack => rw [flushGap_inside hs, flushGap_inside hs]
  | nil =>
    rcases Nat.lt_or_ge s.gap position with hlt | hle
    · have hsame : s.classifyFrom (ctx.grammar.withKeywords table) ctx.source position s.gap s.gap =
          s.classifyFrom ctx.grammar ctx.source position s.gap s.gap :=
        classifyFrom_withKeywords ctx.grammar ctx.source (agrees hs hlt)
      rw [flushGap_outside hs hlt, flushGap_outside hs hlt, ← hsame]
      rfl
    · rw [flushGap_of_le hle, flushGap_of_le hle]

theorem agreesTo_of_opened {position : Nat} (opened : s.stack ≠ []) :
    s.AgreesTo ctx table position := fun outside => absurd outside opened

section Steps

variable {inside : Embedding ctx → Inner} {inside' : Embedding (ctx.withKeywords table) → Inner}
  (hin : ∀ e : Embedding ctx, inside' (e.withKeywords table) = inside e)

theorem finish_withKeywords (agrees : s.AgreesTo ctx table ctx.stop) :
    s.finish (ctx.withKeywords table) = s.finish ctx := by
  unfold finish
  rw [show (ctx.withKeywords table).stop = ctx.stop from rfl, flushGap_withKeywords agrees]
  rfl

theorem skipChar_withKeywords (position : Nat)
    (agrees : ∀ stop, passes? ctx position = some stop → s.AgreesTo ctx table stop) :
    s.skipChar (ctx.withKeywords table) position = s.skipChar ctx position := by
  unfold passes? at agrees
  unfold skipChar
  rw [show (ctx.withKeywords table).stop = ctx.stop from rfl]
  split
  · rfl
  · rename_i hend
    rw [if_neg hend] at agrees
    exact finish_withKeywords (agrees ctx.stop rfl)

/-- Inside of scopes the table is not consulted. -/
theorem closeScope_withKeywords (opened : s.stack ≠ []) :
    s.closeScope (ctx.withKeywords table) start stop = s.closeScope ctx start stop := by
  unfold closeScope
  rw [flushGap_withKeywords (agreesTo_of_opened opened)]
  rfl

theorem markIllegal_withKeywords
    (agrees : ∀ position, (if stop ≤ start then passes? ctx start else some start) = some position →
      s.AgreesTo ctx table position) :
    s.markIllegal (ctx.withKeywords table) start stop = s.markIllegal ctx start stop := by
  unfold markIllegal
  split
  · rename_i hempty
    rw [if_pos hempty] at agrees
    exact skipChar_withKeywords start agrees
  · rename_i hlt
    rw [if_neg hlt] at agrees
    have hsame : ∀ happened e, ((s.recordIf happened e).flushGap (ctx.withKeywords table) start) =
        (s.recordIf happened e).flushGap ctx start := by
      intro happened e
      refine flushGap_withKeywords ?_
      cases happened <;> exact agrees start rfl
    simp only [hsame]
    rfl

include hin

theorem CollectsBody.withKeywords {kind : Kind} {language : String}
    (collects : CollectsBody ctx inside s kind language start stop t) :
    CollectsBody (ctx.withKeywords table) inside' s kind language start stop t := by
  cases collects with
  | unknown missing => exact .unknown missing
  | adopted e known start_eq stop_eq base_eq =>
    rw [← hin e]
    exact .adopted (e.withKeywords table) known start_eq stop_eq base_eq
  | limited known lt full => exact .limited known lt full
  | empty known le => exact .empty known le

theorem Enters.withKeywords {rule : Rule} (enters : Enters ctx inside s rule start stop t) :
    Enters (ctx.withKeywords table) inside' s rule start stop t := by
  cases enters with
  | own own => exact .own own
  | @closed language body last next embedded collects found =>
    have opened : (body.advance last).stack ≠ [] := by
      simp [advance, collects.toCourse_eq, toCourse_openScope]
    rw [← closeScope_withKeywords opened]
    exact .closed embedded (collects.withKeywords hin) found
  | unclosed embedded collects endless =>
    exact .unclosed embedded (collects.withKeywords hin) endless

theorem enterScope_withKeywords (rule : Rule) :
    s.enterScope (ctx.withKeywords table) inside' rule start stop =
      s.enterScope ctx inside rule start stop :=
  enters_iff.1 ((enters_enterScope ctx inside s rule start stop).withKeywords hin)

theorem takes_withKeywords {rule : Rule}
    (agrees : ∀ position, (if stop ≤ start then passes? ctx start
      else if rule.opensScope && ctx.cap ≤ s.depth ctx then none else some start) = some position →
      s.AgreesTo ctx table position)
    (takes : Takes ctx inside s rule start stop t) :
    Takes (ctx.withKeywords table) inside' s rule start stop t := by
  have harrive : start < stop → ¬(rule.opensScope && decide (ctx.cap ≤ s.depth ctx)) = true →
      s.arrive (ctx.withKeywords table) rule start = s.arrive ctx rule start := by
    intro hlt hroom
    rw [if_neg (Nat.not_le.2 hlt), if_neg hroom] at agrees
    unfold arrive
    rw [flushGap_withKeywords (agrees start rfl)]
  cases takes with
  | skip empty =>
    rw [if_pos empty] at agrees
    have hsame := skipChar_withKeywords
      (s := s.record (.skippedEmptyOpening (ctx.source.byte start))) start agrees
    rw [← hsame]
    exact .skip empty
  | refuse lt opens full => exact .refuse lt opens full
  | enter lt opens room =>
    rw [← harrive lt (by simp [opens, Nat.not_le.2 room]), ← enterScope_withKeywords hin]
    exact .enter lt opens room
  | single lt opens =>
    rw [← harrive lt (by simp [opens])]
    exact .single lt opens

/-- A step is the same with a table that agrees on the words that it looks up. -/
theorem steps_withKeywords
    (agrees : ∀ position, s.collects? ctx = some position → s.AgreesTo ctx table position)
    (steps : Steps ctx inside s t) : Steps (ctx.withKeywords table) inside' s t := by
  unfold collects? at agrees
  cases steps with
  | ended none =>
    rw [none] at agrees
    rw [← finish_withKeywords (agrees ctx.stop rfl)]
    exact .ended none
  | lost hit none =>
    simp only [hit, none] at agrees
    rw [← finish_withKeywords (agrees ctx.stop rfl)]
    exact .lost hit none
  | rule hit found takes =>
    simp only [hit, found] at agrees
    exact .rule hit found (takes_withKeywords hin agrees takes)
  | close hit =>
    rw [← closeScope_withKeywords (opened_of_closing hit)]
    exact .close hit
  | illegal hit =>
    simp only [hit] at agrees
    rw [← markIllegal_withKeywords agrees]
    exact .illegal hit

end Steps

/-- Where the tables agree on the words that a step looks up, they agree as far as it collects. -/
theorem agreesTo_of_lookups
    (agrees : ∀ word, s.LooksUp ctx word →
      ctx.grammar.keywords.Agrees table (ctx.source.slice word.1 word.2))
    {position : Nat} (collects : s.collects? ctx = some position) :
    s.AgreesTo ctx table position := by
  intro outside hlt word hword hne
  exact agrees word ⟨position, hands?_eq_some.2 ⟨outside, collects, hlt⟩, hword, hne⟩

/-- A run is the same with a table that agrees on the words that are looked up in it. -/
theorem drain_withKeywords (found : Array Span) (s : State)
    (agrees : ∀ u ∈ s.trail ctx, ∀ word, u.LooksUp ctx word →
      ctx.grammar.keywords.Agrees table (ctx.source.slice word.1 word.2)) :
    s.drain (ctx.withKeywords table) (ctx.withKeywords table).inside found =
      s.drain ctx ctx.inside found := by
  fun_induction s.drain ctx ctx.inside found with
  | case1 found s found' hdone => exact drain_of_done _ found hdone
  | case2 found s found' going ih =>
    have going := Bool.eq_false_iff.2 going
    rw [trail_of_going (s := s) going] at agrees
    have hstep : s.emptied.step (ctx.withKeywords table) (ctx.withKeywords table).inside =
        s.emptied.step ctx ctx.inside :=
      steps_iff.1 (steps_withKeywords (fun _ => rfl)
        (fun _ => agreesTo_of_lookups (agrees _ (List.mem_cons_self ..))) (steps_iff.2 rfl))
    rw [drain_of_going _ found going, hstep]
    exact ih fun u hu => agrees u (List.mem_cons_of_mem _ hu)

end State

/-- What becomes of a stretch of text outside all scopes. The search for its words ends, its keywords
and the plain text around them are the stretch, and among the spans of the region the stretch is cut
at its keywords and nowhere else. -/
structure Splits (grammar : Grammar) (source : Source) (a b : Nat) (spans : List Span) : Prop where
  ends : (grammar.word.matchesFrom ⟨source.chars, b⟩ a).length ≤ b + 1 - a
  tiles : Tiles (cutAt b a (grammar.keywordSpans source b a)) a b
  keywords : (grammar.keywordSpans source b a).Sublist
    (cutAt b a (grammar.keywordSpans source b a))
  rest : ∀ span ∈ cutAt b a (grammar.keywordSpans source b a),
    span ∈ grammar.keywordSpans source b a ∨ span.kind = .plain
  /-- Plain text at the edges of the stretch is one span with the plain text next to it. -/
  found : ∃ front back first last, first ≤ a ∧ b ≤ last ∧
    spans = front ++ cutAt last first (grammar.keywordSpans source b a) ++ back

theorem State.splits_of_mem_trail {ctx : Context} {first stop : Nat} {s t : State}
    (covers : Covers ctx first t) (hs : s ∈ t.trail ctx) (hands : s.hands? ctx = some stop) :
    Splits ctx.grammar ctx.source s.gap stop (t.drain ctx ctx.inside #[]).1.toList := by
  obtain ⟨outside, hcollects, hlt⟩ := hands?_eq_some.1 hands
  obtain ⟨middle, hcovers⟩ := exists_covers_of_mem_trail covers hs
  obtain ⟨front, e, hcontinues, hspans⟩ := continues_of_mem_trail covers hs
  have hstep := collects_step hcovers (going_of_mem_trail hs)
  rw [hcollects] at hstep
  obtain ⟨front', back, a, b, ha, hb, hcut⟩ :=
    split_flushGap ctx outside hcovers.collected hlt (hstep.2.2.trans hcontinues)
  refine ⟨Regex.length_matchesFrom_le .., tiles_cutAt_keywordSpans _ _ (Nat.le_refl _)
    (Nat.le_of_lt hlt), sublist_cutAt .., kind_of_mem_cutAt,
    front ++ front', back, a, b, ha, hb, ?_⟩
  rw [hspans, hcut, List.append_assoc front, List.append_assoc front, List.append_assoc front']

/-- How the text of a region is split into words, in every grammar. Every stretch that is handed over
to be split is cut at the words in it that the keyword table knows. A word that is looked up has
nothing in common with the text that any step collects while scopes are open or takes as a match; each
place of the region has a step that collects it. And no other word is looked up: the region comes to
the same with every table that says the same about these. -/
theorem words_of_region (ctx : Context) {first : Nat} (h : first ≤ ctx.stop) :
    let run := (State.start first).trail ctx
    (∀ s ∈ run, ∀ stop, s.hands? ctx = some stop →
      Splits ctx.grammar ctx.source s.gap stop (region ctx first).spans) ∧
    (∀ s ∈ run, ∀ t ∈ run, ∀ word a b, s.LooksUp ctx word → t.Claims ctx a b →
      State.Apart word a b) ∧
    (∀ position, first ≤ position → position < ctx.stop →
      ∃ s ∈ run, s.gap ≤ position ∧ position < (s.takeStep ctx).gap) ∧
    ∀ table : KeywordTable,
      (∀ s ∈ run, ∀ word, s.LooksUp ctx word →
        ctx.grammar.keywords.Agrees table (ctx.source.slice word.1 word.2)) →
      region (ctx.withKeywords table) first = region ctx first := by
  have covers : State.Covers ctx first (State.start first) := State.covers_start h
  have hregion : (region ctx first).spans =
      ((State.start first).drain ctx ctx.inside #[]).1.toList := by rw [region_eq]
  refine ⟨fun s hs stop hands => ?_, fun s hs t ht word a b looks claims => ?_,
    fun position hfirst hstop => ?_, fun table agrees => ?_⟩
  · rw [hregion]
    exact State.splits_of_mem_trail covers hs hands
  · exact State.apart_of_mem_trail covers hs ht looks claims
  · exact State.exists_stretch covers hfirst hstop
  · rw [region_eq, region_eq, State.drain_withKeywords #[] _ agrees]

/-- So is a text split that has a keyword in it, an unknown word and letters between bars. -/
theorem words_of_marks :
    let ctx := (Highlighting.start .marks (fun _ => none) 32 "x é|ab| x").ctx
    0 ≤ ctx.stop ∧ ∀ s ∈ (State.start 0).trail ctx, ∀ stop, s.hands? ctx = some stop →
      Splits ctx.grammar ctx.source s.gap stop (region ctx 0).spans :=
  ⟨Nat.zero_le _, (words_of_region _ (Nat.zero_le _)).1⟩

end Scan

end Highlighter
