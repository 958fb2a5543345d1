import Highlighter.Proofs.Depth
import Highlighter.Proofs.DepthCap
import Highlighter.Proofs.Embedding.Isolated
import Highlighter.Proofs.Registry.Languages

/-!
The languages that highlighting looks up. Each is that of a rule of the grammar of its region, and
that grammar is registered, since regions get their grammars from the registry; so where the registry
is valid it is found, however deep the regions are embedded. A language that is looked up in vain is
recorded, and nothing else is, so there are no such records.
-/

namespace Highlighter

namespace Scan

/-- The languages that were looked up in vain, the latest first. -/
def missed (events : List Event) : List String :=
  events.filterMap fun
    | .missedLanguage language => some language
    | _ => none

theorem mem_missed {events : List Event} {language : String} :
    language ∈ missed events ↔ .missedLanguage language ∈ events := by
  unfold missed
  rw [List.mem_filterMap]
  constructor
  · rintro ⟨event, hmem, hmissed⟩
    split at hmissed
    · cases hmissed
      exact hmem
    · cases hmissed
  · exact fun hmem => ⟨_, hmem, rfl⟩

theorem missed_append (events events' : List Event) :
    missed (events ++ events') = missed events ++ missed events' := List.filterMap_append

namespace State

/-- Where no failed lookup is recorded, none is added. -/
theorem missed_of_notes {s t : State} {flags : Flags} {recorded : List Event}
    (h : t.notes = ⟨flags, recorded ++ s.events⟩) (none : missed recorded = []) :
    missed t.events = missed s.events := by
  have hevents : t.events = recorded ++ s.events := congrArg Notes.events h
  rw [hevents, missed_append, none, List.nil_append]

section Actions

variable (ctx : Context) (s : State) (start stop : Nat)

theorem missed_finish : missed (s.finish ctx).events = missed s.events := by
  cases hdone : s.done with
  | false => exact missed_of_notes (s.notes_finish ctx hdone) (by cases s.stack.isEmpty <;> rfl)
  | true =>
    unfold finish
    rw [if_pos hdone]

theorem missed_skipChar : missed (s.skipChar ctx start).events = missed s.events := by
  unfold skipChar
  split
  · rfl
  · exact missed_finish ctx s

theorem missed_closeScope : missed (s.closeScope ctx start stop).events = missed s.events :=
  missed_of_notes (s.notes_closeScope ctx start stop) (by cases s.stack <;> rfl)

theorem missed_markIllegal : missed (s.markIllegal ctx start stop).events = missed s.events := by
  by_cases h : start < stop
  · exact missed_of_notes (s.notes_markIllegal ctx h) (by cases s.outcome.illegal <;> rfl)
  · rw [markIllegal_of_le (Nat.not_lt.1 h)]
    exact missed_skipChar ctx s start

theorem missed_refuse : missed (s.refuse ctx start stop).events = missed s.events :=
  missed_of_notes (s.notes_refuse ctx start stop) (by cases s.outcome.depthLimited <;> rfl)

end Actions

variable {ctx : Context} {inside : Embedding ctx → Inner} {s t : State}

section Known

variable (known : ∀ e : Embedding ctx, ∀ language, ctx.language? language = some e.grammar →
  missed (inside e).events = [])

include known

theorem CollectsBody.missed_eq {kind : Kind} {language : String} {start stop : Nat}
    (collects : CollectsBody ctx inside s kind language start stop t) {grammar : Grammar}
    (found : ctx.language? language = some grammar) : missed t.events = missed s.events := by
  cases collects with
  | unknown missing => cases missing.symm.trans found
  | adopted e known' => exact missed_of_notes (s.notes_adopt kind _) (known e language known')
  | limited => cases s.outcome.depthLimited <;> rfl
  | empty => rfl

theorem Enters.missed_eq {rule : Rule} {start stop : Nat}
    (enters : Enters ctx inside s rule start stop t) (found : ∀ language,
      rule.language = some language → ∃ grammar, ctx.language? language = some grammar) :
    missed t.events = missed s.events := by
  have hopen : missed (s.openScope ctx rule start stop).events = missed s.events :=
    congrArg (missed ∘ Notes.events) (s.notes_openScope ctx rule start stop)
  cases enters with
  | own => exact hopen
  | closed embedded collects =>
    obtain ⟨grammar, hgrammar⟩ := found _ embedded
    exact (missed_closeScope ..).trans ((collects.missed_eq known hgrammar).trans hopen)
  | unclosed embedded collects =>
    obtain ⟨grammar, hgrammar⟩ := found _ embedded
    exact (collects.missed_eq known hgrammar).trans hopen

/-- A step looks up a language in vain only if it opens a scope whose text is in that language. -/
theorem missed_step (found : ∀ rule start stop language, s.Opens ctx rule start stop →
      rule.language = some language → ∃ grammar, ctx.language? language = some grammar) :
    missed (s.step ctx inside).events = missed s.events := by
  have hsteps : Steps ctx inside s (s.step ctx inside) := steps_iff.2 rfl
  generalize s.step ctx inside = t at hsteps
  cases hsteps with
  | ended => exact missed_finish ctx s
  | lost => exact missed_finish ctx s
  | @rule index start stop rule _ hit hrule takes =>
    have harrive := congrArg (missed ∘ Notes.events) (s.notes_arrive ctx rule start)
    cases takes with
    | skip empty => exact missed_skipChar ctx (s.record _) start
    | refuse lt opens full => exact missed_refuse ctx s start stop
    | enter lt opens room =>
      refine ((enters_enterScope ..).missed_eq known fun language hlanguage => ?_).trans harrive
      exact found rule start stop language ⟨⟨index, hit, hrule⟩, lt, opens, room⟩ hlanguage
    | single lt opens =>
      have hsingle := (s.arrive ctx rule start).notes_takeSingle rule start stop
      exact (congrArg (missed ∘ Notes.events) hsingle).trans harrive
  | close hit => exact missed_closeScope ctx s _ _
  | illegal hit => exact missed_markIllegal ctx s _ _

end Known

end State

end Scan

namespace Registry

open Scan

/-- A region of the text of a registry: its grammar is registered, and languages are looked up
there. -/
structure Serves (r : Registry) (ctx : Context) : Prop where
  grammar : ctx.grammar ∈ r.grammars
  language : ctx.language? = r.find?

namespace Serves

variable {r : Registry} {ctx : Context} {s : State}

theorem embed (h : r.Serves ctx) {e : Embedding ctx} {language : String}
    (found : ctx.language? language = some e.grammar) : r.Serves e.context where
  grammar := mem_of_find? (h.language ▸ found)
  language := h.language

/-- Every region embedded in a region of a registry is one, too. -/
theorem of_reached {top : Context} (h : r.Serves top) {first : Nat} (reached : Reached top ctx first s) :
    r.Serves ctx := by
  induction reached with
  | start => exact h
  | take reached popped ih => exact ih
  | step reached going ih => exact ih
  | embed reached going embeds ih =>
    obtain ⟨_, _, _, ⟨language, -, found⟩, -⟩ := embeds.opens
    exact ih.embed found

variable (h : r.Serves ctx) (resolved : r.Resolved)

include h resolved

/-- The language of a scope that a step opens is registered. -/
theorem exists_language (belongs : ∀ frame ∈ s.stack, frame.BelongsTo ctx.grammar) {rule : Rule}
    {start stop : Nat} {language : String} (opens : s.Opens ctx rule start stop)
    (hlanguage : rule.language = some language) :
    ∃ grammar ∈ r.grammars, ctx.language? language = some grammar := by
  have hamong := (opens.belongsTo belongs).among
  obtain ⟨grammar, hfound⟩ := (resolved _ h.grammar).2 rule hamong language hlanguage
  exact ⟨grammar, mem_of_find? hfound, h.language ▸ hfound⟩

theorem missed_takeStep (belongs : ∀ frame ∈ s.stack, frame.BelongsTo ctx.grammar)
    (known : ∀ e : Embedding ctx, ∀ language, ctx.language? language = some e.grammar →
      missed (ctx.inside e).events = []) :
    missed (s.takeStep ctx).events = missed s.events :=
  State.missed_step known fun _ _ _ _ opens hlanguage => by
    obtain ⟨grammar, -, hfound⟩ := h.exists_language resolved belongs opens hlanguage
    exact ⟨grammar, hfound⟩

theorem missed_drain (known : ∀ e : Embedding ctx, ∀ language,
      ctx.language? language = some e.grammar → missed (ctx.inside e).events = [])
    (found : Array Span) (s : State) (belongs : ∀ frame ∈ s.stack, frame.BelongsTo ctx.grammar) :
    missed (s.drain ctx ctx.inside found).2.events = missed s.events := by
  fun_induction s.drain ctx ctx.inside found with
  | case1 => rfl
  | case2 found s found' going ih =>
    have hbelongs : ∀ frame ∈ s.emptied.stack, frame.BelongsTo ctx.grammar := belongs
    rw [ih (State.belongsTo_step ctx.inside hbelongs)]
    exact h.missed_takeStep resolved hbelongs known

end Serves

/-- In a region of a valid registry nothing is looked up in vain, however deep regions are embedded
in it. -/
theorem Serves.missed_region {r : Registry} (resolved : r.Resolved) {ctx : Context}
    (h : r.Serves ctx) (start : Nat) : missed (region ctx start).events = [] := by
  fun_induction region ctx start with
  | case1 ctx start spans s hdrain ih =>
    exact h.missed_drain resolved (fun e _ found => ih e (h.embed found)) #[] (State.start start)
      (List.forall_mem_nil _)

theorem Serves.missed_of_reached {r : Registry} (resolved : r.Resolved) {top ctx : Context}
    {first : Nat} {s : State} (h : r.Serves top) (reached : Reached top ctx first s) :
    missed s.events = [] := by
  induction reached with
  | start => rfl
  | take reached popped ih => exact ih
  | step reached going ih =>
    have hserves := h.of_reached reached
    rw [hserves.missed_takeStep resolved reached.belongsTo fun e _ found =>
      (hserves.embed found).missed_region resolved e.start]
    exact ih
  | embed reached going embeds ih => rfl

/-- Every language that the next step looks up is registered, and its region is left as text only
where the cap leaves no level for it. -/
def Finds (r : Registry) (ctx : Context) (s : State) : Prop :=
  ∀ rule start stop language, s.Opens ctx rule start stop → rule.language = some language →
    ∃ g ∈ r.grammars, ctx.language? language = some g ∧
      (stop < (s.frame ctx rule start stop).bodyStop ctx.haystack stop →
        (∃ e, s.Embeds ctx e ∧ e.grammar = g ∧ e.start = stop) ∨
          s.depth ctx + 1 = ctx.cap ∧ (s.takeStep ctx).outcome.depthLimited = true)

/-- Where no level is left, the text of a scope is not highlighted in its language, and the outcome
says so. -/
theorem depthLimited_takeStep_of_full {ctx : Context} {s : State} {rule : Rule} {start stop : Nat}
    {language : String} {g : Grammar} (opens : s.Opens ctx rule start stop)
    (hlanguage : rule.language = some language) (found : ctx.language? language = some g)
    (body : stop < (s.frame ctx rule start stop).bodyStop ctx.haystack stop)
    (full : ¬ s.depth ctx + 1 < ctx.cap) : (s.takeStep ctx).outcome.depthLimited = true := by
  have hstack := s.stack_arrive ctx rule start
  rw [opens.takeStep_eq]
  refine (State.enters_enterScope ..).depthLimited_of_full hlanguage found ?_ ?_
  · rwa [State.frame_congr ctx hstack]
  · rw [State.depth, hstack]
    exact Nat.not_lt.1 full

theorem Serves.finds {r : Registry} (resolved : r.Resolved) {ctx : Context} {s : State}
    (h : r.Serves ctx) (belongs : ∀ frame ∈ s.stack, frame.BelongsTo ctx.grammar) :
    r.Finds ctx s := by
  intro rule start stop language opens hlanguage
  obtain ⟨g, hg, hfound⟩ := h.exists_language resolved belongs opens hlanguage
  refine ⟨g, hg, hfound, fun body => ?_⟩
  have hroom := opens.depth_lt_cap
  by_cases room : s.depth ctx + 1 < ctx.cap
  · let e : Embedding ctx :=
      { grammar := g
        start := stop
        stop := (s.frame ctx rule start stop).bodyStop ctx.haystack stop
        base := s.depth ctx + 1
        start_lt_stop := body
        stop_le := Frame.bodyStop_le _ _ _
        lt_base := by
          unfold State.depth
          omega
        base_lt_cap := room }
    exact .inl ⟨e, ⟨⟨rule, start, opens, ⟨language, hlanguage, hfound⟩, rfl⟩, rfl⟩, rfl, rfl⟩
  · exact .inr ⟨by omega, depthLimited_takeStep_of_full opens hlanguage hfound body room⟩

/-- A registry is valid just if every language that its grammars mention is registered, in whatever
rule they do. Then highlighting a text looks up no language in vain, neither in the text nor in a
region embedded in it at any depth: each is found, and a region is left as text only where the cap
leaves no level for it. -/
theorem finds_of_validate (r : Registry) :
    (r.validate = .ok () ↔ r.Resolved) ∧
    (r.validate = .ok () → ∀ (language : String) (maxDepth : Nat) (text : String)
      (h : Highlighting), r.start? language maxDepth text = some h →
        (∀ missing, .missedLanguage missing ∉ h.rest.2.events) ∧
        ∀ (ctx : Context) (first : Nat) (s : State), Reached h.ctx ctx first s →
          r.Finds ctx s ∧ ∀ missing, .missedLanguage missing ∉ s.events) := by
  refine ⟨validate_eq_ok_iff, fun valid language maxDepth text h hstart => ?_⟩
  have resolved := validate_eq_ok_iff.1 valid
  obtain ⟨g, hfound, rfl⟩ := Option.map_eq_some_iff.1 hstart
  have hserves : r.Serves (Highlighting.start g r.find? maxDepth text).ctx :=
    ⟨mem_of_find? hfound, rfl⟩
  refine ⟨fun missing hmem => ?_, fun ctx first s reached => ⟨?_, fun missing hmem => ?_⟩⟩
  · have hmissed := hserves.missed_region resolved 0
    rw [region_eq] at hmissed
    have hmem' := mem_missed.2 (List.mem_reverse.1 hmem)
    exact absurd (hmissed ▸ hmem') List.not_mem_nil
  · exact (hserves.of_reached reached).finds resolved reached.belongsTo
  · have hmem' := mem_missed.2 hmem
    rw [hserves.missed_of_reached resolved reached] at hmem'
    exact List.not_mem_nil hmem'

/-- Text between bars is embedded in text between bars. -/
theorem finds_bars :
    let r : Registry := { grammars := [.bars] }
    r.validate = .ok () ∧ ∃ h, r.start? "Bars" 32 "|a|" = some h ∧
      r.Finds h.ctx (State.start 0) ∧ ∃ e, (State.start 0).Embeds h.ctx e ∧ e.start = 1 := by
  intro r
  have valid : r.validate = .ok () := (finds_of_validate r).1.2 resolved_bars
  let h := Highlighting.start .bars r.find? 32 "|a|"
  have hstart : r.start? "Bars" 32 "|a|" = some h := by
    rw [start?, find?_bars (by decide +kernel)]
    rfl
  have hfinds := (((finds_of_validate r).2 valid _ _ _ h hstart).2 _ _ _ .start).1
  refine ⟨valid, h, hstart, hfinds, ?_⟩
  have opens : (State.start 0).Opens h.ctx .bars 0 1 :=
    ⟨⟨0, hit_bars, rfl⟩, by decide, rfl, by decide⟩
  obtain ⟨g, -, -, hembeds⟩ := hfinds .bars 0 1 "bars" opens rfl
  rcases hembeds (Nat.lt_of_lt_of_eq (by decide) bodyStop_bars.symm) with ⟨e, he, -, hstart⟩ | ⟨full, -⟩
  · exact ⟨e, he, hstart⟩
  · exact absurd full (by decide)

end Registry

end Highlighter
