import Highlighter.Proofs.Scopes.Open
import Highlighter.Proofs.Twins.Region
import Highlighter.Proofs.Unembedded.Grammars

/-!
Regions without embedded languages. Where no language is found, a region is highlighted step by step
as with the grammar that names none, as long as no scope is opened whose text is in a language.
-/

namespace Highlighter.Scan

/-- The scope as it is opened by the rule without the language of its text. -/
def Frame.unembedded (frame : Frame) : Frame := { frame with rule := frame.rule.unembedded }

/-- Whether what happened is that a language was not found. -/
def Event.missesLanguage : Event → Bool
  | .missedLanguage _ => true
  | _ => false

/-- Regions of the same text in two grammars: in the first no language is found, and the second is
the first without the languages of texts. -/
structure Context.Unembedded (ctx ctx' : Context) : Prop where
  grammar : ctx.grammar.Unembedded ctx'.grammar
  missing : ∀ language, ctx.language? language = none
  cap : ctx'.cap = ctx.cap
  source : ctx'.source = ctx.source
  stop : ctx'.stop = ctx.stop
  base : ctx'.base = ctx.base

theorem Context.Unembedded.haystack {ctx ctx' : Context} (h : ctx.Unembedded ctx') :
    ctx'.haystack = ctx.haystack := by
  rw [Context.haystack, h.source, h.stop]
  rfl

namespace State

/-- The state as it is where no rule names a language: the rules of the open scopes name none, and
none has been missed. -/
def unembedded (s : State) : State :=
  { s with
    stack := s.stack.map Frame.unembedded
    events := s.events.filter (!·.missesLanguage) }

variable {ctx ctx' : Context} {s t : State} {rule : Rule} {start stop : Nat}

section Fields

variable (s : State)

@[simp] theorem cursor_unembedded : s.unembedded.cursor = s.cursor := rfl
@[simp] theorem gap_unembedded : s.unembedded.gap = s.gap := rfl
@[simp] theorem stack_unembedded : s.unembedded.stack = s.stack.map Frame.unembedded := rfl
@[simp] theorem done_unembedded : s.unembedded.done = s.done := rfl
@[simp] theorem outcome_unembedded : s.unembedded.outcome = s.outcome := rfl
@[simp] theorem hits_unembedded : s.unembedded.hits = s.hits := rfl

@[simp] theorem kind_unembedded : s.unembedded.kind = s.kind := by
  unfold kind
  rw [stack_unembedded]
  cases s.stack <;> rfl

theorem depth_unembedded (h : ctx.Unembedded ctx') : s.unembedded.depth ctx' = s.depth ctx := by
  rw [depth, depth, stack_unembedded, List.length_map, h.base]

end Fields

section Actions

variable (s : State) (kind : Kind) (start stop n : Nat) (cut : Bool)

theorem unembedded_text :
    (s.text kind start stop).unembedded = s.unembedded.text kind start stop := rfl

theorem unembedded_atom :
    (s.atom kind start stop).unembedded = s.unembedded.atom kind start stop := rfl

theorem unembedded_flushIf : (s.flushIf cut).unembedded = s.unembedded.flushIf cut := by
  cases cut <;> rfl

theorem unembedded_record {e : Event} (he : e.missesLanguage = false) :
    (s.record e).unembedded = s.unembedded.record e := by
  simp [record, unembedded, he]

theorem unembedded_record_missed (language : String) :
    (s.record (.missedLanguage language)).unembedded = s.unembedded := rfl

theorem unembedded_recordIf (happened : Bool) {e : Event} (he : e.missesLanguage = false) :
    (s.recordIf happened e).unembedded = s.unembedded.recordIf happened e := by
  cases happened
  · rfl
  · exact s.unembedded_record he

theorem unembedded_addRelevance : (s.addRelevance n).unembedded = s.unembedded.addRelevance n := rfl

theorem unembedded_advance : (s.advance stop).unembedded = s.unembedded.advance stop := rfl

theorem unembedded_withStack (stack : List Frame) : (s.withStack stack).unembedded =
    s.unembedded.withStack (stack.map Frame.unembedded) := rfl

theorem unembedded_countKeyword (key : String) (relevance : Nat) :
    (s.countKeyword key relevance).unembedded = s.unembedded.countKeyword key relevance := by
  unfold countKeyword
  rw [hits_unembedded]
  dsimp only
  split <;> rfl

theorem unembedded_takeSingle (rule : Rule) : (s.takeSingle rule start stop).unembedded =
    s.unembedded.takeSingle rule.unembedded start stop := by
  unfold takeSingle
  rw [Rule.kind_unembedded, kind_unembedded]
  cases rule.kind <;> rfl

end Actions

section Words

variable {g g' : Grammar} {source : Source}

theorem unembedded_takeWord (h : g.Unembedded g') (s : State) (plain first last : Nat) :
    s.unembedded.takeWord g' source plain first last =
      ((s.takeWord g source plain first last).1.unembedded,
        (s.takeWord g source plain first last).2) := by
  unfold takeWord
  rw [h.keywords]
  simp only
  split
  · rw [unembedded_countKeyword, unembedded_atom, unembedded_text]
  · rfl

theorem unembedded_classifyFrom (h : g.Unembedded g') (s : State) (stop plain position : Nat) :
    (s.classifyFrom g source stop plain position).unembedded =
      s.unembedded.classifyFrom g' source stop plain position := by
  fun_induction s.classifyFrom g source stop plain position with
  | case1 s plain position hlt hnone =>
    rw [← h.word] at hnone
    rw [classifyFrom_of_none hnone, unembedded_text]
  | case2 s plain position hlt first last hfound t plain' htake ih =>
    rw [← h.word] at hfound
    rw [ih, classifyFrom_of_some hlt hfound]
    split at htake
    · rename_i hne
      rw [if_pos hne, unembedded_takeWord h, htake]
    · rename_i hne
      cases htake
      rw [if_neg hne]
  | case3 s plain position hlt =>
    rw [classifyFrom_of_le (Nat.not_lt.1 hlt), unembedded_text]

end Words

section Scopes

variable (h : ctx.Unembedded ctx')

include h

theorem unembedded_flushGap (s : State) (position : Nat) :
    (s.flushGap ctx position).unembedded = s.unembedded.flushGap ctx' position := by
  unfold flushGap
  rw [gap_unembedded, stack_unembedded, List.isEmpty_map, kind_unembedded]
  split
  · rfl
  · simp only
    split
    · unfold classify
      rw [h.source, ← unembedded_classifyFrom h.grammar]
      rfl
    · rfl

theorem unembedded_finish (s : State) : (s.finish ctx).unembedded = s.unembedded.finish ctx' := by
  unfold finish
  rw [done_unembedded, h.stop, ← unembedded_flushGap h]
  generalize s.flushGap ctx ctx.stop = t
  split
  · rfl
  · cases ht : t.stack with
    | nil => simp [ht, unembedded, flush]
    | cons frame stack => simp [ht, h.grammar.name, unembedded, record, flush, Event.missesLanguage]

theorem unembedded_skipChar (s : State) (position : Nat) :
    (s.skipChar ctx position).unembedded = s.unembedded.skipChar ctx' position := by
  unfold skipChar
  rw [h.stop]
  split
  · rfl
  · exact unembedded_finish h s

theorem unembedded_closeScope (s : State) (start stop : Nat) :
    (s.closeScope ctx start stop).unembedded = s.unembedded.closeScope ctx' start stop := by
  unfold closeScope
  rw [← unembedded_flushGap h]
  generalize s.flushGap ctx start = t
  cases ht : t.stack with
  | nil => simp [ht]
  | cons frame stack =>
    have hrecord : ∀ (u : State) (e : Event), e.missesLanguage = false →
        ((u.record e).advance stop).unembedded = (u.unembedded.record e).advance stop :=
      fun u e he => by rw [unembedded_advance, unembedded_record _ he]
    simp only [stack_unembedded, ht, List.map_cons, Frame.unembedded,
      Rule.closingOutside_unembedded, Rule.kind_unembedded, h.source]
    rw [hrecord _ _ rfl]
    split
    · rw [← unembedded_withStack, kind_unembedded, unembedded_text, unembedded_flushIf]
    · rw [unembedded_flushIf, unembedded_text, unembedded_withStack]

theorem unembedded_markIllegal (s : State) (start stop : Nat) :
    (s.markIllegal ctx start stop).unembedded = s.unembedded.markIllegal ctx' start stop := by
  unfold markIllegal
  split
  · exact unembedded_skipChar h s start
  · dsimp only
    rw [h.source, h.grammar.name, outcome_unembedded, ← unembedded_recordIf _ _ rfl,
      ← unembedded_flushGap h]
    rfl

theorem unembedded_refuse (s : State) (start stop : Nat) :
    (s.refuse ctx start stop).unembedded = s.unembedded.refuse ctx' start stop := by
  unfold refuse
  rw [h.source, h.cap, h.grammar.name, outcome_unembedded, ← unembedded_recordIf _ _ rfl]
  rfl

theorem unembedded_arrive (s : State) (rule : Rule) (start : Nat) :
    (s.arrive ctx rule start).unembedded = s.unembedded.arrive ctx' rule.unembedded start := by
  rw [arrive, arrive, Rule.relevance_unembedded, ← unembedded_flushGap h, unembedded_addRelevance]

/-- The same scope is opened, by the rule that names no language. -/
theorem unembedded_frame (s : State) (rule : Rule) (start stop : Nat) :
    (s.frame ctx rule start stop).unembedded =
      s.unembedded.frame ctx' rule.unembedded start stop := by
  unfold frame Frame.unembedded
  rw [Rule.kind_unembedded, Rule.ending_unembedded, kind_unembedded, h.source]

theorem unembedded_openScope (s : State) (rule : Rule) (start stop : Nat) :
    (s.openScope ctx rule start stop).unembedded =
      s.unembedded.openScope ctx' rule.unembedded start stop := by
  unfold openScope
  rw [← unembedded_frame h, Rule.openingOutside_unembedded, Rule.kind_unembedded, kind_unembedded,
    h.source]
  cases rule.openingOutside <;> cases rule.kind <;> rfl

theorem unembedded_entered (s : State) (rule : Rule) (start stop : Nat) :
    (s.entered ctx rule start stop).unembedded =
      s.unembedded.entered ctx' rule.unembedded start stop := by
  rw [entered, entered, unembedded_openScope h, unembedded_arrive h]

/-- No scope is open whose text is in a language of its own. -/
def OwnText (s : State) : Prop := ∀ frame ∈ s.stack, frame.rule.language = none

variable (own : s.OwnText)

include own

theorem OwnText.rules (i : Nat) :
    (s.unembedded.rules ctx')[i]? = (s.rules ctx)[i]?.map Rule.unembedded := by
  rw [← List.getElem?_map]
  unfold State.rules
  rw [stack_unembedded]
  cases hs : s.stack with
  | nil => rw [List.map_nil, h.grammar.rules]
  | cons frame stack =>
    have hrule := own frame (hs ▸ List.mem_cons_self ..)
    simp only [List.map_cons, Frame.unembedded, Rule.unembedded_of_none hrule]

theorem OwnText.nextHit? : s.unembedded.nextHit? ctx' = s.nextHit? ctx := by
  unfold State.nextHit?
  rw [stack_unembedded, cursor_unembedded, h.haystack, h.grammar.scanner]
  cases hs : s.stack with
  | nil => rfl
  | cons frame stack =>
    have hrule := own frame (hs ▸ List.mem_cons_self ..)
    simp only [List.map_cons, Frame.unembedded, Rule.unembedded_of_none hrule]
    rfl

theorem OwnText.opens (opens : s.Opens ctx rule start stop) :
    s.unembedded.Opens ctx' rule.unembedded start stop where
  hit := by
    obtain ⟨index, hit, found⟩ := opens.hit
    exact ⟨index, (own.nextHit? h).trans hit, by rw [own.rules h, found, Option.map_some]⟩
  start_lt_stop := opens.start_lt_stop
  opensScope := by rw [Rule.opensScope_unembedded, opens.opensScope]
  depth_lt_cap := by
    rw [depth_unembedded s h, h.cap]
    exact opens.depth_lt_cap

/-- A step that opens a scope opens it with the grammar that names no language, and does nothing
else then. -/
theorem OwnText.takeStep_of_opens (opens : s.Opens ctx rule start stop) :
    s.unembedded.takeStep ctx' = (s.entered ctx rule start stop).unembedded := by
  rw [(own.opens h opens).takeStep_of_own (Rule.language_unembedded rule), unembedded_entered h]

/-- Where a step opens no scope whose text is in a language of its own, the same step is taken with
the grammar that names none. -/
theorem OwnText.takeStep
    (plain : ∀ rule start stop, s.Opens ctx rule start stop → rule.language = none) :
    (s.takeStep ctx).unembedded = s.unembedded.takeStep ctx' := by
  have hnext := own.nextHit? h
  have hrules := own.rules h
  have hsteps : Steps ctx ctx.inside s (s.takeStep ctx) := steps_iff.2 rfl
  generalize s.takeStep ctx = t at hsteps
  refine (steps_iff.1 ?_).symm
  cases hsteps with
  | ended none =>
    rw [unembedded_finish h]
    exact .ended (hnext.trans none)
  | lost hit none =>
    rw [unembedded_finish h]
    exact .lost (hnext.trans hit) (by rw [hrules, none, Option.map_none])
  | rule hit found takes =>
    refine .rule (hnext.trans hit) (by rw [hrules, found, Option.map_some]) ?_
    cases takes with
    | skip empty =>
      rw [unembedded_skipChar h, unembedded_record _ rfl, ← h.source]
      exact .skip empty
    | refuse lt opens full =>
      rw [unembedded_refuse h]
      rw [← depth_unembedded s h, ← h.cap] at full
      exact .refuse lt (by rwa [Rule.opensScope_unembedded]) full
    | @enter lt opens room =>
      rw [enterScope_of_own _ (plain _ _ _ ⟨⟨_, hit, found⟩, lt, opens, room⟩),
        unembedded_openScope h, unembedded_arrive h,
        ← enterScope_of_own ctx'.inside (Rule.language_unembedded _)]
      rw [← depth_unembedded s h, ← h.cap] at room
      exact .enter lt (by rwa [Rule.opensScope_unembedded]) room
    | single lt opens =>
      rw [unembedded_takeSingle, unembedded_arrive h]
      exact .single lt (by rwa [Rule.opensScope_unembedded])
  | close hit =>
    rw [unembedded_closeScope h]
    exact .close (hnext.trans hit)
  | illegal hit =>
    rw [unembedded_markIllegal h]
    exact .illegal (hnext.trans hit)

omit h in
/-- And then no such scope is open. -/
theorem OwnText.takeStep_ownText
    (plain : ∀ rule start stop, s.Opens ctx rule start stop → rule.language = none) :
    (s.takeStep ctx).OwnText := by
  intro frame hframe
  rcases stack_step ctx ctx.inside s with hsuffix | ⟨rule, start, stop, opens, hstack⟩
  · exact own frame (hsuffix.subset hframe)
  · rw [State.takeStep, hstack] at hframe
    rcases List.mem_cons.1 hframe with rfl | hframe
    · exact plain rule start stop opens
    · exact own frame hframe

end Scopes

end State

end Highlighter.Scan
