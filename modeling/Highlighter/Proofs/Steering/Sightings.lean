import Highlighter.Proofs.Candidates
import Highlighter.Proofs.Draining
import Highlighter.Proofs.Registry.Index
import Highlighter.Proofs.Steering.Flags
import Highlighter.Proofs.Steering.Rules
import Highlighter.Proofs.Trail
import Mathlib.Data.List.Forall2

/-!
Two runs that search alike. What is searched for is told by the patterns alone, so where the patterns
agree the two runs come by the same hits, in a text and in every region embedded in it, and end with
the same flags. The invariant is that the two states stand at one place, with scopes open that are
searched alike; nothing is said of what they have collected.
-/

namespace Highlighter

namespace Scan

/-- What a search comes by: a hit, with its range in bytes and how deep the scope is nested in which
it was searched, or a region in another language, which is searched next, with the flags that it
ends with. -/
inductive Sighting
  | hit (hit : Hit) (start stop depth : Nat)
  | region (start stop depth : Nat) (flags : Flags)
  deriving DecidableEq

/-- What the next step comes by in its own region. -/
def State.sighting? (ctx : Context) (s : State) : Option Sighting :=
  (s.nextHit? ctx).map fun found =>
    .hit found.1 (ctx.source.byte found.2.1) (ctx.source.byte found.2.2) (s.depth ctx)

/-- What the search of a region comes by, in order: its hits, and behind the opening of a scope
whose text is in another language all that the search of that text comes by. -/
def sightings (ctx : Context) (first : Nat) : List Sighting :=
  ((State.start first).trail ctx).flatMap fun s =>
    (s.sighting? ctx).toList ++ (s.embedding? ctx).toList.flatMap fun e =>
      .region (ctx.source.byte e.start) (ctx.source.byte e.stop) e.base
        (ctx.inside e).outcome.flags :: sightings e.context e.start
termination_by ctx.cap - ctx.base
decreasing_by
  have := e.lt_base
  have := e.base_lt_cap
  simp only [Embedding.context]
  omega

/-- What a step comes by, in its own region and in the one that it embeds. -/
def State.sighted (ctx : Context) (s : State) : List Sighting :=
  (s.sighting? ctx).toList ++ (s.embedding? ctx).toList.flatMap fun e =>
    .region (ctx.source.byte e.start) (ctx.source.byte e.stop) e.base
      (ctx.inside e).outcome.flags :: sightings e.context e.start

theorem sightings_def (ctx : Context) (first : Nat) :
    sightings ctx first = ((State.start first).trail ctx).flatMap (·.sighted ctx) := by
  rw [sightings]
  rfl

/-- Regions that are searched alike. -/
structure Context.SameSearch (ctx ctx' : Context) : Prop where
  grammar : ctx.grammar.SameSearch ctx'.grammar
  language : ∀ name, Option.Rel Grammar.SameSearch (ctx.language? name) (ctx'.language? name)
  cap : ctx.cap = ctx'.cap
  source : ctx.source = ctx'.source
  stop : ctx.stop = ctx'.stop
  base : ctx.base = ctx'.base

/-- Open scopes that are searched alike. -/
structure Frame.SameSearch (frame frame' : Frame) : Prop where
  rule : frame.rule.SameSearch frame'.rule
  opensScope : frame.rule.opensScope = true
  close : frame.close = frame'.close

/-- States that stand at one place. -/
structure State.SameSearch (s s' : State) : Prop where
  cursor : s.cursor = s'.cursor
  gap : s.gap = s'.gap
  done : s.done = s'.done
  stack : List.Forall₂ Frame.SameSearch s.stack s'.stack
  flags : s.outcome.flags = s'.outcome.flags

theorem Context.SameSearch.haystack {ctx ctx' : Context} (h : ctx.SameSearch ctx') :
    ctx.haystack = ctx'.haystack := by
  unfold Context.haystack
  rw [h.source, h.stop]

/-- Regions embedded in regions that are searched alike. -/
structure Embedding.SameSearch {ctx ctx' : Context} (e : Embedding ctx) (e' : Embedding ctx') :
    Prop where
  start : e.start = e'.start
  stop : e.stop = e'.stop
  base : e.base = e'.base
  context : e.context.SameSearch e'.context

namespace Frame.SameSearch

variable {frame frame' : Frame} (h : frame.SameSearch frame')

include h

theorem scanner : frame.rule.scanner = frame'.rule.scanner := by
  have hopens := h.opensScope
  cases h.rule with
  | intro _ _ _ scanner => exact scanner hopens

theorem inner (i : Nat) :
    Option.Rel Rule.SameSearch frame.rule.inner[i]? frame'.rule.inner[i]? := by
  cases h.rule with
  | intro _ _ _ _ length inner => exact rel_getElem? length inner i

theorem literalHit?_eq (hay : Haystack) (p : Nat) :
    frame.literalHit? hay p = frame'.literalHit? hay p := by
  unfold literalHit?
  rw [h.close]

theorem closing?_eq (hay : Haystack) (p : Nat) : frame.closing? hay p = frame'.closing? hay p := by
  have hclosing : frame.rule.closing = frame'.rule.closing := by
    cases h.rule with
    | intro _ closing => exact closing
  unfold closing?
  rw [h.close, h.literalHit?_eq, hclosing]

theorem bodyStop_eq (hay : Haystack) (p : Nat) : frame.bodyStop hay p = frame'.bodyStop hay p := by
  unfold bodyStop
  rw [h.closing?_eq]

theorem embedding? {ctx ctx' : Context} (hctx : ctx.SameSearch ctx') (start base : Nat)
    (language : String) : Option.Rel Embedding.SameSearch
      (frame.embedding? ctx start base language) (frame'.embedding? ctx' start base language) := by
  have hgrammars := hctx.language language
  unfold Frame.embedding?
  simp only [h.bodyStop_eq, hctx.haystack, hctx.base, hctx.cap]
  generalize ctx.language? language = found at hgrammars
  generalize ctx'.language? language = found' at hgrammars
  cases hgrammars with
  | none => exact .none
  | some hgrammar =>
    simp only
    split
    · exact .some ⟨rfl, rfl, rfl, { hctx with
        grammar := hgrammar
        stop := rfl
        base := rfl }⟩
    · exact .none

end Frame.SameSearch

namespace State

/-- What embedded regions come to has the same flags. -/
def InsideSame {ctx ctx' : Context} (inside : Embedding ctx → Inner)
    (inside' : Embedding ctx' → Inner) : Prop :=
  ∀ (e : Embedding ctx) (e' : Embedding ctx'), e.SameSearch e' →
    (inside e).outcome.flags = (inside' e').outcome.flags

namespace SameSearch

variable {ctx ctx' : Context} {s s' t : State}

theorem of_start (position : Nat) : (start position).SameSearch (start position) :=
  ⟨rfl, rfl, rfl, .nil, rfl⟩

theorem emptied (h : s.SameSearch s') : s.emptied.SameSearch s'.emptied :=
  ⟨h.cursor, h.gap, h.done, h.stack, h.flags⟩

/-- States are alike that an action leads to from states that are, when it leads on alike. -/
theorem of_course {t t' : State} {c c' : Course} (hc : t.toCourse = c) (hc' : t'.toCourse = c')
    (cursor : c.cursor = c'.cursor) (gap : c.gap = c'.gap) (done : c.done = c'.done)
    (stack : List.Forall₂ Frame.SameSearch c.stack c'.stack)
    (flags : t.outcome.flags = t'.outcome.flags) : t.SameSearch t' := by
  subst hc hc'
  exact ⟨cursor, gap, done, stack, flags⟩

theorem depth_eq (hctx : ctx.SameSearch ctx') (h : s.SameSearch s') :
    s.depth ctx = s'.depth ctx' := by
  unfold depth
  rw [hctx.base, h.stack.length_eq]

theorem rules (hctx : ctx.SameSearch ctx') (h : s.SameSearch s') (i : Nat) :
    Option.Rel Rule.SameSearch (s.rules ctx)[i]? (s'.rules ctx')[i]? := by
  have hstack := h.stack
  unfold State.rules
  generalize s.stack = stack at hstack
  generalize s'.stack = stack' at hstack
  cases hstack with
  | nil => exact hctx.grammar.rules i
  | cons hframe _ => exact hframe.inner i

/-- The same comes next. -/
theorem nextHit?_eq (hctx : ctx.SameSearch ctx') (h : s.SameSearch s') :
    s.nextHit? ctx = s'.nextHit? ctx' := by
  have hstack := h.stack
  unfold nextHit?
  rw [h.cursor, hctx.haystack]
  generalize s.stack = stack at hstack
  generalize s'.stack = stack' at hstack
  cases hstack with
  | nil => simp only [hctx.grammar.scanner]
  | cons hframe _ => simp only [hframe.literalHit?_eq, hframe.scanner]

theorem finish (hctx : ctx.SameSearch ctx') (h : s.SameSearch s') (going : s.done = false) :
    (s.finish ctx).SameSearch (s'.finish ctx') := by
  have going' : s'.done = false := h.done ▸ going
  refine of_course (toCourse_finish going) (toCourse_finish going') hctx.stop ?_ rfl .nil ?_
  · simp only [h.gap, hctx.stop]
  · have hempty : s.stack.isEmpty = s'.stack.isEmpty := by
      have hstack := h.stack
      generalize s.stack = stack at hstack
      generalize s'.stack = stack' at hstack
      cases hstack <;> rfl
    have hincomplete : s.outcome.incomplete = s'.outcome.incomplete :=
      congrArg Flags.incomplete h.flags
    rw [flags_finish going, flags_finish going', h.flags, hempty, hincomplete]

theorem skipChar (hctx : ctx.SameSearch ctx') (h : s.SameSearch s') (going : s.done = false)
    (position : Nat) : (s.skipChar ctx position).SameSearch (s'.skipChar ctx' position) := by
  unfold State.skipChar
  rw [← hctx.stop]
  split
  · exact ⟨rfl, h.gap, h.done, h.stack, h.flags⟩
  · exact h.finish hctx going

theorem record (h : s.SameSearch s') (e e' : Event) : (s.record e).SameSearch (s'.record e') :=
  ⟨h.cursor, h.gap, h.done, h.stack, h.flags⟩

theorem advance (h : s.SameSearch s') (position : Nat) :
    (s.advance position).SameSearch (s'.advance position) :=
  ⟨rfl, rfl, h.done, h.stack, h.flags⟩

theorem closeScope (h : s.SameSearch s') (opened : s.stack ≠ []) (start stop : Nat) :
    (s.closeScope ctx start stop).SameSearch (s'.closeScope ctx' start stop) := by
  have hflags : (s.closeScope ctx start stop).outcome.flags =
      (s'.closeScope ctx' start stop).outcome.flags := by
    rw [flags_closeScope, flags_closeScope, h.flags]
  have hstack := h.stack
  generalize hs : s.stack = stack at hstack opened
  generalize hs' : s'.stack = stack' at hstack
  cases hstack with
  | nil => exact absurd rfl opened
  | cons _ hrest =>
    exact of_course (toCourse_closeScope ctx hs start stop) (toCourse_closeScope ctx' hs' start stop)
      rfl rfl h.done hrest hflags

theorem markIllegal (hctx : ctx.SameSearch ctx') (h : s.SameSearch s') (going : s.done = false)
    (start stop : Nat) :
    (s.markIllegal ctx start stop).SameSearch (s'.markIllegal ctx' start stop) := by
  by_cases hlt : start < stop
  · refine of_course (toCourse_markIllegal hlt) (toCourse_markIllegal hlt) rfl rfl h.done h.stack ?_
    rw [flags_markIllegal hlt, flags_markIllegal hlt, h.flags]
  · rw [markIllegal_of_le (Nat.not_lt.1 hlt), markIllegal_of_le (Nat.not_lt.1 hlt)]
    exact h.skipChar hctx going start

theorem arrive (h : s.SameSearch s') (rule rule' : Rule) (start : Nat) :
    (s.arrive ctx rule start).SameSearch (s'.arrive ctx' rule' start) := by
  refine of_course (s.toCourse_arrive ctx rule start) (s'.toCourse_arrive ctx' rule' start)
    h.cursor ?_ h.done h.stack ?_
  · simp only [h.gap]
  · rw [flags_arrive, flags_arrive, h.flags]

theorem takeSingle (h : s.SameSearch s') (rule rule' : Rule) (start stop : Nat) :
    (s.takeSingle rule start stop).SameSearch (s'.takeSingle rule' start stop) := by
  refine of_course (s.toCourse_takeSingle rule start stop)
    (s'.toCourse_takeSingle rule' start stop) rfl rfl h.done h.stack ?_
  rw [flags_takeSingle, flags_takeSingle, h.flags]

theorem refuse (h : s.SameSearch s') (start stop : Nat) :
    (s.refuse ctx start stop).SameSearch (s'.refuse ctx' start stop) := by
  refine of_course (s.toCourse_refuse ctx start stop) (s'.toCourse_refuse ctx' start stop) rfl
    h.gap h.done h.stack ?_
  rw [flags_refuse, flags_refuse, h.flags]

/-- The scopes that rules open are searched alike if the rules are. -/
theorem frame (hctx : ctx.SameSearch ctx') (s s' : State) {rule rule' : Rule}
    (hrule : rule.SameSearch rule') (opens : rule.opensScope = true) (start stop : Nat) :
    (s.frame ctx rule start stop).SameSearch (s'.frame ctx' rule' start stop) := by
  refine ⟨hrule, opens, ?_⟩
  cases hrule with
  | intro ending =>
    unfold State.frame
    rw [ending, hctx.source]

theorem openScope (hctx : ctx.SameSearch ctx') (h : s.SameSearch s') {rule rule' : Rule}
    (hrule : rule.SameSearch rule') (opens : rule.opensScope = true) (start stop : Nat) :
    (s.openScope ctx rule start stop).SameSearch (s'.openScope ctx' rule' start stop) := by
  refine of_course (s.toCourse_openScope ctx rule start stop)
    (s'.toCourse_openScope ctx' rule' start stop) rfl rfl h.done
    (.cons (frame hctx s s' hrule opens start stop) h.stack) ?_
  rw [flags_openScope, flags_openScope, h.flags]

variable {inside : Embedding ctx → Inner} {inside' : Embedding ctx' → Inner}

theorem adopt (h : s.SameSearch s') (kind kind' : Kind) {inner inner' : Inner}
    (hinner : inner.outcome.flags = inner'.outcome.flags) :
    (s.adopt kind inner).SameSearch (s'.adopt kind' inner') := by
  refine of_course (s.toCourse_adopt kind inner) (s'.toCourse_adopt kind' inner') h.cursor h.gap
    h.done h.stack ?_
  have hlimited : s.outcome.depthLimited = s'.outcome.depthLimited :=
    congrArg Flags.depthLimited h.flags
  have hinside : inner.outcome.depthLimited = inner'.outcome.depthLimited :=
    congrArg Flags.depthLimited hinner
  rw [flags_adopt, flags_adopt, h.flags, hlimited, hinside]

theorem collectBody (hctx : ctx.SameSearch ctx') (hinside : InsideSame inside inside')
    {frame frame' : Frame} (hframe : frame.SameSearch frame') (language : String)
    (h : s.SameSearch s') (opened : s.stack ≠ []) (opened' : s'.stack ≠ []) :
    (s.collectBody ctx inside frame language opened).SameSearch
      (s'.collectBody ctx' inside' frame' language opened') := by
  have hgrammars := hctx.language language
  have hstop := hframe.bodyStop_eq ctx'.haystack s'.cursor
  have hlimit : ∀ happened happened' e e', State.SameSearch
      (s.recordIf happened e).limitDepth (s'.recordIf happened' e').limitDepth := by
    intro happened happened' e e'
    have hflags : ∀ s : State, s.limitDepth.outcome.flags =
        { s.outcome.flags with depthLimited := true } := fun _ => rfl
    have hcourse : ∀ s : State, ∀ happened e, (s.recordIf happened e).limitDepth.toCourse =
        s.toCourse := fun s happened e => by simp
    refine of_course (hcourse s happened e) (hcourse s' happened' e') h.cursor h.gap h.done
      h.stack ?_
    rw [hflags, hflags, flags_recordIf, flags_recordIf, h.flags]
  unfold State.collectBody
  simp only [h.cursor, hctx.haystack, hstop, h.depth_eq hctx, hctx.cap]
  generalize ctx.language? language = found at hgrammars
  generalize ctx'.language? language = found' at hgrammars
  cases hgrammars with
  | none => exact ⟨h.cursor, h.gap, h.done, h.stack, h.flags⟩
  | some hgrammar =>
    simp only
    split
    · split
      · exact h.adopt _ _ (hinside _ _ ⟨rfl, rfl, rfl, { hctx with
          grammar := hgrammar
          stop := rfl
          base := rfl }⟩)
      · have hlimited := hlimit (!s.outcome.depthLimited) (!s'.outcome.depthLimited)
          (.leftRegion ctx.grammar.name ctx'.cap language)
          (.leftRegion ctx'.grammar.name ctx'.cap language)
        exact ⟨hlimited.cursor, hlimited.gap, hlimited.done, hlimited.stack, hlimited.flags⟩
    · exact h

theorem embed (hctx : ctx.SameSearch ctx') (hinside : InsideSame inside inside')
    {frame frame' : Frame} (hframe : frame.SameSearch frame') (language : String)
    (h : s.SameSearch s') (opened : s.stack ≠ []) (opened' : s'.stack ≠ []) :
    (s.embed ctx inside frame language opened).SameSearch
      (s'.embed ctx' inside' frame' language opened') := by
  have hbody := (h.collectBody hctx hinside hframe language opened opened').advance
    (frame.bodyStop ctx.haystack s.cursor)
  have hopened : ((s.collectBody ctx inside frame language opened).advance
      (frame.bodyStop ctx.haystack s.cursor)).stack ≠ [] := by
    simpa [State.advance] using opened
  unfold State.embed
  simp only [hframe.closing?_eq, hframe.bodyStop_eq, hctx.haystack, h.cursor] at hbody hopened ⊢
  split
  · exact hbody.closeScope hopened _ _
  · exact hbody

theorem enterScope (hctx : ctx.SameSearch ctx') (hinside : InsideSame inside inside')
    {rule rule' : Rule} (hrule : rule.SameSearch rule') (opens : rule.opensScope = true)
    (h : s.SameSearch s') (start stop : Nat) :
    (s.enterScope ctx inside rule start stop).SameSearch
      (s'.enterScope ctx' inside' rule' start stop) := by
  have hopen := h.openScope hctx hrule opens start stop
  unfold State.enterScope
  rw [← hrule.language_eq]
  split
  · exact hopen.embed hctx hinside (frame hctx s s' hrule opens start stop) _ _ _
  · exact hopen

/-- A match is taken on both sides, or on neither. -/
theorem takes (hctx : ctx.SameSearch ctx') (hinside : InsideSame inside inside')
    {rule rule' : Rule} (hrule : rule.SameSearch rule') (h : s.SameSearch s')
    (going : s.done = false) {start stop : Nat} (htakes : Takes ctx inside s rule start stop t) :
    ∃ t', Takes ctx' inside' s' rule' start stop t' ∧ t.SameSearch t' := by
  have hdepth := h.depth_eq hctx
  have hopens := hrule.opensScope_eq
  cases htakes with
  | skip empty => exact ⟨_, .skip empty, (h.record _ _).skipChar hctx going start⟩
  | refuse lt opens full =>
    exact ⟨_, .refuse lt (hopens ▸ opens) (hctx.cap ▸ hdepth ▸ full), h.refuse start stop⟩
  | enter lt opens room =>
    exact ⟨_, .enter lt (hopens ▸ opens) (hctx.cap ▸ hdepth ▸ room),
      (h.arrive rule rule' start).enterScope hctx hinside hrule opens start stop⟩
  | single lt opens =>
    exact ⟨_, .single lt (hopens ▸ opens),
      (h.arrive rule rule' start).takeSingle rule rule' start stop⟩

/-- One step on both sides. -/
theorem step (hctx : ctx.SameSearch ctx') (hinside : InsideSame inside inside')
    (h : s.SameSearch s') (going : s.done = false) :
    (s.step ctx inside).SameSearch (s'.step ctx' inside') := by
  have hnext := h.nextHit?_eq hctx
  have hsteps : Steps ctx inside s (s.step ctx inside) := steps_iff.2 rfl
  generalize s.step ctx inside = t at hsteps
  suffices hsame : ∃ t', Steps ctx' inside' s' t' ∧ t.SameSearch t' by
    obtain ⟨t', hsteps', hsame⟩ := hsame
    rwa [steps_iff.1 hsteps']
  cases hsteps with
  | ended none => exact ⟨_, .ended (hnext ▸ none), h.finish hctx going⟩
  | @lost index start stop hit none =>
    have hrules := h.rules hctx index
    rw [none] at hrules
    generalize hfound : (s'.rules ctx')[index]? = found at hrules
    cases hrules
    exact ⟨_, .lost (hnext ▸ hit) hfound, h.finish hctx going⟩
  | @rule index start stop rule _ hit found takes =>
    have hrules := h.rules hctx index
    rw [found] at hrules
    generalize hfound : (s'.rules ctx')[index]? = found' at hrules
    cases hrules with
    | some hrule =>
      obtain ⟨t', htakes, hsame⟩ := h.takes hctx hinside hrule going takes
      exact ⟨t', .rule (hnext ▸ hit) hfound htakes, hsame⟩
  | close hit => exact ⟨_, .close (hnext ▸ hit), h.closeScope (opened_of_closing hit) _ _⟩
  | illegal hit => exact ⟨_, .illegal (hnext ▸ hit), h.markIllegal hctx going _ _⟩

theorem meeting? (hctx : ctx.SameSearch ctx') (h : s.SameSearch s') {rule rule' : Rule}
    (hrule : rule.SameSearch rule') (start stop : Nat) :
    Option.Rel Embedding.SameSearch (s.meeting? ctx rule start stop)
      (s'.meeting? ctx' rule' start stop) := by
  unfold State.meeting?
  rw [← hrule.opensScope_eq, ← h.depth_eq hctx, ← hctx.cap]
  split
  · rename_i hopens
    rw [← hrule.language_eq]
    cases rule.language with
    | none => exact .none
    | some language =>
      exact (frame hctx s s' hrule hopens.2.1 start stop).embedding? hctx stop (s.depth ctx + 1)
        language
  · exact .none

/-- A region is embedded on both sides, or on neither. -/
theorem embedding? (hctx : ctx.SameSearch ctx') (h : s.SameSearch s') :
    Option.Rel Embedding.SameSearch (s.embedding? ctx) (s'.embedding? ctx') := by
  unfold State.embedding?
  rw [h.nextHit?_eq hctx]
  split
  · rename_i index start stop hit
    have hrules := h.rules hctx index
    generalize (s.rules ctx)[index]? = found at hrules
    generalize (s'.rules ctx')[index]? = found' at hrules
    cases hrules with
    | none => exact .none
    | some hrule => exact h.meeting? hctx hrule start stop
  · exact .none

/-- Runs come through states that stand at one place. -/
theorem trail (hctx : ctx.SameSearch ctx') (hinside : InsideSame ctx.inside ctx'.inside)
    (h : s.SameSearch s') : List.Forall₂ State.SameSearch (s.trail ctx) (s'.trail ctx') := by
  fun_induction s.trail ctx generalizing s' with
  | case1 s hdone =>
    rw [trail_of_done (h.done ▸ hdone)]
    exact .nil
  | case2 s hgoing ih =>
    have going := Bool.eq_false_iff.2 hgoing
    have going' : s'.done = false := h.done ▸ going
    rw [trail_of_going going']
    exact .cons h.emptied (ih (h.emptied.step hctx hinside going))

/-- Runs end with the same flags. -/
theorem drain (hctx : ctx.SameSearch ctx') (hinside : InsideSame ctx.inside ctx'.inside)
    (found found' : Array Span) (h : s.SameSearch s') :
    (s.drain ctx ctx.inside found).2.outcome.flags =
      (s'.drain ctx' ctx'.inside found').2.outcome.flags := by
  fun_induction s.drain ctx ctx.inside found generalizing s' found' with
  | case1 found s =>
    rename_i hdone
    rw [drain_of_done ctx'.inside found' (h.done ▸ hdone)]
    exact h.flags
  | case2 found s =>
    rename_i hgoing ih
    have going := Bool.eq_false_iff.2 hgoing
    have going' : s'.done = false := h.done ▸ going
    rw [drain_of_going ctx'.inside found' going']
    exact ih _ (h.emptied.step hctx hinside going)

end SameSearch

end State

/-- Regions that are searched alike end with the same flags. -/
theorem flags_region {ctx ctx' : Context} (h : ctx.SameSearch ctx') (first : Nat) :
    (region ctx first).outcome.flags = (region ctx' first).outcome.flags := by
  have hinside : State.InsideSame ctx.inside ctx'.inside := by
    intro e e' he
    have := e.lt_base
    have := e.base_lt_cap
    unfold Context.inside
    rw [← he.start]
    exact flags_region he.context e.start
  rw [region_eq, region_eq]
  exact State.SameSearch.drain h hinside #[] #[] (.of_start first)
termination_by ctx.cap - ctx.base
decreasing_by
  simp only [Embedding.context]
  omega

/-- What one step comes by, with all that the search comes by in the region that the step embeds. -/
theorem State.SameSearch.sighted_eq {ctx ctx' : Context} {s s' : State} (hctx : ctx.SameSearch ctx')
    (hinside : InsideSame ctx.inside ctx'.inside) (h : s.SameSearch s')
    (inner : ∀ (e : Embedding ctx) (e' : Embedding ctx'), e.SameSearch e' →
      sightings e.context e.start = sightings e'.context e'.start) :
    s.sighted ctx = s'.sighted ctx' := by
  have hembedding := h.embedding? hctx
  unfold State.sighted State.sighting?
  rw [h.nextHit?_eq hctx, h.depth_eq hctx, hctx.source]
  generalize s.embedding? ctx = found at hembedding
  generalize s'.embedding? ctx' = found' at hembedding
  cases hembedding with
  | none => rfl
  | some he =>
    have hinner := inner _ _ he
    rw [he.start] at hinner
    simp [he.start, he.stop, he.base, hinside _ _ he, hinner]

/-- The search of regions that are searched alike comes by the same. -/
theorem sightings_eq {ctx ctx' : Context} (h : ctx.SameSearch ctx') (first : Nat) :
    sightings ctx first = sightings ctx' first := by
  have hinside : State.InsideSame ctx.inside ctx'.inside := by
    intro e e' he
    unfold Context.inside
    rw [← he.start]
    exact flags_region he.context e.start
  have hinner : ∀ (e : Embedding ctx) (e' : Embedding ctx'), e.SameSearch e' →
      sightings e.context e.start = sightings e'.context e'.start := by
    intro e e' he
    have := e.lt_base
    have := e.base_lt_cap
    rw [← he.start]
    exact sightings_eq he.context e.start
  have htrail := State.SameSearch.trail h hinside (.of_start first)
  rw [sightings_def, sightings_def]
  generalize (State.start first).trail ctx = trail at htrail
  generalize (State.start first).trail ctx' = trail' at htrail
  induction htrail with
  | nil => rfl
  | cons hs _ ih => rw [List.flatMap_cons, List.flatMap_cons, hs.sighted_eq h hinside hinner, ih]
termination_by ctx.cap - ctx.base
decreasing_by
  simp only [Embedding.context]
  omega

end Scan

/-- What is found by the same name in both registries is searched alike. -/
theorem Registry.SamePatterns.sameSearch {r r' : Registry} (h : r.SamePatterns r')
    (language : String) : Option.Rel Grammar.SameSearch (r.find? language) (r'.find? language) := by
  have hfound := h language
  generalize r.find? language = found at hfound
  generalize r'.find? language = found' at hfound
  cases hfound with
  | none => exact .none
  | some hsame => exact .some hsame.sameSearch

/-- Kinds, scores, keywords and where the ends of scopes belong have no say in the search. In
registries that agree in the rest, a text in a language is searched alike, and so is every region
embedded in it: the same hits in the same places, equally deep, and the same flags. -/
theorem sightings_of_samePatterns {r r' : Registry} (h : r.SamePatterns r') (language : String)
    (maxDepth : Nat) (text : String) :
    Option.Rel (fun run run' : Highlighting =>
        Scan.sightings run.ctx 0 = Scan.sightings run'.ctx 0 ∧
          run.toHighlight.outcome.flags = run'.toHighlight.outcome.flags)
      (r.start? language maxDepth text) (r'.start? language maxDepth text) := by
  have hfound := h.sameSearch language
  unfold Registry.start?
  generalize r.find? language = found at hfound
  generalize r'.find? language = found' at hfound
  cases hfound with
  | none => exact .none
  | @some g g' hsame =>
    have hctx : (Highlighting.start g r.find? maxDepth text).ctx.SameSearch
        (Highlighting.start g' r'.find? maxDepth text).ctx :=
      { grammar := hsame
        language := h.sameSearch
        cap := rfl
        source := rfl
        stop := rfl
        base := rfl }
    have hflags := Scan.flags_region hctx 0
    rw [Scan.region_eq, Scan.region_eq] at hflags
    exact .some ⟨Scan.sightings_eq hctx 0, hflags⟩

/-- A language of one rule. -/
def GrammarSpec.dashes (keywords : List (Kind × WordList)) (dash : RuleSpec) : GrammarSpec where
  name := "dashes"
  keywords := keywords
  rules := [dash]

/-- A dash opens a scope that a dash closes. -/
def RuleSpec.dash : RuleSpec := { opening := some "-", closesAsOpened := true }

/-- A dash again, with a kind and a score, and with its end outside its scope. -/
def RuleSpec.loudDash : RuleSpec :=
  { dash with label := some .string, relevance := some 7, closingOutside := true }

open Compile in
theorem exists_dashes (words : List (Kind × WordList)) (dash : RuleSpec) {keywords : KeywordTable}
    (hkeywords : KeywordTable.ofLists words false = .ok keywords)
    (hoption : (outline ⟨.dashes words dash, .standard⟩ dash (Place.root.child 0) false).toOption.map
      (fun o => (o.opening, o.ending, o.caseless)) = some ("-", .asOpened, false))
    (hdash : dash.reference = none ∧ dash.inner = [] ∧ dash.language = none) :
    ∃ g, (GrammarSpec.dashes words dash).compile .standard = .ok g ∧
      ∃ rule, g.rules = [rule] ∧
        (rule.opening, rule.ending, rule.caseless, rule.language, rule.inner) =
          ("-", .asOpened, false, none, []) := by
  obtain ⟨o, hsome, ho⟩ := Option.map_eq_some_iff.1 hoption
  simp only [Prod.mk.injEq] at ho
  let ctx : Context := ⟨.dashes words dash, .standard⟩
  let rule := o.rule dash [] .none
  have hinner : compileRules ctx maxReferences dash.inner (Place.root.child 0) 0 o.caseless =
      .ok [] := by
    rw [hdash.2.1, compileRules_nil]
  have hscope : scopeScanner ctx o (Place.root.child 0) [] = .ok .none := by
    unfold scopeScanner
    rw [ho.2.1]
    rfl
  have hrule : compileRule ctx maxReferences dash (Place.root.child 0) false = .ok rule :=
    compileRule_eq hdash.1 (eq_ok_of_toOption hsome) hinner hscope
  have hbuild : (Scanner.build? [⟨rule.opening, rule.caseless, .rule 0⟩]).isSome := by
    simp only [rule, Outline.rule, ho]
    decide +kernel
  have hname : (Text.trim (GrammarSpec.dashes words dash).name).isEmpty = false :=
    show (Text.trim "dashes").isEmpty = false by decide +kernel
  have hillegal : illegalAlternatives ctx = .ok [] := rfl
  obtain ⟨g, hg, hgrules, -⟩ := exists_compile_single hname hkeywords rfl rfl hrule hillegal hbuild
  exact ⟨g, hg, rule, hgrules, by simp [rule, Outline.rule, ho, hdash.2.2]⟩

/-- Plain dashes and loud dashes are searched alike. -/
theorem sightings_dashes : ∃ g g',
    (GrammarSpec.dashes [] .dash).compile .standard = .ok g ∧
    (GrammarSpec.dashes [(.keyword, .text "a b|5")] .loudDash).compile .standard = .ok g' ∧
    Option.Rel (fun run run' : Highlighting =>
        Scan.sightings run.ctx 0 = Scan.sightings run'.ctx 0 ∧
          run.toHighlight.outcome.flags = run'.toHighlight.outcome.flags)
      (({ grammars := [g] } : Registry).start? "dashes" 32 "a-b-c")
      (({ grammars := [g'] } : Registry).start? "dashes" 32 "a-b-c") := by
  obtain ⟨g, hg, rule, hrules, hrule⟩ := exists_dashes [] .dash rfl (by decide +kernel)
    ⟨rfl, rfl, rfl⟩
  obtain ⟨g', hg', rule', hrules', hrule'⟩ := exists_dashes [(.keyword, .text "a b|5")]
    .loudDash rfl (by decide +kernel) ⟨rfl, rfl, rfl⟩
  simp only [Prod.mk.injEq] at hrule hrule'
  have hcompiles := Compile.compiles_of_compile hg
  have hcompiles' := Compile.compiles_of_compile hg'
  have hkeys : g.keys = g'.keys := by
    unfold Grammar.keys
    rw [hcompiles.name, hcompiles'.name, hcompiles.aliases, hcompiles'.aliases]
    rfl
  have hsame : g.SamePatterns g' := by
    refine ⟨fun i => ?_, [], ⟨_, _, hg, rfl⟩, ⟨_, _, hg', rfl⟩⟩
    rw [hrules, hrules']
    refine rel_getElem? ?_ (fun i r r' hr hr' => ?_) i
    · rfl
    obtain rfl := List.mem_singleton.1 (List.mem_of_getElem? hr)
    obtain rfl := List.mem_singleton.1 (List.mem_of_getElem? hr')
    refine .intro ?_ ?_ ?_ ?_ ?_ ?_ <;> simp [hrule, hrule']
  refine ⟨g, g', hg, hg', sightings_of_samePatterns (fun language => ?_) "dashes" 32 "a-b-c"⟩
  have hempty := Registry.inStep_empty .standard
  have free := Registry.not_taken_empty .standard
  obtain ⟨hfound, hmissed⟩ := hempty.find?_push (g := g) (fun key _ => free key) language
  obtain ⟨hfound', hmissed'⟩ := hempty.find?_push (g := g') (fun key _ => free key) language
  have hiskey : g.IsKey (Text.lowercase language) ↔ g'.IsKey (Text.lowercase language) := by
    rw [← Grammar.mem_keys, ← Grammar.mem_keys, hkeys]
  have hrel : Option.Rel Grammar.SamePatterns ((Registry.push {} g).find? language)
      ((Registry.push {} g').find? language) := by
    by_cases hkey : g.IsKey (Text.lowercase language)
    · rw [hfound hkey, hfound' (hiskey.1 hkey)]
      exact .some hsame
    · rw [hmissed hkey, hmissed' (mt hiskey.2 hkey)]
      exact .none
  exact hrel

end Highlighter
