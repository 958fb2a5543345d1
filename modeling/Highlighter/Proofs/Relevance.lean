import Highlighter.Proofs.DepthCap
import Highlighter.Proofs.Granularity.Story
import Highlighter.Proofs.Trail
import Mathlib

/-!
What the relevance of a text is the sum of. Every match of a rule that is taken counts, every
keyword outside all scopes counts as often as it is met but no more than seven times, and every
region embedded in the text counts by the same rule. Nothing else does.
-/

namespace Highlighter

namespace KeywordTable

/-- How much a keyword says about the language, by the form under which it is looked up. -/
def weight (t : KeywordTable) (key : String) : Nat :=
  ((t.entries.lookup key).map Keyword.Entry.relevance).getD 0

/-- How much some keywords say together: each distinct one as often as it occurs, up to the most
hits that count. -/
def tally (t : KeywordTable) (keys : List String) : Nat :=
  ∑ key ∈ keys.toFinset, t.weight key * min (keys.count key) Keyword.maxHits

theorem tally_eq_sum (t : KeywordTable) {keys : List String} {among : Finset String}
    (h : keys.toFinset ⊆ among) :
    t.tally keys = ∑ key ∈ among, t.weight key * min (keys.count key) Keyword.maxHits := by
  refine Finset.sum_subset h fun key _ hkey => ?_
  rw [List.count_eq_zero_of_not_mem (fun hmem => hkey (List.mem_toFinset.2 hmem))]
  simp

/-- One more hit of a keyword counts unless it has been hit often enough before. -/
theorem tally_cons (t : KeywordTable) (key : String) (keys : List String) :
    t.tally (key :: keys) =
      t.tally keys + if keys.count key < Keyword.maxHits then t.weight key else 0 := by
  have hmem : key ∈ (key :: keys).toFinset := by simp
  have hsub : keys.toFinset ⊆ (key :: keys).toFinset := by
    rw [List.toFinset_cons]
    exact Finset.subset_insert ..
  have hrest : ∀ other ∈ (key :: keys).toFinset.erase key,
      t.weight other * min ((key :: keys).count other) Keyword.maxHits =
        t.weight other * min (keys.count other) Keyword.maxHits := by
    intro other hother
    rw [List.count_cons_of_ne (Finset.ne_of_mem_erase hother).symm]
  rw [tally, t.tally_eq_sum hsub, ← Finset.add_sum_erase _ _ hmem, ← Finset.add_sum_erase _ _ hmem,
    Finset.sum_congr rfl hrest, List.count_cons_self]
  split
  · rename_i hlt
    rw [Nat.min_eq_left (Nat.le_of_lt hlt), Nat.min_eq_left hlt, Nat.mul_succ]
    omega
  · rename_i hge
    rw [Nat.min_eq_right (by omega), Nat.min_eq_right (by omega)]
    omega

theorem tally_reverse (t : KeywordTable) (keys : List String) :
    t.tally keys.reverse = t.tally keys := by
  unfold tally
  simp only [List.toFinset_reverse, List.count_reverse]

theorem weight_of_find? {t : KeywordTable} {word : String} {entry : Keyword.Entry}
    (h : t.find? word = some entry) : t.weight (t.key word) = entry.relevance := by
  unfold weight
  rw [show t.entries.lookup (t.key word) = some entry from h]
  rfl

end KeywordTable

namespace Scan

namespace Incident

/-- The rule of a match that is taken, be it the opening of a scope or a match by itself. -/
def taken? : Incident → Option Rule
  | opened rule _ _ | single rule _ _ => some rule
  | closed .. | keyword .. | illegal .. => none

/-- The word that is a keyword. -/
def word? (source : Source) : Incident → Option String
  | keyword _ start stop => some (source.slice start stop)
  | opened .. | closed .. | single .. | illegal .. => none

/-- How much the matches that are taken say together. -/
def openings (incidents : List Incident) : Nat :=
  ((incidents.filterMap taken?).map Rule.relevance).sum

/-- The keywords met, in the form under which they are looked up. -/
def keys (ctx : Context) (incidents : List Incident) : List String :=
  (incidents.filterMap (word? ctx.source)).map ctx.grammar.keywords.key

theorem openings_append (before after : List Incident) :
    openings (before ++ after) = openings before + openings after := by
  simp [openings]

theorem keys_append (ctx : Context) (before after : List Incident) :
    keys ctx (before ++ after) = keys ctx before ++ keys ctx after := by
  simp [keys]

/-- A match that is no keyword adds none. -/
theorem keys_concat (ctx : Context) (before : List Incident) {i : Incident}
    (h : i.word? ctx.source = none) : keys ctx (before ++ [i]) = keys ctx before := by
  simp [keys, h]

end Incident

namespace State

theorem story_of_going {ctx : Context} {s : State} (going : s.done = false) :
    s.story ctx = s.incidents ctx ++ (s.emptied.takeStep ctx).story ctx := by
  rw [story]
  simp [going]

end State

/-- How much the text of a region says about its language, by what happens in the region: what the
matches that are taken say, what its keywords say, and what the regions embedded in it say by this
same rule. -/
def score (ctx : Context) (first : Nat) : Nat :=
  let s := State.start first
  Incident.openings (s.story ctx) +
    ctx.grammar.keywords.tally (Incident.keys ctx (s.story ctx)) +
    (((s.trail ctx).filterMap (·.embedding? ctx)).map fun e => score e.context e.start).sum
termination_by ctx.cap - ctx.base
decreasing_by
  have := e.lt_base
  have := e.base_lt_cap
  simp only [Embedding.context]
  omega

namespace State

variable {ctx : Context} {s t : State} {n : Nat} {keys : List String}

/-- The relevance of a state is made up of what these keywords say and of this. -/
structure Scored (ctx : Context) (s : State) (n : Nat) (keys : List String) : Prop where
  hits : s.hits = keys
  relevance : s.outcome.relevance = n + ctx.grammar.keywords.tally keys

/-- What has no keywords and does not count leaves the score. -/
theorem Scored.congr (h : Scored ctx s n keys) (hhits : t.hits = s.hits)
    (hrelevance : t.outcome.relevance = s.outcome.relevance) : Scored ctx t n keys :=
  ⟨hhits.trans h.hits, hrelevance.trans h.relevance⟩

theorem Scored.add (h : Scored ctx s n keys) (hhits : t.hits = s.hits) {m : Nat}
    (hrelevance : t.outcome.relevance = s.outcome.relevance + m) : Scored ctx t (n + m) keys where
  hits := hhits.trans h.hits
  relevance := by
    rw [hrelevance, h.relevance]
    omega

theorem Scored.advance (h : Scored ctx s n keys) (position : Nat) :
    Scored ctx (s.advance position) n keys :=
  ⟨h.hits, h.relevance⟩

theorem Scored.record (h : Scored ctx s n keys) (e : Event) : Scored ctx (s.record e) n keys :=
  ⟨h.hits, h.relevance⟩

theorem Scored.countKeyword (h : Scored ctx s n keys) (key : String) :
    Scored ctx (s.countKeyword key (ctx.grammar.keywords.weight key)) n (key :: keys) := by
  have hhits := h.hits
  unfold State.countKeyword
  constructor
  · simp only
    split <;> simp [addRelevance, hhits]
  · rw [KeywordTable.tally_cons]
    simp only [hhits]
    split <;> simp [addRelevance, h.relevance, Nat.add_assoc]

/-- A word counts if it is a keyword. -/
theorem Scored.takeWord (h : Scored ctx s n keys) (plain : Nat) {first last : Nat}
    (hne : first < last) :
    Scored ctx (s.takeWord ctx.grammar ctx.source plain first last).1 n
      (Incident.keys ctx (keyword? ctx.grammar ctx.source first last).toList ++ keys) := by
  unfold State.takeWord keyword?
  rw [if_pos hne]
  cases hentry : ctx.grammar.keywords.find? (ctx.source.slice first last) with
  | none =>
    simp only [hentry]
    exact h
  | some entry =>
    simp only [hentry]
    rw [← KeywordTable.weight_of_find? hentry]
    exact (h.congr (t := (s.text .plain plain first).atom entry.kind first last) rfl rfl).countKeyword
      (ctx.grammar.keywords.key (ctx.source.slice first last))

/-- The keywords of a text outside all scopes count. -/
theorem Scored.classifyFrom (h : Scored ctx s n keys) (stop plain position : Nat) :
    Scored ctx (s.classifyFrom ctx.grammar ctx.source stop plain position) n
      ((Incident.keys ctx (keywordsFrom ctx.grammar ctx.source stop position)).reverse ++ keys) := by
  fun_induction s.classifyFrom ctx.grammar ctx.source stop plain position generalizing keys with
  | case1 s plain position hlt hnone =>
    rw [keywordsFrom_of_none hnone]
    exact h.congr rfl rfl
  | case2 s plain position hlt first last hfound s' plain' hword ih =>
    rw [keywordsFrom_of_some hlt hfound, Incident.keys_append, List.reverse_append,
      List.append_assoc]
    apply ih
    split at hword
    · rename_i hne
      have htaken := h.takeWord plain hne
      rw [hword] at htaken
      have hrev : (Incident.keys ctx (keyword? ctx.grammar ctx.source first last).toList).reverse =
          Incident.keys ctx (keyword? ctx.grammar ctx.source first last).toList := by
        cases keyword? ctx.grammar ctx.source first last with
        | none => rfl
        | some i => cases i <;> rfl
      rwa [hrev]
    · rename_i hempty
      cases hword
      unfold keyword?
      rw [if_neg hempty]
      exact h
  | case3 s plain position hlt =>
    rw [keywordsFrom_of_le (Nat.not_lt.1 hlt)]
    exact h.congr rfl rfl

/-- The keywords in what has been passed over count. -/
theorem Scored.flushGap (h : Scored ctx s n keys) (position : Nat) :
    Scored ctx (s.flushGap ctx position) n
      ((Incident.keys ctx (s.keywords ctx position)).reverse ++ keys) := by
  unfold State.flushGap keywords
  split
  · rename_i hle
    rw [if_neg (by simp; omega)]
    exact h
  · rename_i hgt
    have hlt : s.gap < position := Nat.lt_of_not_le hgt
    cases hs : s.stack.isEmpty with
    | false => exact h.congr rfl rfl
    | true =>
      simp only [hlt, decide_true, Bool.and_self, ↓reduceIte]
      exact (h.classifyFrom position s.gap s.gap).congr rfl rfl

theorem Scored.closeScope (h : Scored ctx s n keys) (opened : s.stack ≠ []) (start stop : Nat) :
    Scored ctx (s.closeScope ctx start stop) n keys := by
  have hgap := h.flushGap start
  have hkeywords : s.keywords ctx start = [] := by simp [keywords, opened]
  rw [hkeywords] at hgap
  unfold State.closeScope
  simp only
  split
  · exact hgap
  · refine hgap.congr ?_ ?_
    all_goals
      split
      all_goals
        rename_i frame stack hs houtside
        cases frame.rule.kind.isSome <;> rfl

theorem Scored.finish (h : Scored ctx s n keys) (going : s.done = false) :
    Scored ctx (s.finish ctx) n ((Incident.keys ctx (s.keywords ctx ctx.stop)).reverse ++ keys) := by
  have hgap := h.flushGap ctx.stop
  unfold State.finish
  rw [going]
  simp only [Bool.false_eq_true, ↓reduceIte]
  split
  · exact hgap.congr rfl rfl
  · exact hgap.congr rfl rfl

theorem Scored.skipChar (h : Scored ctx s n keys) (going : s.done = false) (position : Nat) :
    Scored ctx (s.skipChar ctx position) n
      ((Incident.keys ctx (s.passing ctx position)).reverse ++ keys) := by
  unfold State.skipChar passing
  split
  · exact h.congr rfl rfl
  · exact h.finish going

/-- Illegal text does not count. -/
theorem Scored.markIllegal (h : Scored ctx s n keys) (going : s.done = false) (start stop : Nat) :
    Scored ctx (s.markIllegal ctx start stop) n ((Incident.keys ctx
      (if stop ≤ start then s.passing ctx start
        else s.keywords ctx start ++ [.illegal start stop])).reverse ++ keys) := by
  unfold State.markIllegal
  split
  · exact h.skipChar going start
  · have hrecord : ∀ happened e, Scored ctx (s.recordIf happened e) n keys := by
      intro happened e
      cases happened <;> exact h.congr rfl rfl
    have hgap := (hrecord (!s.outcome.illegal) (.metIllegal ctx.grammar.name
      (ctx.source.slice start stop) (ctx.source.byte start))).flushGap start
    have hkeywords : ∀ happened e, (s.recordIf happened e).keywords ctx start =
        s.keywords ctx start := by
      intro happened e
      cases happened <;> rfl
    rw [hkeywords] at hgap
    rw [Incident.keys_concat ctx _ rfl]
    exact hgap.congr rfl rfl

/-- A match of a rule counts when it is taken. -/
theorem Scored.arrive (h : Scored ctx s n keys) (rule : Rule) (start : Nat) :
    Scored ctx (s.arrive ctx rule start) (n + rule.relevance)
      ((Incident.keys ctx (s.keywords ctx start)).reverse ++ keys) := by
  have hgap := h.flushGap start
  exact hgap.add (t := s.arrive ctx rule start) rfl rfl

theorem Scored.takeSingle (h : Scored ctx s n keys) (rule : Rule) (start stop : Nat) :
    Scored ctx (s.takeSingle rule start stop) n keys := by
  unfold State.takeSingle
  cases rule.kind <;> exact h.congr rfl rfl

theorem Scored.openScope (h : Scored ctx s n keys) (rule : Rule) (start stop : Nat) :
    Scored ctx (s.openScope ctx rule start stop) n keys :=
  h.congr (s.outcome_openScope ctx rule start stop).2
    (congrArg Outcome.relevance (s.outcome_openScope ctx rule start stop).1)

/-- Keywords are no matches of rules. -/
theorem openings_keywords (ctx : Context) (s : State) (position : Nat) :
    Incident.openings (s.keywords ctx position) = 0 := by
  have hfrom : ∀ stop start, Incident.openings
      (keywordsFrom ctx.grammar ctx.source stop start) = 0 := by
    intro stop start
    fun_induction keywordsFrom ctx.grammar ctx.source stop start with
    | case1 => rfl
    | case2 position hlt first last hfound ih =>
      rw [Incident.openings_append, ih, Nat.add_zero]
      cases hkey : keyword? ctx.grammar ctx.source first last with
      | none => rfl
      | some i =>
        obtain ⟨-, entry, -, rfl⟩ := keyword?_eq_some hkey
        rfl
    | case3 => rfl
  unfold keywords
  split
  · exact hfrom _ _
  · rfl

theorem openings_passing (ctx : Context) (s : State) (position : Nat) :
    Incident.openings (s.passing ctx position) = 0 := by
  unfold passing
  split
  · rfl
  · exact openings_keywords ctx s ctx.stop

/-- A match behind what has been passed over. -/
theorem openings_keywords_concat (ctx : Context) (s : State) (position : Nat) (i : Incident) :
    Incident.openings (s.keywords ctx position ++ [i]) = Incident.openings [i] := by
  rw [Incident.openings_append, openings_keywords, Nat.zero_add]

/-- What a region says that may be embedded. -/
def embedded (ctx : Context) (e? : Option (Embedding ctx)) : Nat :=
  (e?.toList.map fun e => (ctx.inside e).outcome.relevance).sum

/-- The text of a scope counts by what it says in its own language, if it is highlighted in that. -/
theorem Scored.collectsBody (h : Scored ctx s n keys) {frame : Frame} {language : String}
    {start stop : Nat} (collects : CollectsBody ctx ctx.inside s frame.kind language start stop t)
    (hstop : frame.bodyStop ctx.haystack start = stop) (opened : ctx.base < s.depth ctx) :
    Scored ctx t (n + embedded ctx (frame.embedding? ctx start (s.depth ctx) language)) keys := by
  subst hstop
  unfold Frame.embedding?
  cases collects with
  | unknown missing =>
    rw [missing]
    exact h.congr rfl rfl
  | adopted e known start_eq stop_eq base_eq =>
    obtain ⟨grammar, start, stop, base, lt, _, _, room⟩ := e
    dsimp only at known start_eq stop_eq base_eq
    subst start_eq stop_eq base_eq
    obtain ⟨houtcome, hhits⟩ := s.outcome_adopt frame.kind (ctx.inside
      ⟨grammar, start, frame.bodyStop ctx.haystack start, s.depth ctx, lt, ‹_›, opened, room⟩)
    refine h.add hhits ?_
    rw [houtcome]
    simp [embedded, known, lt, opened, room]
  | limited known lt full =>
    have hroom : ¬s.depth ctx < ctx.cap := Nat.not_lt.2 full
    simp only [known, hroom, and_false, ↓reduceDIte]
    cases s.outcome.depthLimited <;> exact h.congr rfl rfl
  | empty known le => simpa [embedded, known, Nat.not_lt.2 le] using h

/-- A scope counts that is opened, and its text by what it says in its own language. -/
theorem Scored.enters (h : Scored ctx s n keys) {rule : Rule} {start stop : Nat}
    (enters : Enters ctx ctx.inside s rule start stop t) :
    Scored ctx t (n + embedded ctx (rule.language.bind
      ((s.frame ctx rule start stop).embedding? ctx stop (s.depth ctx + 1)))) keys := by
  have hopen := h.openScope rule start stop
  have hcourse := s.toCourse_openScope ctx rule start stop
  have hdepth : (s.openScope ctx rule start stop).depth ctx = s.depth ctx + 1 := by
    rw [depth, hcourse]
    rfl
  have opened := base_lt_depth ctx (s.openScope_opened ctx rule start stop)
  rw [← hdepth]
  cases enters with
  | own own =>
    rw [own]
    exact hopen
  | @closed language body last next hlanguage collects found =>
    have hbody := hopen.collectsBody collects (Frame.bodyStop_of_some found) opened
    rw [hlanguage, Option.bind_some]
    refine (hbody.advance last).closeScope ?_ last next
    simp [State.advance, collects.toCourse_eq, hcourse]
  | unclosed hlanguage collects endless =>
    have hbody := hopen.collectsBody collects (Frame.bodyStop_of_none endless) opened
    rw [hlanguage, Option.bind_some]
    exact hbody.advance ctx.stop

/-- A match of the opening of a rule counts if it is taken. -/
theorem Scored.takes {rule : Rule} {start stop : Nat} (h : Scored ctx s n keys)
    (going : s.done = false) (htakes : Takes ctx ctx.inside s rule start stop t) :
    Scored ctx t (n + Incident.openings (s.meeting ctx rule start stop) +
        embedded ctx (s.meeting? ctx rule start stop))
      ((Incident.keys ctx (s.meeting ctx rule start stop)).reverse ++ keys) := by
  unfold meeting meeting?
  cases htakes with
  | skip empty =>
    rw [if_pos empty, if_neg (fun hlt => Nat.not_lt.2 empty hlt.1)]
    rw [openings_passing]
    exact (h.record _).skipChar going start
  | refuse lt opens full =>
    rw [if_neg (Nat.not_le.2 lt), if_pos opens, if_neg (Nat.not_lt.2 full),
      if_neg (fun hroom => Nat.not_le.2 hroom.2.2 full)]
    unfold State.refuse
    cases s.outcome.depthLimited <;> exact h.congr rfl rfl
  | enter lt opens room =>
    have hstack := s.stack_arrive ctx rule start
    have hentered := (h.arrive rule start).enters (enters_enterScope ctx ctx.inside _ rule start stop)
    rw [frame_congr ctx hstack, depth, hstack] at hentered
    rw [if_neg (Nat.not_le.2 lt), if_pos opens, if_pos room, if_pos ⟨lt, opens, room⟩,
      Incident.keys_concat ctx _ rfl, openings_keywords_concat]
    exact hentered
  | single lt opens =>
    rw [if_neg (Nat.not_le.2 lt), if_neg (by simp [opens]), if_neg (by simp [opens]),
      Incident.keys_concat ctx _ rfl, openings_keywords_concat]
    exact (h.arrive rule start).takeSingle rule start stop

/-- What a step does to the score: the match that is taken counts, the keywords count that are
collected, and the region that is embedded. -/
theorem Scored.step (h : Scored ctx s n keys) (going : s.done = false) :
    Scored ctx (s.takeStep ctx)
      (n + Incident.openings (s.incidents ctx) + embedded ctx (s.embedding? ctx))
      ((Incident.keys ctx (s.incidents ctx)).reverse ++ keys) := by
  have hsteps : Steps ctx ctx.inside s (s.takeStep ctx) := steps_iff.2 rfl
  generalize s.takeStep ctx = t at hsteps
  unfold incidents embedding?
  cases hsteps with
  | ended none =>
    simp only [none, openings_keywords]
    exact h.finish going
  | lost hit none =>
    simp only [hit, none, openings_keywords]
    exact h.finish going
  | rule hit found takes =>
    simp only [hit, found]
    exact h.takes going takes
  | @close start stop hit =>
    obtain ⟨frame, stack, hs⟩ := List.exists_cons_of_ne_nil (opened_of_closing hit)
    simp only [hit, hs]
    exact h.closeScope (opened_of_closing hit) start stop
  | @illegal start stop hit =>
    have hopenings : Incident.openings (if stop ≤ start then s.passing ctx start
        else s.keywords ctx start ++ [.illegal start stop]) = 0 := by
      split
      · exact openings_passing ctx s start
      · exact openings_keywords_concat ctx s start _
    simp only [hit, hopenings]
    exact h.markIllegal going start stop

/-- What a run does to the score: it adds what its steps add. -/
theorem Scored.drain (h : Scored ctx s n keys) (found : Array Span) :
    Scored ctx (s.drain ctx ctx.inside found).2
      (n + Incident.openings (s.story ctx) +
        (((s.trail ctx).filterMap (·.embedding? ctx)).map
          fun e => (ctx.inside e).outcome.relevance).sum)
      ((Incident.keys ctx (s.story ctx)).reverse ++ keys) := by
  fun_induction s.drain ctx ctx.inside found generalizing n keys with
  | case1 found s =>
    rename_i found' hdone
    rw [story_of_done hdone, trail_of_done hdone]
    exact h.congr rfl rfl
  | case2 found s found' =>
    rename_i hdone ih
    have going := Bool.eq_false_iff.2 hdone
    have hempty : Scored ctx s.emptied n keys := ⟨h.hits, h.relevance⟩
    have hrest := ih (hempty.step going)
    have htotal : n + Incident.openings (s.story ctx) +
        (((s.trail ctx).filterMap (·.embedding? ctx)).map
          fun e => (ctx.inside e).outcome.relevance).sum =
        n + Incident.openings (s.incidents ctx) + embedded ctx (s.emptied.embedding? ctx) +
          Incident.openings ((s.emptied.takeStep ctx).story ctx) +
          ((((s.emptied.takeStep ctx).trail ctx).filterMap (·.embedding? ctx)).map
            fun e => (ctx.inside e).outcome.relevance).sum := by
      rw [story_of_going going, trail_of_going going, Incident.openings_append, List.filterMap_cons]
      cases s.emptied.embedding? ctx with
      | none =>
        simp only [embedded, Option.toList_none, List.map_nil, List.sum_nil]
        omega
      | some e =>
        simp only [embedded, Option.toList_some, List.map_cons, List.map_nil, List.sum_cons,
          List.sum_nil]
        omega
    rw [htotal, story_of_going going, Incident.keys_append, List.reverse_append, List.append_assoc]
    exact hrest

/-- A whole region comes to what its steps add. -/
theorem relevance_region (ctx : Context) (first : Nat) :
    (region ctx first).outcome.relevance =
      Incident.openings ((start first).story ctx) +
        ctx.grammar.keywords.tally (Incident.keys ctx ((start first).story ctx)) +
        ((((start first).trail ctx).filterMap (·.embedding? ctx)).map
          fun e => (region e.context e.start).outcome.relevance).sum := by
  have hstart : Scored ctx (start first) 0 [] := ⟨rfl, rfl⟩
  have hrun := (hstart.drain #[]).relevance
  rw [List.append_nil, KeywordTable.tally_reverse] at hrun
  rw [region_eq]
  refine hrun.trans ?_
  simp only [Context.inside]
  omega

end State

theorem region_relevance (ctx : Context) (first : Nat) :
    (region ctx first).outcome.relevance = score ctx first := by
  fun_induction score ctx first with
  | case1 ctx first s ih =>
    rw [State.relevance_region]
    simp only [ih]
    rfl

end Scan

/-- The relevance of a text is the exact sum of what is taken in it: its matches, its keywords and
the regions embedded in it. -/
theorem highlight_relevance (grammar : Grammar) (text : String)
    (language? : String → Option Grammar) (maxDepth : Nat) :
    (grammar.highlight text language? maxDepth).outcome.relevance =
      Scan.score (Highlighting.start grammar language? maxDepth text).ctx 0 := by
  rw [← Scan.region_relevance, Scan.region_eq]
  rfl

end Highlighter
