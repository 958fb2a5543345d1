import Highlighter.Proofs.Dialects.Quoted
import Highlighter.Proofs.Registry.Lookups
import Highlighter.Proofs.Scopes.LineEnd

/-!
Line comments in the bundled grammars. Two dashes outside all scopes open a comment, and behind two
dashes no line has ended halfway, so the comment goes up to the end of the line and no farther.
-/

namespace Highlighter

open Regex Regex.Reader Fragment

/-- What a set of alternatives finds at a position comes from one of them. -/
theorem Scanner.exists_of_foundAt? {alternatives : List Alternative} {h : Haystack} {p q : Nat}
    {hit : Hit} (found : Scanner.foundAt? alternatives h p = some (hit, q)) :
    ∃ a ∈ alternatives, a.hit = hit ∧ a.regex.endAt? h p = some q := by
  obtain ⟨a, ha, hmatch⟩ := List.exists_of_findSome?_eq_some found
  obtain ⟨_, hend, heq⟩ := Option.map_eq_some_iff.1 hmatch
  cases heq
  exact ⟨a, ha, rfl, hend⟩

/-- What the first rule with a match at a position finds there. -/
theorem Scanner.foundAt?_openings {rules : List Rule} {rule : Rule} {h : Haystack} {i p q : Nat}
    (hrule : rules[i]? = some rule)
    (hend : (Alternative.regex ⟨rule.opening, rule.caseless, .rule i⟩).endAt? h p = some q)
    (earlier : ∀ j < i, ∀ other, rules[j]? = some other →
      (Alternative.regex ⟨other.opening, other.caseless, .rule j⟩).endAt? h p = Option.none) :
    Scanner.foundAt? (Compile.openings rules) h p = some (.rule i, q) := by
  obtain ⟨hi, rfl⟩ := List.getElem?_eq_some_iff.1 hrule
  have hi' : i < (Compile.openings rules).length := by simpa [Compile.openings] using hi
  refine List.findSome?_eq_some_iff.2 ⟨(Compile.openings rules).take i,
    ⟨rules[i].opening, rules[i].caseless, .rule i⟩, (Compile.openings rules).drop (i + 1),
    ?_, ?_, ?_⟩
  · have hget : (Compile.openings rules)[i] = ⟨rules[i].opening, rules[i].caseless, .rule i⟩ := by
      simp [Compile.openings]
    rw [← hget, List.getElem_cons_drop, List.take_append_drop]
  · rw [hend]
    rfl
  · intro a ha
    obtain ⟨j, hj, hget⟩ := List.mem_iff_getElem.1 ha
    rw [List.getElem_take] at hget
    have hj' : j < i := Nat.lt_of_lt_of_le hj (List.length_take_le ..)
    have hother := earlier j hj' _ (List.getElem?_eq_getElem (Nat.lt_trans hj' hi))
    subst hget
    simpa [Compile.openings] using hother

namespace Compile

/-- Every rule comes from what stands in its place. -/
theorem exists_rule_of_compileRules {ctx : Context} {references index i : Nat}
    {specs : List RuleSpec} {spec : RuleSpec} {place : Place} {inherited : Bool} {rules : List Rule}
    (h : compileRules ctx references specs place index inherited = .ok rules)
    (hspec : specs[i]? = some spec) : ∃ rule, rules[i]? = some rule ∧
      compileRule ctx references spec (place.child (index + i)) inherited = .ok rule := by
  induction specs generalizing index i rules with
  | nil => cases hspec
  | cons other specs ih =>
    obtain ⟨first, rest, hfirst, hrest, rfl⟩ := compileRules_cons_eq_ok_iff.1 h
    cases i with
    | zero =>
      cases hspec
      exact ⟨first, rfl, hfirst⟩
    | succ i =>
      obtain ⟨rule, hrule, hcompiled⟩ := ih hrest hspec
      rw [Nat.add_assoc, Nat.add_comm 1 i] at hcompiled
      exact ⟨rule, hrule, hcompiled⟩

end Compile

namespace Bundled

open Compile Scan

/-- The rule of the standard library for comments up to the end of the line. -/
def commentSpec : RuleSpec where
  label := some .comment
  opening := some "\x7b\x7bline_comment\x7d\x7d"
  closing := some "$"
  relevance := some 0

/-- The place of that rule among the rules of a dialect. -/
def commentIndex : Nat := 7

example (language : String) :
    (rules language)[commentIndex]? = some (.ofReference "sql_line_comment") := rfl

variable {shared : Shared} {name byname : String} {ws : List String} {g : Grammar}

theorem expand_comment (name byname : String) (ws : List String) :
    (context name byname ws).expand "\x7b\x7bline_comment\x7d\x7d" = .ok "(?:--)" :=
  (extends_base name byname ws).expand _ _ (eq_ok_of_toOption (by decide +kernel))

/-- The rule for comments up to the end of the line is compiled to one, which two dashes open. -/
theorem comments_of_compileRule {references : Nat} {place : Place} {rule : Rule}
    (h : compileRule (context name byname ws) references commentSpec place true = .ok rule) :
    rule.CommentsLine ∧ rule.opening = "(?:--)" ∧ rule.caseless = true := by
  obtain ⟨o, inner, scanner, ho, hinner, hscanner, rfl⟩ :=
    (compileRule_own_eq_ok_iff (show commentSpec.reference = none from rfl)).1 h
  have hof := outline_eq_ok.1 ho
  have hcaseless : o.caseless = true := hof.caseless
  have hopening : o.opening = "(?:--)" := by
    obtain ⟨pattern, hpattern, hexpand⟩ := hof.opening
    cases hpattern
    exact Except.ok.inj (hexpand.symm.trans (expand_comment name byname ws))
  have hending : o.ending = .pattern "$" := by
    obtain ⟨s, hexpand, hs⟩ := Fragment.map_eq_ok hof.ending
    rw [← hs, eq_of_expand (by decide) hexpand]
  obtain rfl : inner = [] := by
    rw [show commentSpec.inner = [] from rfl, compileRules_nil] at hinner
    exact (Except.ok.inj hinner).symm
  have hbuild : Scanner.build? (o.rule commentSpec [] scanner).alternatives = some scanner :=
    build?_of_scopeScanner hscanner (by simp [Outline.rule, Rule.opensScope, hending])
  refine ⟨⟨rfl, hending, rfl, rfl, rfl, rfl, ?_⟩, hopening, hcaseless⟩
  simpa [Rule.alternatives, Rule.closers, Outline.rule, openings, hending, hcaseless] using hbuild

/-- The rules of a dialect are compiled from its own rules and from those that they refer to. -/
theorem Speaks.exists_rule (hg : Speaks shared name byname ws g) {i : Nat} {spec : RuleSpec}
    (own : (Bundled.rules byname)[i]? = some spec ∨ ∃ reference,
      (Bundled.rules byname)[i]? = some (.ofReference reference) ∧
        Library.standard.rule? reference = some spec) :
    ∃ rule references place, g.rules[i]? = some rule ∧
      compileRule (context name byname ws) references spec place true = .ok rule := by
  rcases own with hspec | ⟨reference, hspec, hstandard⟩
  · obtain ⟨rule, hrule, hcompiled⟩ := exists_rule_of_compileRules hg.compiles.rules hspec
    exact ⟨rule, _, _, hrule, hcompiled⟩
  · obtain ⟨rule, hrule, hreference⟩ := exists_rule_of_compileRules hg.compiles.rules hspec
    obtain ⟨-, fewer, target, -, htarget, hcompiled⟩ :=
      (compileRule_reference_eq_ok_iff
        (show (RuleSpec.ofReference reference).reference = some reference from rfl)).1 hreference
    cases hstandard.symm.trans htarget
    exact ⟨rule, fewer, _, hrule, hcompiled⟩

/-- A rule of a dialect does not match where its opening does not. -/
theorem Speaks.endAt?_opening (hg : Speaks shared name byname ws g) {i : Nat} {spec : RuleSpec}
    (own : (Bundled.rules byname)[i]? = some spec ∨ ∃ reference,
      (Bundled.rules byname)[i]? = some (.ofReference reference) ∧
        Library.standard.rule? reference = some spec)
    (hreference : spec.reference = none) (hcaseless : spec.caseless = none) {h : Haystack} {p : Nat}
    {s : String} (hexpand : (spec.opening.bind (base.expand · |>.toOption)) = some s)
    (fails : (Alternative.regex ⟨s, true, .rule i⟩).endAt? h p = none) {rule : Rule}
    (hrule : g.rules[i]? = some rule) :
    (Alternative.regex ⟨rule.opening, rule.caseless, .rule i⟩).endAt? h p = none := by
  obtain ⟨rule', references, place, hrule', hcompiled⟩ := hg.exists_rule own
  cases hrule.symm.trans hrule'
  obtain ⟨o, inner, scanner, ho, -, -, rfl⟩ := (compileRule_own_eq_ok_iff hreference).1 hcompiled
  have hof := outline_eq_ok.1 ho
  obtain ⟨pattern, hpattern, hopening⟩ := hof.opening
  rw [hpattern, Option.bind_some] at hexpand
  have hcarried := (extends_base name byname ws).expand _ _ (eq_ok_of_toOption hexpand)
  have hinherited : o.caseless = true := by rw [hof.caseless, hcaseless]; rfl
  rw [Outline.rule, Except.ok.inj (hopening.symm.trans hcarried), hinherited]
  exact fails

/-- What the rule for comments is compiled to in a dialect. -/
theorem Speaks.comments (hg : Speaks shared name byname ws g) : ∃ rule,
    g.rules[commentIndex]? = some rule ∧ rule.CommentsLine ∧ rule.opening = "(?:--)" ∧
      rule.caseless = true := by
  obtain ⟨rule, _, _, hrule, hcompiled⟩ :=
    hg.exists_rule (i := commentIndex) (.inr ⟨"sql_line_comment", rfl, rfl⟩)
  exact ⟨rule, hrule, comments_of_compileRule hcompiled⟩

section Dashes

variable (fit : shared.Fit) (hne : ws ≠ []) (hws : ∀ w ∈ ws, IsWord w)
  (hg : Speaks shared name byname ws g)

include fit hne hws hg

/-- The rule for comments is found at two dashes. -/
theorem Speaks.dashes_of_find? {h : Haystack} {cursor p stop : Nat}
    (found : g.scanner.find? h cursor = some (.rule commentIndex, p, stop)) :
    h.char? p = some '-' ∧ h.char? (p + 1) = some '-' ∧ stop = p + 2 := by
  rw [hg.find?_eq_first? fit hne hws] at found
  obtain ⟨⟨p', hit, stop'⟩, hfirst, heq⟩ := Option.map_eq_some_iff.1 found
  cases heq
  obtain ⟨-, -, hfound, -⟩ := Haystack.first?_eq_some_iff.1 hfirst
  obtain ⟨a, ha, hhit, hend⟩ := Scanner.exists_of_foundAt? hfound
  obtain ⟨i, hi, rfl⟩ := List.mem_mapIdx.1 ha
  cases hhit
  obtain ⟨rule, hrule, -, hopening, hcaseless⟩ := hg.comments
  obtain rfl : g.rules[commentIndex] = rule := (List.getElem?_eq_some_iff.1 hrule).2
  have hdashes : Alternative.regex ⟨"(?:--)", true, .rule commentIndex⟩ =
      .seq (.char (.one '-')) (.char (.one '-')) := by decide +kernel
  rw [hopening, hcaseless, hdashes, endAt?_chars] at hend
  split at hend
  · rename_i hboth
    rw [Bool.and_eq_true, CharSet.hasAt_one, CharSet.hasAt_one] at hboth
    exact ⟨hboth.1, hboth.2, (Option.some.inj hend).symm⟩
  · cases hend

end Dashes

end Bundled

namespace Scan

/-- Two dashes outside all scopes open a comment up to the end of the line, which is a span of the
region. Where the comment ends with the region, the outcome is what it was in front of it. -/
structure ReadsComment (ctx : Context) (first : Nat) (s : State) (p stop q : Nat) : Prop where
  dashes : ctx.haystack.char? p = some '-' ∧ ctx.haystack.char? (p + 1) = some '-' ∧ stop = p + 2
  line : ctx.haystack.LineEnds stop q
  comments : s.Comments ctx p q
  span : ⟨.comment, p, q⟩ ∈ (region ctx first).spans
  flags : q = ctx.stop → (region ctx first).outcome.flags = s.outcome.flags

/-- Wherever the rule for comments comes next outside all scopes, there is a comment. -/
structure ReadsComments (ctx : Context) (first : Nat) : Prop where
  rule : ∃ rule, ctx.grammar.rules[Bundled.commentIndex]? = some rule ∧ rule.CommentsLine ∧
    rule.opening = "(?:--)"
  reads : ∀ s ∈ (State.start first).trail ctx, s.stack = [] → ∀ p stop,
    s.nextHit? ctx = some (.rule Bundled.commentIndex, p, stop) →
      ∃ q, ReadsComment ctx first s p stop q

/-- Every region embedded in a text begins in it and has room for a scope, if the text has. -/
theorem Reached.room {top ctx : Context} {first : Nat} {s : State} (h : Reached top ctx first s)
    (room : top.base < top.cap) : first ≤ ctx.stop ∧ ctx.base < ctx.cap := by
  induction h with
  | start => exact ⟨Nat.zero_le _, room⟩
  | take _ _ ih => exact ih
  | step _ _ ih => exact ih
  | @embed _ _ _ e _ _ _ _ => exact ⟨Nat.le_of_lt e.start_lt_stop, e.base_lt_cap⟩

end Scan

namespace Bundled

open Compile Scan

variable {shared : Shared} {name byname : String} {ws : List String} {ctx : Scan.Context}

theorem Speaks.readsComments (fit : shared.Fit) (hne : ws ≠ []) (hws : ∀ w ∈ ws, IsWord w)
    (hg : Speaks shared name byname ws ctx.grammar) (room : ctx.base < ctx.cap) {first : Nat}
    (hfirst : first ≤ ctx.stop) : ReadsComments ctx first := by
  obtain ⟨rule, hrule, comments, hopening, -⟩ := hg.comments
  refine ⟨⟨rule, hrule, comments, hopening⟩, fun s hs outside p stop hit => ?_⟩
  have hfind : ctx.grammar.scanner.find? ctx.haystack s.cursor =
      some (.rule commentIndex, p, stop) := by
    unfold State.nextHit? at hit
    simpa only [outside] using hit
  obtain ⟨hdash, hdash', rfl⟩ := hg.dashes_of_find? fit hne hws hfind
  have opens : s.Opens ctx rule p (p + 2) := by
    refine ⟨⟨commentIndex, hit, ?_⟩, Nat.lt_add_of_pos_right Nat.two_pos, comments.opensScope, ?_⟩
    · unfold State.rules
      simpa only [outside] using hrule
    · rw [State.depth, outside]
      exact room
  have before : ctx.haystack.before? (p + 2) ≠ some '\r' := by
    change ctx.haystack.char? (p + 1) ≠ _
    rw [hdash']
    decide
  obtain ⟨q, line⟩ := ctx.haystack.exists_lineEnds (Scanner.find?_eq_some hfind).2.2.1
  have hcomments := State.comments_of_opens comments opens (State.going_of_mem_trail hs) line before
  refine ⟨q, ⟨hdash, hdash', rfl⟩, line, hcomments, hcomments.mem_region hfirst hs, ?_⟩
  rintro rfl
  exact hcomments.flags_region outside hs

/-- Both dialects read comments up to the end of the line. -/
theorem Pair.readsComments {g g' : Grammar} (pair : Pair shared g g') (hg : ctx.grammar ∈ [g, g'])
    (room : ctx.base < ctx.cap) {first : Nat} (hfirst : first ≤ ctx.stop) :
    ReadsComments ctx first := by
  obtain ⟨hwords, hupper, -⟩ := functions_words
  rcases List.mem_pair.1 hg with h | h
  · exact Speaks.readsComments pair.fit (List.cons_ne_nil _ _) hwords (h ▸ pair.present) room hfirst
  · exact Speaks.readsComments pair.fit (List.cons_ne_nil _ _) hupper (h ▸ pair.earlier) room hfirst

end Bundled

open Scan in
/-- In the bundled grammars comments go up to the end of the line, in all texts, in every region
embedded in one, and to every depth but none at all. The spans of a text are its tokens. -/
theorem bundled_readsComments : ∃ r, Registry.bundled = .ok r ∧
    ∀ language ∈ ["cocosql", "coco-sql-old"], ∀ maxDepth, 1 ≤ maxDepth → ∀ text,
      ∃ h, r.start? language maxDepth text = some h ∧ h.ctx.source = .ofString text ∧
        h.ctx.stop = h.ctx.source.size ∧
        h.toHighlight.tokens = (region h.ctx 0).spans.map h.ctx.source.token ∧
        h.toHighlight.outcome = (region h.ctx 0).outcome ∧
        ∀ ctx first, Reached h.ctx ctx first (State.start first) → ReadsComments ctx first := by
  obtain ⟨shared, g, g', pair, hbundled⟩ := Bundled.exists_pair
  let r : Registry := { grammars := [g, g'] }
  have hreads : ∀ g₀ ∈ r.grammars, ∀ maxDepth, 1 ≤ maxDepth → ∀ text ctx first,
      Reached (Highlighting.start g₀ r.find? maxDepth text).ctx ctx first (State.start first) →
        ReadsComments ctx first := by
    intro g₀ hg₀ maxDepth positive text ctx first reached
    have room : 0 < effectiveMaxDepth maxDepth := Nat.lt_min.2 ⟨positive, by decide⟩
    obtain ⟨hfirst, hroom⟩ := reached.room room
    have serves : r.Serves (Highlighting.start g₀ r.find? maxDepth text).ctx := ⟨hg₀, rfl⟩
    exact pair.readsComments (serves.of_reached reached).grammar hroom hfirst
  refine ⟨r, hbundled, List.forall_mem_cons.2 ⟨fun maxDepth positive text => ?_,
    List.forall_mem_singleton.2 fun maxDepth positive text => ?_⟩⟩
  · refine ⟨_, congrArg (Option.map _) pair.find_present, rfl, rfl, ?_, ?_,
      hreads g (List.mem_cons_self ..) maxDepth positive text⟩
    · exact congrArg Highlight.tokens (toHighlight_eq _ 0)
    · exact congrArg Highlight.outcome (toHighlight_eq _ 0)
  · refine ⟨_, congrArg (Option.map _) (pair.find_earlier (by decide)), rfl, rfl, ?_, ?_,
      hreads g' (List.mem_cons_of_mem _ (List.mem_singleton_self _)) maxDepth positive text⟩
    · exact congrArg Highlight.tokens (toHighlight_eq _ 0)
    · exact congrArg Highlight.outcome (toHighlight_eq _ 0)

namespace Bundled

open Compile Scan

/-- A comment with a quote in it, and a line behind it. -/
def remark : Haystack := ⟨#['-', '-', ' ', '\'', '\r', '\n', '1'], 7⟩

theorem Speaks.find?_remark (fit : shared.Fit) (hne : ws ≠ []) (hws : ∀ w ∈ ws, IsWord w)
    (hg : Speaks shared name byname ws g) :
    g.scanner.find? remark 0 = some (.rule commentIndex, 0, 2) := by
  have fails : Anchor.wordEdge.holds remark 0 = false :=
    holds_wordEdge_zero (c := '-') rfl (by decide +kernel)
  have hfound : Scanner.foundAt? (openings g.rules) remark 0 = some (.rule commentIndex, 2) := by
    obtain ⟨rule, hrule, -, hopening, hcaseless⟩ := hg.comments
    refine Scanner.foundAt?_openings hrule ?_ fun j hj other hother => ?_
    · rw [hopening, hcaseless]
      cbv
    -- Each rule in front of that of the comment fails where the comment begins.
    have hcases : j = 0 ∨ j = 1 ∨ j = 2 ∨ j = 3 ∨ j = 4 ∨ j = 5 ∨ j = 6 := by
      unfold commentIndex at hj
      omega
    rcases hcases with rfl | rfl | rfl | rfl | rfl | rfl | rfl
    · have hcall : g.rules[0]? = some { shared.call with opening := Alternative.callOpening ws } := by
        rw [hg.rules]
        rfl
      cases hcall.symm.trans hother
      simp only [fit.call.2.2, Alternative.regex_call hne hws]
      exact endAt?_factored_look fails _ _
    · have htypes : g.rules[1]? = some shared.types := by rw [hg.rules]; rfl
      cases htypes.symm.trans hother
      rw [hg.types_opening.1, hg.types_opening.2,
        Alternative.regex_words (show types ≠ [] from List.cons_ne_nil _ _) isWord_types]
      exact endAt?_factored_look fails _ _
    · exact hg.endAt?_opening (s := "'") (.inr ⟨"single_quoted_string", rfl, rfl⟩) rfl rfl
        (by decide +kernel) (by cbv) hother
    · have hexpand : ((dollarSpec "").opening.bind (base.expand · |>.toOption)) =
          some "(?:\\$([a-zA-Z_]?|[a-zA-Z_][a-zA-Z_0-9]*)\\$)" := by decide +kernel
      have hspec : (Bundled.rules byname)[3]? = some (dollarSpec byname) := rfl
      exact hg.endAt?_opening (.inl hspec) rfl rfl hexpand (by cbv) hother
    · exact hg.endAt?_opening (s := "\"") (.inr ⟨"double_quoted_identifier", rfl, rfl⟩) rfl rfl
        (by decide +kernel) (by cbv) hother
    · exact hg.endAt?_opening
        (s := "(?:(-?)(\\b0[xX][a-fA-F0-9]+|(\\b\\d+(\\.\\d*)?|\\.\\d+)([eE][-+]?\\d+)?))")
        (.inr ⟨"c_number", rfl, rfl⟩) rfl rfl (by decide +kernel) (by cbv) hother
    · exact hg.endAt?_opening (s := "(?:/\\*)") (.inr ⟨"c_block_comment", rfl, rfl⟩) rfl rfl
        (by decide +kernel) (by cbv) hother
  rw [hg.find?_eq_first? fit hne hws, Haystack.first?_eq_some_iff.2
    ⟨Nat.le_refl 0, Nat.zero_le _, hfound, fun r _ hlt => absurd hlt (Nat.not_lt_zero r)⟩]
  rfl

end Bundled

open Bundled Scan in
/-- A quote in a comment, which ends where a carriage return and a line feed do. -/
theorem bundled_reads_quote_in_comment : ∃ r h, Registry.bundled = .ok r ∧
    r.start? "cocosql" 1 "-- '\r\n1" = some h ∧
      (State.start 0).nextHit? h.ctx = some (.rule commentIndex, 0, 2) ∧
      ReadsComment h.ctx 0 (State.start 0) 0 2 4 ∧
      ⟨.comment, "-- '", 0, 4⟩ ∈ h.toHighlight.tokens := by
  obtain ⟨r, hbundled, hreads⟩ := bundled_readsComments
  obtain ⟨h, hstart, -, -, htokens, -, hcomments⟩ :=
    hreads "cocosql" (by decide) 1 (Nat.le_refl 1) "-- '\r\n1"
  obtain ⟨shared, g, g', pair, hpair⟩ := exists_pair
  cases hbundled.symm.trans hpair
  cases hstart.symm.trans (congrArg (Option.map _) pair.find_present)
  let ctx := (Highlighting.start g (Registry.find? { grammars := [g, g'] }) 1 "-- '\r\n1").ctx
  have hhaystack : ctx.haystack = remark := rfl
  have hit : (State.start 0).nextHit? ctx = some (.rule commentIndex, 0, 2) :=
    pair.present.find?_remark pair.fit (List.cons_ne_nil _ _) functions_words.1
  have hmem : State.start 0 ∈ (State.start 0).trail ctx := by
    rw [State.trail_of_going rfl]
    exact List.mem_cons_self ..
  have line : Haystack.LineEnds remark 2 4 :=
    ⟨by decide, by decide, fun r hle hlt => by interval_cases r <;> decide +kernel,
      .inr (.inl (by decide +kernel))⟩
  obtain ⟨q, comment⟩ := (hcomments ctx 0 .start).reads _ hmem rfl 0 2 hit
  obtain rfl : q = 4 := (hhaystack ▸ comment.line).unique line
  refine ⟨_, _, hbundled, hstart, hit, comment, ?_⟩
  rw [htokens]
  exact List.mem_map_of_mem comment.span

end Highlighter
