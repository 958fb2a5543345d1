import Highlighter.Proofs.Dialects.Alike
import Highlighter.Proofs.Scopes.Quoted

/-!
String literals in the bundled grammars. At an opening quote neither a call nor the name of a type
begins, so the rule for quoted text comes first, and whatever is quoted is one token.
-/

namespace Highlighter

open Regex Regex.Reader Fragment

namespace Regex

/-- Where an anchor does not hold, nothing that begins with it matches. -/
theorem endAt?_seq_look {anchor : Anchor} {h : Haystack} {p : Nat}
    (fails : anchor.holds h p = false) (rest : Regex) :
    (seq (look anchor) rest).endAt? h p = none := by
  have hsettle : settle (·.holds h p) false [(seq (look anchor) rest).start]
      (.none (seq (look anchor) rest).parts) = [] := by
    have hfree : (Marks.none (seq (look anchor) rest).parts).isFree 0 = true := by
      simp [Marks.isFree_none, parts]
    rw [start, settle_go rfl, List.append_nil, settle_take rfl hfree]
    simp [fails]
  change endFrom? h _ p [(seq (look anchor) rest).start] none = none
  rw [endFrom?_eq, hsettle]
  simp [isOver, pass, endFrom?_nil]

theorem endAt?_factored_look {anchor : Anchor} {h : Haystack} {p : Nat}
    (fails : anchor.holds h p = false) (r : Regex) (rs : List Regex) :
    (factored [factored [sequence (look anchor :: r :: rs)]]).endAt? h p = none := by
  rw [factored_factored, factored_singleton rfl]
  exact endAt?_seq_look fails _

/-- At the beginning of a text there is no edge of a word in front of anything but a word. -/
theorem holds_wordEdge_zero {h : Haystack} {c : Char} (hc : h.char? 0 = some c)
    (other : Text.isWord c = false) : Anchor.wordEdge.holds h 0 = false := by
  change (false != (h.char? 0).any Text.isWord) = false
  rw [hc, Option.any_some, other]
  rfl

end Regex

namespace Alternative

theorem regex_words {ws : List String} (hne : ws ≠ []) (h : ∀ w ∈ ws, IsWord w) (hit : Hit) :
    regex ⟨wordsOpening ws, true, hit⟩ = factored [wordsRegex ws] := by
  obtain ⟨p, hp, hregex, hdepth⟩ := piece?_words hne h
  rw [← hregex]
  exact (regex_eq_of_piece? (a := ⟨wordsOpening ws, true, hit⟩) hp
    (Nat.le_trans (Nat.add_le_add_right hdepth 4) (by decide))).2

end Alternative

namespace Text

/-- A text as a string literal: between quotes, with every quote in it written twice. -/
def literal (content : String) : String := "'" ++ String.ofList (doubled content.toList) ++ "'"

theorem toList_literal (content : String) :
    (literal content).toList = '\'' :: (doubled content.toList ++ ['\'']) := by
  simp [literal]

theorem length_literal (content : String) :
    (literal content).toList.length = (doubled content.toList).length + 2 := by
  rw [toList_literal]
  simp

end Text

/-- A span of some kind over all of a text. -/
def Token.whole (kind : Kind) (text : String) : Token := ⟨kind, text, 0, text.utf8ByteSize⟩

/-- What a span over the front of a text makes. -/
theorem Source.token_front (kind : Kind) {text front back : String} {n : Nat}
    (htext : text = front ++ back) (hn : front.toList.length = n) :
    (ofString text).token ⟨kind, 0, n⟩ = .whole kind front := by
  subst htext hn
  have hle : front.toList.length ≤ (ofString (front ++ back)).size := by
    simp [ofString, size]
  have hslice : (ofString (front ++ back)).slice 0 front.toList.length = front := by
    simp [ofString, slice]
  rw [token, byte_eq _ hle, byte_eq _ (Nat.zero_le _), hslice, slice_self]
  rfl

/-- A search in a text begins with all of it. -/
theorem Source.reads (text : String) :
    Haystack.Reads ⟨(ofString text).chars, (ofString text).size⟩ 0 text.toList where
  chars i := by
    unfold Haystack.char?
    rw [Nat.zero_add]
    split
    · simp [ofString]
    · rename_i hge
      exact (List.getElem?_eq_none (Nat.not_lt.1 hge)).symm
  length := by simp [ofString, size]

/-- The tokens come from the spans, and the outcome is that of the last state. -/
theorem Highlighting.toHighlight_of_drain {h : Highlighting} {spans : Array Span} {last : Scan.State}
    (drained : h.state.drain h.ctx h.ctx.inside #[] = (spans, last)) :
    h.toHighlight =
      ⟨h.ctx.grammar.name, spans.toList.map h.ctx.source.token, last.outcome⟩ := by
  unfold toHighlight rest outcome
  rw [drained]

/-- String literals are read for what they are: as one token, whatever is quoted and whatever stands
behind it, and without any diagnostic if they are all there is. Where only pairs of quotes follow an
opening quote, all of the text is one token, and it is incomplete. -/
structure ReadsLiterals (highlight : String → Highlight) : Prop where
  first : ∀ content rest : String, rest.toList.head? ≠ some '\'' →
    (highlight (Text.literal content ++ rest)).tokens.head? =
      some (.whole .string (Text.literal content))
  only : ∀ content : String,
    (highlight (Text.literal content)).tokens = [.whole .string (Text.literal content)] ∧
      (highlight (Text.literal content)).outcome.flags = ⟨false, false, false⟩
  unclosed : ∀ body : String, Text.QuotesPaired body.toList →
    (highlight ("'" ++ body)).tokens = [.whole .string ("'" ++ body)] ∧
      (highlight ("'" ++ body)).outcome.incomplete = true

namespace Bundled

open Compile Scan

variable {shared : Shared} {name byname : String} {ws : List String} {g : Grammar}

/-- The rule of the standard library for text between quotes. -/
def quotedSpec : RuleSpec where
  label := some .string
  opening := some "'"
  closing := some "'"
  inner := [.ofOpening "''"]

section Quoted

variable {ctx : Compile.Context} {references : Nat} {spec : RuleSpec} {place : Place}
  {inherited : Bool} {rule : Rule}

theorem eq_of_expand {pattern s : String} (plain : '\x7b' ∉ pattern.toList)
    (h : ctx.expand pattern = .ok s) : s = pattern :=
  Except.ok.inj (h.symm.trans (Context.expand_eq_ok.2 (expand_eq _ plain)))

theorem opening_of_outline {pattern : String} {o : Outline} (ho : o.Of ctx spec place inherited)
    (hspec : spec.opening = some pattern) (plain : '\x7b' ∉ pattern.toList) : o.opening = pattern := by
  obtain ⟨pattern', hpattern, hexpand⟩ := ho.opening
  cases hspec.symm.trans hpattern
  exact eq_of_expand plain hexpand

/-- What a rule that is an opening and nothing else is compiled to. -/
theorem single_of_compileRule {pattern : String} (plain : '\x7b' ∉ pattern.toList)
    (h : compileRule ctx references (.ofOpening pattern) place inherited = .ok rule) :
    rule.opening = pattern ∧ rule.caseless = inherited ∧ rule.kind = none ∧ rule.ending = .single := by
  obtain ⟨o, inner, scanner, ho, -, -, rfl⟩ :=
    (compileRule_own_eq_ok_iff (show (RuleSpec.ofOpening pattern).reference = none from rfl)).1 h
  have hof := outline_eq_ok.1 ho
  exact ⟨opening_of_outline hof rfl plain, hof.caseless, rfl, (Except.ok.inj hof.ending).symm⟩

/-- The rule for text between quotes is compiled to one. -/
theorem quotes_of_compileRule (h : compileRule ctx references quotedSpec place true = .ok rule) :
    rule.Quotes ∧ rule.opening = "'" ∧ rule.caseless = true := by
  obtain ⟨o, inner, scanner, ho, hinner, hscanner, rfl⟩ :=
    (compileRule_own_eq_ok_iff (show quotedSpec.reference = none from rfl)).1 h
  have hof := outline_eq_ok.1 ho
  have hcaseless : o.caseless = true := hof.caseless
  have hending : o.ending = .pattern "'" := by
    obtain ⟨s, hexpand, hs⟩ := map_eq_ok hof.ending
    rw [← hs, eq_of_expand (by decide) hexpand]
  obtain ⟨pair, _, hpair, hnil, rfl⟩ := compileRules_cons_eq_ok_iff.1 hinner
  rw [compileRules_nil] at hnil
  cases hnil
  obtain ⟨hopening, hsame, hkind, hsingle⟩ := single_of_compileRule (by decide) hpair
  refine ⟨⟨rfl, hending, rfl, rfl, rfl, ⟨pair, rfl, hkind, hsingle⟩, ?_⟩,
    opening_of_outline hof rfl (by decide), hcaseless⟩
  have hbuild : Scanner.build? (o.rule quotedSpec [pair] scanner).alternatives = some scanner :=
    build?_of_scopeScanner hscanner (by simp [Outline.rule, Rule.opensScope, hending])
  simpa [Rule.alternatives, Rule.closers, Outline.rule, openings, hending, hopening, hsame, hcaseless,
    Alternative.quotes] using hbuild

end Quoted

/-- What the rules for types and for quoted text are compiled from. -/
theorem Speaks.compiled (hg : Speaks shared name byname ws g) :
    compileRule (context name byname ws) maxReferences typesSpec (Place.root.child 1) true =
        .ok shared.types ∧
      compileRule (context name byname ws) maxReferences (.ofReference "single_quoted_string")
        (Place.root.child 2) true = .ok shared.quoted := by
  have hrules : compileRules (context name byname ws) maxReferences (Bundled.rules byname) .root 0
      true = .ok (shared.rules (Alternative.callOpening ws) byname) := hg.rules ▸ hg.compiles.rules
  rw [rules_eq] at hrules
  obtain ⟨_, _, -, hrules, heq⟩ := compileRules_cons_eq_ok_iff.1 hrules
  cases heq
  obtain ⟨_, _, htypes, hrules, heq⟩ := compileRules_cons_eq_ok_iff.1 hrules
  cases heq
  obtain ⟨_, _, hquoted, -, heq⟩ := compileRules_cons_eq_ok_iff.1 hrules
  cases heq
  exact ⟨htypes, hquoted⟩

theorem Speaks.types_opening (hg : Speaks shared name byname ws g) :
    shared.types.opening = Alternative.wordsOpening types ∧ shared.types.caseless = true := by
  obtain ⟨o, inner, scanner, ho, -, -, heq⟩ :=
    (compileRule_own_eq_ok_iff (show typesSpec.reference = none from rfl)).1 hg.compiled.1
  have hof := outline_eq_ok.1 ho
  obtain ⟨pattern, hpattern, hexpand⟩ := hof.opening
  cases hpattern
  have hopening := (extends_base name byname ws).expand _ _ expand_types
  rw [← heq]
  exact ⟨Except.ok.inj (hexpand.symm.trans hopening), hof.caseless⟩

theorem Speaks.quotes (hg : Speaks shared name byname ws g) :
    shared.quoted.Quotes ∧ shared.quoted.opening = "'" ∧ shared.quoted.caseless = true := by
  have hstandard : Library.standard.rule? "single_quoted_string" = some quotedSpec := rfl
  obtain ⟨-, fewer, target, -, htarget, hrule⟩ :=
    (compileRule_reference_eq_ok_iff
      (show (RuleSpec.ofReference "single_quoted_string").reference = some "single_quoted_string"
        from rfl)).1 hg.compiled.2
  cases hstandard.symm.trans htarget
  exact quotes_of_compileRule hrule

/-- At a quote in the beginning of a text the rule for quoted text comes first. -/
theorem Speaks.find?_quote (fit : shared.Fit) (hne : ws ≠ []) (hws : ∀ w ∈ ws, IsWord w)
    (hg : Speaks shared name byname ws g) {h : Haystack} (quote : h.char? 0 = some '\'') :
    g.scanner.find? h 0 = some (.rule 2, 0, 1) := by
  have fails : Anchor.wordEdge.holds h 0 = false := holds_wordEdge_zero quote (by decide +kernel)
  have hcall : (Alternative.regex ⟨Alternative.callOpening ws, true, .rule 0⟩).endAt? h 0 = none := by
    rw [Alternative.regex_call hne hws]
    exact endAt?_factored_look fails _ _
  have htype : (Alternative.regex ⟨Alternative.wordsOpening types, true, .rule 1⟩).endAt? h 0 =
      none := by
    rw [Alternative.regex_words (show types ≠ [] from List.cons_ne_nil _ _) isWord_types]
    exact endAt?_factored_look fails _ _
  have hquote : (Alternative.regex ⟨"'", true, .rule 2⟩).endAt? h 0 = some 1 := by
    have hone : Alternative.regex ⟨"'", true, .rule 2⟩ = .char (.one '\'') := by decide +kernel
    rw [hone, endAt?_char, if_pos (CharSet.hasAt_one.2 quote)]
  have hfound : Scanner.foundAt? (openings g.rules) h 0 = some (.rule 2, 1) := by
    obtain ⟨htypes, hcaseless⟩ := hg.types_opening
    obtain ⟨-, hquoted, hcaseless'⟩ := hg.quotes
    rw [hg.rules]
    simp only [Shared.rules, openings, List.mapIdx_cons, Scanner.foundAt?, List.findSome?_cons,
      fit.call.2.2, htypes, hcaseless, hquoted, hcaseless', hcall, htype, hquote, Nat.zero_add,
      Option.map_none, Option.map_some]
  rw [hg.find?_eq_first? fit hne hws, Haystack.first?_eq_some_iff.2
    ⟨Nat.le_refl 0, Nat.zero_le _, hfound, fun r _ hlt => absurd hlt (Nat.not_lt_zero r)⟩]
  rfl

section Literals

variable (fit : shared.Fit) (hne : ws ≠ []) (hws : ∀ w ∈ ws, IsWord w)
  (hg : Speaks shared name byname ws g) (language? : String → Option Grammar) {maxDepth : Nat}
  (positive : 1 ≤ maxDepth)

include fit hne hws hg positive

/-- A text that begins with a quote begins with quoted text. -/
theorem Speaks.opens_quoted {text : String} {cs : List Char} (hquote : text.toList = '\'' :: cs) :
    let ctx := (Highlighting.start g language? maxDepth text).ctx
    (State.start 0).Opens ctx shared.quoted 0 1 ∧ ctx.haystack.Reads 1 cs := by
  intro ctx
  have hreads : ctx.haystack.Reads 0 ('\'' :: cs) := hquote ▸ Source.reads text
  have hrule : g.rules[2]? = some shared.quoted := by rw [hg.rules]; rfl
  exact ⟨State.opens_start (hg.find?_quote fit hne hws hreads.head?) hrule Nat.zero_lt_one
    hg.quotes.1.opensScope positive, hreads.tail⟩

theorem Speaks.readsLiterals :
    ReadsLiterals fun text => (Highlighting.start g language? maxDepth text).toHighlight where
  first content rest apart := by
    have hquote : (Text.literal content ++ rest).toList =
        '\'' :: (Text.doubled content.toList ++ '\'' :: rest.toList) := by
      simp [Text.toList_literal]
    obtain ⟨hopens, hreads⟩ := hg.opens_quoted fit hne hws language? positive hquote
    obtain ⟨spans, last, hdrain, -⟩ := State.drain_of_quoted hg.quotes.1 hopens hreads apart
    rw [Highlighting.toHighlight_of_drain hdrain, Array.toList_append, List.map_append]
    exact congrArg some (Source.token_front .string rfl (Text.length_literal content))
  only content := by
    obtain ⟨hopens, hreads⟩ :=
      hg.opens_quoted fit hne hws language? positive (Text.toList_literal content)
    obtain ⟨spans, last, hdrain, honly⟩ :=
      State.drain_of_quoted hg.quotes.1 hopens hreads (fun h => nomatch h)
    obtain ⟨rfl, hflags⟩ := honly rfl
    rw [Highlighting.toHighlight_of_drain hdrain]
    refine ⟨congrArg (List.cons · []) ?_, hflags⟩
    exact Source.token_front .string String.append_empty.symm (Text.length_literal content)
  unclosed body paired := by
    obtain ⟨content, hcontent⟩ := Text.quotesPaired_iff.1 paired
    have hquote : ("'" ++ body).toList = '\'' :: Text.doubled content := by simp [hcontent]
    obtain ⟨hopens, hreads⟩ := hg.opens_quoted fit hne hws language? positive hquote
    obtain ⟨last, hdrain, hincomplete⟩ := State.drain_of_unclosed hg.quotes.1 hopens hreads
    rw [Highlighting.toHighlight_of_drain hdrain]
    refine ⟨congrArg (List.cons · []) ?_, hincomplete⟩
    exact Source.token_front .string String.append_empty.symm rfl

end Literals

end Bundled

/-- The bundled grammars read string literals for what they are, in all texts and to every depth but
none at all. -/
theorem bundled_readsLiterals : ∃ r, Registry.bundled = .ok r ∧
    ∀ language ∈ ["cocosql", "coco-sql-old"], ∀ maxDepth, 1 ≤ maxDepth →
      ∃ highlight : String → Highlight,
        (∀ text, r.highlight? language maxDepth text = some (highlight text)) ∧
          ReadsLiterals highlight := by
  obtain ⟨shared, g, g', pair, hbundled⟩ := Bundled.exists_pair
  obtain ⟨hwords, hupper, -⟩ := Bundled.functions_words
  refine ⟨{ grammars := [g, g'] }, hbundled, ?_⟩
  refine List.forall_mem_cons.2 ⟨fun maxDepth positive => ?_,
    List.forall_mem_singleton.2 fun maxDepth positive => ?_⟩
  · exact ⟨_, Registry.highlight?_of_find? pair.find_present maxDepth,
      pair.present.readsLiterals pair.fit (List.cons_ne_nil _ _) hwords _ positive⟩
  · exact ⟨_, Registry.highlight?_of_find? (pair.find_earlier (by decide)) maxDepth,
      pair.earlier.readsLiterals pair.fit (List.cons_ne_nil _ _) hupper _ positive⟩

/-- A quote in quoted text, once closed and once not. -/
theorem bundled_reads_quoted_quote : ∃ (r : Registry) (highlight : String → Highlight),
    Registry.bundled = .ok r ∧
      (∀ text, r.highlight? "coco-sql-old" 1 text = some (highlight text)) ∧
      (highlight "'it''s' -- '").tokens.head? = some ⟨.string, "'it''s'", 0, 7⟩ ∧
      (highlight "'it''s --").tokens = [⟨.string, "'it''s --", 0, 9⟩] ∧
      (highlight "'it''s --").outcome.incomplete = true := by
  obtain ⟨r, hbundled, hreads⟩ := bundled_readsLiterals
  obtain ⟨highlight, hhighlight, hliterals⟩ := hreads "coco-sql-old" (by decide) 1 (Nat.le_refl 1)
  have hpaired : Text.QuotesPaired "it''s --".toList :=
    Text.quotesPaired_iff.2 ⟨"it's --".toList, by decide +kernel⟩
  have hliteral : Text.literal "it's" = "'it''s'" := by decide +kernel
  have hfirst := hliterals.first "it's" " -- '" (by decide +kernel)
  rw [hliteral] at hfirst
  exact ⟨r, highlight, hbundled, hhighlight, hfirst, hliterals.unclosed "it''s --" hpaired⟩

end Highlighter
