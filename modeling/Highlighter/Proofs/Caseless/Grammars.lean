import Highlighter.Proofs.Caseless.Texts
import Highlighter.Proofs.Extending
import Highlighter.Proofs.Keywords

/-!
Grammars in which case does not matter. Where the flag `i` is on in all patterns of a grammar, and of
all grammars that its text may be handed to, texts that differ in the case of ASCII letters only are
divided into the same tokens. The case mode of the grammar passes to its rules, also to those that are
found in the library, and it is under the lower case that keywords are looked up and counted.
-/

namespace Highlighter

/-- The rules that some rules are written with: these, the rules inside them, and those of the
library that they refer to, at any depth. -/
inductive RuleSpec.Appears (library : Library) (specs : List RuleSpec) : RuleSpec → Prop
  | top {spec : RuleSpec} (mem : spec ∈ specs) : Appears library specs spec
  | inner {spec child : RuleSpec} (outer : Appears library specs spec) (mem : child ∈ spec.inner) :
      Appears library specs child
  | reference {spec target : RuleSpec} {name : String} (outer : Appears library specs spec)
      (refers : spec.reference = some name) (found : library.rule? name = some target) :
      Appears library specs target

/-- A pattern that, expanded, is valid by itself and never turns the flag `i` off. -/
def Compile.Context.IgnoresCase (ctx : Compile.Context) (pattern : String) : Prop :=
  ∀ expanded, ctx.expand pattern = .ok expanded →
    (Regex.ofPattern? expanded).isSome ∧ Alternative.staysCaseless expanded = true

/-- A rule that leaves case disregarded where it is so, and does not compare the end of a scope with
its beginning. -/
structure RuleSpec.IgnoresCase (ctx : Compile.Context) (spec : RuleSpec) : Prop where
  caseless : spec.caseless ≠ some false
  closesAsOpened : spec.closesAsOpened = false
  opening : ∀ pattern, spec.opening = some pattern → ctx.IgnoresCase pattern
  closing : ∀ pattern, spec.closing = some pattern → ctx.IgnoresCase pattern

/-- A grammar that disregards case in all of its rules, and has no pattern of its own for words. -/
structure GrammarSpec.IgnoresCase (spec : GrammarSpec) (library : Library) : Prop where
  caseless : spec.caseless = true
  wordPattern : spec.wordPattern = none
  rules : ∀ rule, RuleSpec.Appears library spec.rules rule → rule.IgnoresCase ⟨spec, library⟩
  illegal : ∀ pattern, spec.illegal = some pattern →
    Compile.Context.IgnoresCase ⟨spec, library⟩ pattern

/-- A grammar that is compiled from one that disregards case. -/
def Grammar.IgnoresCase (g : Grammar) : Prop :=
  ∃ spec library, GrammarSpec.compile spec library = .ok g ∧ spec.IgnoresCase library

/-- The grammars that highlighting may come to: the first, and those of the languages that are named
in them. -/
inductive Grammar.Reaches (language? : String → Option Grammar) (g : Grammar) : Grammar → Prop
  | refl : Reaches language? g g
  | embed {outer e : Grammar} {name : String} (reaches : Reaches language? g outer)
      (named : name ∈ outer.languages) (found : language? name = some e) : Reaches language? g e

/-- Kind and range of every token. -/
def Highlight.ranges (h : Highlight) : List (Kind × Nat × Nat) :=
  h.tokens.map fun t => (t.kind, t.start, t.stop)

/-- A compiled rule whose patterns, and those of the rules inside it, match letters in either case. -/
inductive Rule.IgnoresCase : Rule → Prop
  | intro {rule : Rule} (opening : Alternative.IgnoresCase ⟨rule.opening, rule.caseless, .rule 0⟩)
      (ending : rule.ending ≠ .asOpened) (closing : ∀ r, rule.closing = some r → r.IgnoresCase)
      (scanner : rule.scanner.IgnoresCase) (inner : ∀ r ∈ rule.inner, r.IgnoresCase) :
      rule.IgnoresCase

theorem Rule.IgnoresCase.opening {rule : Rule} (h : rule.IgnoresCase) :
    Alternative.IgnoresCase ⟨rule.opening, rule.caseless, .rule 0⟩ := by
  cases h with
  | intro opening => exact opening

namespace Compile

variable {ctx : Context}

theorem Context.IgnoresCase.alternative {pattern source : String} (h : ctx.IgnoresCase pattern)
    (hexpand : ctx.expand pattern = .ok source) {r : Regex}
    (hread : Regex.ofRulePattern? source true = some r) (hit : Hit) :
    Alternative.IgnoresCase ⟨source, true, hit⟩ := by
  obtain ⟨alone, stays⟩ := h source hexpand
  exact Alternative.StandsAlone.ignoresCase ⟨alone, by simp [hread]⟩ rfl stays

theorem ignoresCase_openings {rules : List Rule} (h : ∀ rule ∈ rules, rule.IgnoresCase) :
    ∀ a ∈ openings rules, a.IgnoresCase := by
  intro a ha
  obtain ⟨i, hi, rfl⟩ := List.mem_mapIdx.1 ha
  have hopening := (h _ (List.getElem_mem hi)).opening
  exact ⟨hopening.whole, hopening.regex⟩

/-- An outline whose patterns match letters in either case. -/
structure Outline.IgnoresCase (o : Outline) : Prop where
  caseless : o.caseless = true
  opening : Alternative.IgnoresCase ⟨o.opening, o.caseless, .rule 0⟩
  ending : o.ending ≠ .asOpened
  closer : ∀ source, o.ending = .pattern source →
    Alternative.IgnoresCase ⟨source, o.caseless, .closing⟩

/-- What closes a scope that is written so is a pattern that disregards case. -/
theorem ignoresCase_closer {spec : RuleSpec} {place : Place} {o : Outline}
    (hspec : spec.IgnoresCase ctx) (ho : outline ctx spec place true = .ok o)
    (hcaseless : o.caseless = true) : o.ending ≠ .asOpened ∧ ∀ source, o.ending = .pattern source →
      Alternative.IgnoresCase ⟨source, o.caseless, .closing⟩ := by
  have hending := (outline_eq_ok.1 ho).ending
  unfold Context.ending at hending
  rw [hspec.closesAsOpened] at hending
  cases hclosing : spec.closing with
  | none =>
    rw [hclosing] at hending
    rw [← Except.ok.inj hending]
    exact ⟨nofun, nofun⟩
  | some pattern =>
    rw [hclosing] at hending
    obtain ⟨source, hexpand, heq⟩ := Fragment.map_eq_ok hending
    obtain ⟨r, hr, -⟩ := (checked_of_outline ho).pattern source heq.symm
    rw [← heq]
    refine ⟨nofun, fun source' hsource => ?_⟩
    cases hsource
    rw [hcaseless] at hr ⊢
    exact (hspec.closing pattern hclosing).alternative hexpand hr _

/-- Where case is disregarded around a rule, it is so in the rule. -/
theorem ignoresCase_outline {spec : RuleSpec} {place : Place} {o : Outline}
    (hspec : spec.IgnoresCase ctx) (ho : outline ctx spec place true = .ok o) : o.IgnoresCase := by
  have hof := outline_eq_ok.1 ho
  have hcaseless : o.caseless = true := by
    have hfalse := hspec.caseless
    rw [hof.caseless]
    cases hcase : spec.caseless with
    | none => rfl
    | some value => cases value <;> simp_all
  obtain ⟨pattern, hpattern, hexpand⟩ := hof.opening
  obtain ⟨r, hr⟩ := hof.check
  have hcloser := ignoresCase_closer hspec ho hcaseless
  refine ⟨hcaseless, ?_, hcloser.1, hcloser.2⟩
  rw [hcaseless] at hr ⊢
  exact (hspec.opening pattern hpattern).alternative hexpand (ofRulePattern?_of_check hr) _

/-- The closing pattern by itself disregards case as it does in the scanner. -/
theorem Outline.IgnoresCase.closing {o : Outline} (h : o.IgnoresCase) (ho : o.Checked) {r : Regex}
    (hr : o.closing = some r) : r.IgnoresCase := by
  cases hending : o.ending with
  | pattern source =>
    obtain ⟨r', hread, hclosing⟩ := ho.pattern source hending
    have hregex := (h.closer source hending).regex
    rw [Alternative.regex, hread] at hregex
    rw [hclosing] at hr
    cases hr
    exact hregex
  | single | asOpened =>
    rw [ho.other (by simp [hending])] at hr
    cases hr

theorem ignoresCase_scopeScanner {o : Outline} {place : Place} {inner : List Rule} {s : Scanner}
    (h : o.IgnoresCase) (hinner : ∀ rule ∈ inner, rule.IgnoresCase)
    (hs : scopeScanner ctx o place inner = .ok s) : s.IgnoresCase := by
  unfold scopeScanner at hs
  split at hs
  · cases hs
    exact ⟨[], rfl, List.forall_mem_nil _⟩
  · rename_i source hending
    exact ⟨_, build?_of_scanner hs, List.forall_mem_append.2
      ⟨ignoresCase_openings hinner, List.forall_mem_singleton.2 (h.closer source hending)⟩⟩
  · rename_i hending
    exact absurd hending h.ending

/-- Where case is disregarded, it is so in all rules that are compiled. -/
theorem ignoresCase_of_compile {specs : List RuleSpec}
    (h : ∀ spec, RuleSpec.Appears ctx.library specs spec → spec.IgnoresCase ctx) {references : Nat}
    {place : Place} {index : Nat} {rules : List Rule}
    (hrules : compileRules ctx references specs place index true = .ok rules) :
    ∀ rule ∈ rules, rule.IgnoresCase := by
  refine (forall_of_compile_of ctx
    (Q := fun spec inherited => inherited = true ∧ RuleSpec.Appears ctx.library specs spec)
    (P := Rule.IgnoresCase) ?_ ?_ ?_).2 references specs place index true
    (fun spec hspec => ⟨rfl, .top hspec⟩) rules hrules
  · rintro spec _ name target ⟨rfl, hspec⟩ hname htarget
    exact ⟨rfl, .reference hspec hname htarget⟩
  · rintro spec place _ o ⟨rfl, hspec⟩ ho child hchild
    exact ⟨(ignoresCase_outline (h spec hspec) ho).caseless, .inner hspec hchild⟩
  · rintro spec place _ o inner scanner ⟨rfl, hspec⟩ ho hscanner hinner
    have houtline := ignoresCase_outline (h spec hspec) ho
    exact .intro houtline.opening houtline.ending
      (fun r hr => houtline.closing (checked_of_outline ho) hr)
      (ignoresCase_scopeScanner houtline hinner hscanner) hinner

theorem ignoresCase_rootScanner {rules : List Rule} {s : Scanner}
    (hcaseless : ctx.spec.caseless = true)
    (hillegal : ∀ pattern, ctx.spec.illegal = some pattern → ctx.IgnoresCase pattern)
    (hrules : ∀ rule ∈ rules, rule.IgnoresCase) (hs : rootScanner ctx rules = .ok s) :
    s.IgnoresCase := by
  obtain ⟨alternatives, halternatives, hs⟩ := bind_eq_ok hs
  refine ⟨_, build?_of_scanner hs, List.forall_mem_append.2 ⟨ignoresCase_openings hrules, ?_⟩⟩
  unfold illegalAlternatives at halternatives
  split at halternatives
  · cases halternatives
    exact nofun
  · rename_i pattern hpattern
    obtain ⟨expanded, hexpand, halternatives⟩ := bind_eq_ok halternatives
    obtain ⟨r, hr, halternatives⟩ := bind_eq_ok halternatives
    cases halternatives
    refine List.forall_mem_singleton.2 ?_
    rw [hcaseless] at hr ⊢
    exact (hillegal pattern hpattern).alternative hexpand (ofRulePattern?_of_check hr) _

end Compile

namespace Scan.Pairing.SameButCase

variable {w : Pairing} (same : w.SameButCase)

include same

theorem rule_twin {rule : Rule} (h : rule.IgnoresCase)
    (hlanguage : ∀ name ∈ rule.languages, w.language name name) : rule.Twin w rule := by
  induction h with
  | @intro rule opening ending closing scanner inner ih =>
    refine .of_inner ?_ fun r hmem => ?_
    · exact {
        kind := rfl
        relevance := rfl
        openingOutside := rfl
        closingOutside := rfl
        opensScope := rfl
        asOpened := Iff.rfl
        copied := fun hending => absurd hending ending
        closing := by
          intro stop hstop p
          cases hclosing : rule.closing with
          | none => rfl
          | some r => exact same.finds_regex (closing r hclosing) stop hstop p
        scanner := same.finds_scanner scanner
        language := by
          cases hrule : rule.language with
          | none => exact .none
          | some name => exact .some (hlanguage name (Rule.mem_languages hrule)) }
    · exact ih r hmem fun name hname => hlanguage name (Rule.mem_languages_of_inner hmem hname)

/-- A grammar that disregards case acts alike in texts that differ in case only. -/
theorem grammar_twin {g : Grammar} (h : g.IgnoresCase)
    (hlanguage : ∀ name ∈ g.languages, w.language name name) : g.Twin w g := by
  obtain ⟨spec, library, hg, hspec⟩ := h
  have hcompiles := Compile.compiles_of_compile hg
  have hrules : ∀ rule ∈ g.rules, rule.IgnoresCase := by
    have hcompiled := hcompiles.rules
    rw [hspec.caseless] at hcompiled
    refine Compile.ignoresCase_of_compile ?_ hcompiled
    exact hspec.rules
  have hword : g.word.IgnoresCase := by
    have hword := hcompiles.word
    rw [Compile.wordRegex, hspec.wordPattern] at hword
    rw [← Except.ok.inj hword]
    exact Regex.CharSet.ignoresCase_word
  have hkey : ∀ a b, g.keywords.key (w.left.slice a b) = g.keywords.key (w.right.slice a b) := by
    intro a b
    have hcaseless := KeywordTable.caseless_of_ofLists hcompiles.keywords
    rw [hspec.caseless] at hcaseless
    unfold KeywordTable.key Keyword.normalize
    rw [hcaseless, if_pos rfl, if_pos rfl, same.lowercase_slice]
  exact {
    rules := by
      refine rel_getElem?_self fun r hmem => ?_
      refine same.rule_twin (hrules r hmem) fun name hname => hlanguage name ?_
      exact List.mem_eraseDups.2 (Rule.mem_languagesOf.2 ⟨r, hmem, hname⟩)
    scanner := same.finds_scanner
      (Compile.ignoresCase_rootScanner hspec.caseless hspec.illegal hrules hcompiles.scanner)
    word := same.finds_word hword
    keyword := fun a b _ => by rw [KeywordTable.find?, hkey, KeywordTable.find?]
    key := fun a b _ => hkey a b }

end Scan.Pairing.SameButCase

open Scan in
/-- Where case is disregarded, texts that differ in the case of ASCII letters only are divided into
tokens of the same kinds and ranges, with the same score and the same diagnostics. -/
theorem highlight_ignoresCase {g : Grammar} {language? : String → Option Grammar}
    (h : ∀ g', g.Reaches language? g' → g'.IgnoresCase) {t t' : String}
    (same : Text.asciiLowercase t = Text.asciiLowercase t') (maxDepth : Nat) :
    (g.highlight t language? maxDepth).ranges = (g.highlight t' language? maxDepth).ranges ∧
      (g.highlight t language? maxDepth).outcome = (g.highlight t' language? maxDepth).outcome := by
  let left := Source.ofString t
  let right := Source.ofString t'
  -- A name stands for languages that are alike if its grammar is one of those reached.
  let w : Pairing := ⟨left, right, left.size, fun name name' =>
    name = name' ∧ ∀ e, language? name = some e → g.Reaches language? e⟩
  have hcase : w.SameButCase := Text.asciiLowercase_eq_iff.1 same
  have htwin : ∀ g', g.Reaches language? g' → g'.Twin w g' := fun g' hreach =>
    hcase.grammar_twin (h g' hreach) fun name hname => ⟨rfl, fun e he => .embed hreach hname he⟩
  let cap := effectiveMaxDepth maxDepth
  let ctx : Context := ⟨g, language?, cap, left, left.size, 0⟩
  let ctx' : Context := ⟨g, language?, cap, right, right.size, 0⟩
  have hctx : ctx.Twin w ctx' := {
    left := rfl
    right := rfl
    grammar := htwin g .refl
    language := by
      rintro name _ ⟨rfl, hreach⟩
      change Option.Rel _ (language? name) (language? name)
      cases he : language? name with
      | none => exact .none
      | some e => exact .some (htwin e (hreach e he))
    cap := rfl
    stop := hcase.size_eq
    stop_le := Nat.le_refl _
    base := rfl }
  obtain ⟨hspans, houtcome⟩ := region_eq_of_twin hctx 0
  have hhighlight : g.highlight t language? maxDepth = _ := toHighlight_eq ctx 0
  have hhighlight' : g.highlight t' language? maxDepth = _ := toHighlight_eq ctx' 0
  rw [hhighlight, hhighlight']
  refine ⟨?_, houtcome⟩
  unfold Highlight.ranges
  rw [List.map_map, List.map_map, hspans]
  refine List.map_congr_left fun span _ => ?_
  have hbyte := hcase.byte_eq
  simp only [Function.comp_def, Source.token]
  exact congrArg _ (congrArg₂ Prod.mk (hbyte span.start) (hbyte span.stop))

/-- A block between two words, whose text is in the language of blocks again. -/
def RuleSpec.block : RuleSpec where
  label := some .string
  opening := some "begin"
  closing := some "end"
  language := some "blocks"

/-- A language of blocks in which case is disregarded. -/
def GrammarSpec.blocks : GrammarSpec where
  name := "blocks"
  caseless := true
  keywords := [(.keyword, .text "select")]
  illegal := some "!"
  rules := [.block]

namespace Compile

theorem compile_blocks : ∃ g, GrammarSpec.blocks.compile .standard = .ok g := by
  let ctx : Context := ⟨.blocks, .standard⟩
  -- What is to be computed, of the parts of the grammar.
  obtain ⟨houtline, hinner, houter, hkeywords, hname, hillegal⟩ :
      (outline ctx .block (Place.root.child 0) true).toOption.map
          (fun o => (o.opening, o.ending, o.caseless)) = some ("begin", .pattern "end", true) ∧
        (Scanner.build? [⟨"end", true, .closing⟩]).isSome ∧
        (Scanner.build? [⟨"begin", true, .rule 0⟩, ⟨"!", true, .illegal⟩]).isSome ∧
        (KeywordTable.ofLists GrammarSpec.blocks.keywords true).toOption.isSome ∧
        (Text.trim GrammarSpec.blocks.name).isEmpty = false ∧
        (illegalAlternatives ctx).toOption = some [⟨"!", true, .illegal⟩] := by
    decide +kernel
  obtain ⟨o, hsome, ho⟩ := Option.map_eq_some_iff.1 houtline
  obtain ⟨inner, hinner⟩ := Option.isSome_iff_exists.1 hinner
  obtain ⟨keywords, hkeywords⟩ := Option.isSome_iff_exists.1 hkeywords
  simp only [Prod.mk.injEq] at ho
  have hscope : scopeScanner ctx o (Place.root.child 0) [] = .ok inner := by
    unfold scopeScanner
    simp only [ho.2.1, ho.2.2, openings, List.mapIdx_nil, List.nil_append, Context.scanner, hinner]
  have hnil : compileRules ctx maxReferences RuleSpec.block.inner (Place.root.child 0) 0 o.caseless =
      .ok [] := compileRules_nil ..
  have hrule := compileRule_eq rfl (eq_ok_of_toOption hsome) hnil hscope
  have hbuild : (Scanner.build? [⟨(o.rule .block [] inner).opening,
      (o.rule .block [] inner).caseless, .rule 0⟩, ⟨"!", true, .illegal⟩]).isSome := by
    simp only [Outline.rule, ho]
    exact houter
  obtain ⟨g, hg, -⟩ := exists_compile_single hname (eq_ok_of_toOption hkeywords) rfl rfl hrule
    (eq_ok_of_toOption hillegal) hbuild
  exact ⟨g, hg⟩

theorem ignoresCase_blocks : GrammarSpec.blocks.IgnoresCase .standard := by
  have hpatterns : ∀ pattern ∈ ["begin", "end", "!"],
      (Context.expand ⟨.blocks, .standard⟩ pattern).toOption = some pattern ∧
        (Regex.ofPattern? pattern).isSome ∧ Alternative.staysCaseless pattern = true := by
    decide +kernel
  have hpattern : ∀ pattern ∈ ["begin", "end", "!"],
      Context.IgnoresCase ⟨.blocks, .standard⟩ pattern := by
    intro pattern hmem expanded h
    obtain ⟨hexpand, hreads⟩ := hpatterns pattern hmem
    cases (eq_ok_of_toOption hexpand).symm.trans h
    exact hreads
  have honly : ∀ spec, RuleSpec.Appears .standard [.block] spec → spec = .block := by
    intro spec h
    induction h with
    | top mem => exact List.mem_singleton.1 mem
    | inner outer mem ih =>
      subst ih
      cases mem
    | reference outer refers found ih =>
      subst ih
      cases refers
  refine ⟨rfl, rfl, fun spec hspec => ?_, ?_⟩
  · rw [honly spec hspec]
    refine ⟨nofun, rfl, ?_, ?_⟩
    · rintro _ ⟨⟩
      exact hpattern "begin" (by simp)
    · rintro _ ⟨⟩
      exact hpattern "end" (by simp)
  · rintro _ ⟨⟩
    exact hpattern "!" (by simp)

end Compile

/-- Blocks are told in capitals as in small letters, one inside the other. -/
theorem highlight_blocks : ∃ g, GrammarSpec.blocks.compile .standard = .ok g ∧
    let language? := fun _ => some g
    (g.highlight "SELECT Begin select X END!" language? 32).ranges =
        (g.highlight "Select bEGIN SELECT x end!" language? 32).ranges ∧
      (g.highlight "SELECT Begin select X END!" language? 32).outcome =
        (g.highlight "Select bEGIN SELECT x end!" language? 32).outcome := by
  obtain ⟨g, hg⟩ := Compile.compile_blocks
  refine ⟨g, hg, ?_⟩
  intro language?
  have hreaches : ∀ g', g.Reaches language? g' → g'.IgnoresCase := by
    intro g' hreach
    have hsame : g' = g := by
      cases hreach with
      | refl => rfl
      | embed reaches named found => exact (Option.some.inj found).symm
    exact hsame ▸ ⟨_, _, hg, Compile.ignoresCase_blocks⟩
  have hcase : Text.asciiLowercase "SELECT Begin select X END!" =
      Text.asciiLowercase "Select bEGIN SELECT x end!" :=
    Text.asciiLowercase_eq_iff.2 (by decide +kernel)
  exact highlight_ignoresCase hreaches hcase 32

end Highlighter
