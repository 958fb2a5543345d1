import Highlighter.Proofs.Candidates
import Highlighter.Proofs.Reading.Last
import Highlighter.Proofs.WellFormed.Grammars

/-!
Grammars without embedded languages. A rule that names the language of its text can be written
without it: it then opens the same scope, and in the scope nothing is looked for but its end. Where
every pattern is one by itself, a grammar that is compiled is still compiled when all its rules are
written so, since the end of a scope can be looked for alone if it can be looked for with the rules
that apply there.
-/

namespace Highlighter

mutual

/-- The rule without the language of its text. Where it names one, the rules inside it are left out
with it, and where it does not, these are written in the same way. -/
def RuleSpec.unembedded (rule : RuleSpec) : RuleSpec :=
  match rule with
  | { inner, language, .. } =>
    { rule with
      inner := if language.isSome then [] else RuleSpec.unembeddedAll inner
      language := none }

/-- The rules without the languages of their texts, in order. -/
def RuleSpec.unembeddedAll : List RuleSpec → List RuleSpec
  | [] => []
  | rule :: rules => rule.unembedded :: RuleSpec.unembeddedAll rules

end

/-- The library with its rules written without the languages of their texts. -/
def Library.unembedded (library : Library) : Library :=
  { library with rules := library.rules.map fun entry => (entry.1, entry.2.unembedded) }

/-- The grammar with its rules written without the languages of their texts. -/
def GrammarSpec.unembedded (spec : GrammarSpec) : GrammarSpec :=
  { spec with rules := spec.rules.map RuleSpec.unembedded }

mutual

/-- What a rule is compiled to when it is written without the language of its text. -/
def Rule.unembedded (rule : Rule) : Rule :=
  match rule with
  | { inner, language, scanner, .. } =>
    { rule with
      inner := if language.isSome then [] else Rule.unembeddedAll inner
      scanner := if language.isSome then (Scanner.build? rule.closers).getD .none else scanner
      language := none }

/-- What rules are compiled to when they are written so, in order. -/
def Rule.unembeddedAll : List Rule → List Rule
  | [] => []
  | rule :: rules => rule.unembedded :: Rule.unembeddedAll rules

end

namespace RuleSpec

theorem unembeddedAll_eq_map (rules : List RuleSpec) :
    unembeddedAll rules = rules.map unembedded := by
  induction rules with
  | nil => rfl
  | cons rule rules ih => rw [unembeddedAll, ih, List.map_cons]

theorem unembedded_eq (rule : RuleSpec) : rule.unembedded = { rule with
    inner := if rule.language.isSome then [] else rule.inner.map unembedded
    language := none } := by
  cases rule
  simp only [unembedded, unembeddedAll_eq_map]

/-- A rule that names no language stays as it is but for the rules inside it. -/
theorem unembedded_of_none {rule : RuleSpec} (h : rule.language = none) :
    rule.unembedded = { rule with inner := rule.inner.map unembedded } := by
  rw [unembedded_eq, h]
  rfl

theorem unembedded_of_some {rule : RuleSpec} {language : String}
    (h : rule.language = some language) :
    rule.unembedded = { rule with inner := [], language := none } := by
  rw [unembedded_eq, h]
  rfl

theorem unembedded_ofReference (name : String) :
    (ofReference name).unembedded = ofReference name := by
  rw [unembedded_eq]
  rfl

end RuleSpec

/-- The named rules of the library are the same, written without the languages of their texts. -/
theorem Library.rule?_unembedded (library : Library) (name : String) :
    library.unembedded.rule? name = (library.rule? name).map RuleSpec.unembedded := by
  unfold rule? unembedded
  simp only
  induction library.rules with
  | nil => rfl
  | cons entry rules ih =>
    rw [List.map_cons, List.lookup_cons, List.lookup_cons, ih]
    cases name == entry.1 <;> rfl

/-- No rule of the standard library names a language. -/
theorem Library.unembedded_standard : Library.standard.unembedded = .standard := by rfl

namespace Rule

variable {rule : Rule}

theorem unembeddedAll_eq_map (rules : List Rule) : unembeddedAll rules = rules.map unembedded := by
  induction rules with
  | nil => rfl
  | cons rule rules ih => rw [unembeddedAll, ih, List.map_cons]

theorem unembedded_eq (rule : Rule) : rule.unembedded = { rule with
    inner := if rule.language.isSome then [] else rule.inner.map unembedded
    scanner := if rule.language.isSome then (Scanner.build? rule.closers).getD .none
      else rule.scanner
    language := none } := by
  cases rule
  simp only [unembedded, unembeddedAll_eq_map]

section Fields

variable (rule : Rule)

@[simp] theorem kind_unembedded : rule.unembedded.kind = rule.kind := by rw [unembedded_eq]

@[simp] theorem ending_unembedded : rule.unembedded.ending = rule.ending := by rw [unembedded_eq]

@[simp] theorem relevance_unembedded : rule.unembedded.relevance = rule.relevance := by
  rw [unembedded_eq]

@[simp] theorem openingOutside_unembedded :
    rule.unembedded.openingOutside = rule.openingOutside := by rw [unembedded_eq]

@[simp] theorem closingOutside_unembedded :
    rule.unembedded.closingOutside = rule.closingOutside := by rw [unembedded_eq]

@[simp] theorem language_unembedded : rule.unembedded.language = none := by rw [unembedded_eq]

@[simp] theorem opensScope_unembedded : rule.unembedded.opensScope = rule.opensScope := by
  simp [opensScope]

end Fields

theorem unembedded_of_none (h : rule.language = none) :
    rule.unembedded = { rule with inner := rule.inner.map unembedded } := by
  rw [unembedded_eq, h]
  rfl

theorem unembedded_of_some {language : String} (h : rule.language = some language) :
    rule.unembedded = { rule with
      inner := []
      scanner := (Scanner.build? rule.closers).getD .none
      language := none } := by
  rw [unembedded_eq, h]
  rfl

/-- What closes a scope can be looked for alone. -/
theorem isSome_build?_closers (alone : ∀ a ∈ rule.alternatives, a.StandsAlone)
    (built : (Scanner.build? rule.alternatives).isSome) : (Scanner.build? rule.closers).isSome := by
  unfold alternatives at alone built
  have hclosers : rule.closers = [] ∨ ∃ a, rule.closers = [a] := by
    unfold closers
    split
    · exact .inr ⟨_, rfl⟩
    · exact .inl rfl
    · exact .inl rfl
  rcases hclosers with hnone | ⟨a, hone⟩
  · rw [hnone]
    rfl
  · rw [hone] at alone built ⊢
    exact Scanner.isSome_build?_last (fun b hb => (alone b hb).isWhole) built

end Rule

namespace Compile

/-- The same grammar compiled against the same library, where rules are written without the
languages of their texts. -/
def Context.unembedded (ctx : Context) : Context := ⟨ctx.spec.unembedded, ctx.library.unembedded⟩

/-- Rules have the same openings when they are written so. -/
theorem openings_unembedded (rules : List Rule) :
    openings (rules.map Rule.unembedded) = openings rules := by
  refine List.ext_getElem? fun i => ?_
  simp only [openings, List.getElem?_mapIdx, List.getElem?_map, Option.map_map]
  congr 1
  funext rule
  rw [Function.comp_apply, Rule.unembedded_eq]

variable {ctx : Context} {spec : RuleSpec} {place : Place} {inherited : Bool} {o : Outline}

/-- The outline of a rule says nothing of the language of its text. -/
theorem outline_unembedded (ho : outline ctx spec place inherited = .ok o) :
    outline ctx.unembedded spec.unembedded place inherited = .ok o := by
  have hof := outline_eq_ok.1 ho
  rw [RuleSpec.unembedded_eq]
  refine outline_eq_ok.2 { hof with single := fun hsingle => ?_ }
  obtain ⟨hinner, hlanguage⟩ := hof.single hsingle
  simp [hinner]

/-- The scope of a rule without a language has the same scanner when the rules in it are written
so. -/
theorem scopeScanner_unembedded {inner : List Rule} {scanner : Scanner}
    (hs : scopeScanner ctx o place inner = .ok scanner) :
    scopeScanner ctx.unembedded o place (inner.map Rule.unembedded) = .ok scanner := by
  unfold scopeScanner at hs ⊢
  rw [openings_unembedded]
  split <;> simp_all only
  · exact carries_scanner place _ _ hs
  · exact carries_scanner place _ _ hs

/-- The scope of a rule has a scanner when nothing but its end is looked for there. -/
theorem scopeScanner_of_build?_closers {inner : List Rule} {scanner scanner' : Scanner}
    (hopens : o.ending ≠ .single)
    (hs : Scanner.build? (o.rule spec inner scanner).closers = some scanner') :
    scopeScanner ctx o place [] = .ok scanner' := by
  unfold scopeScanner
  unfold Rule.closers Outline.rule at hs
  split
  · contradiction
  · rename_i source hpattern
    simp only [hpattern] at hs
    simp only [openings, List.mapIdx_nil, List.nil_append, Context.scanner, hs]
  · rename_i hopened
    simp only [hopened] at hs
    simp only [openings, List.mapIdx_nil, Context.scanner, hs]

variable {references : Nat}

/-- A rule that names no language is compiled to the rule that is written so, if the rules inside it
are. -/
theorem compileRule_of_none {inner : List Rule} {scanner : Scanner} (own : spec.reference = none)
    (hlanguage : spec.language = none) (ho : outline ctx spec place inherited = .ok o)
    (hscanner : scopeScanner ctx o place inner = .ok scanner)
    (hinner : compileRules ctx.unembedded references (spec.inner.map RuleSpec.unembedded) place 0
      o.caseless = .ok (inner.map Rule.unembedded)) :
    compileRule ctx.unembedded references spec.unembedded place inherited =
      .ok (o.rule spec inner scanner).unembedded := by
  have ho' := outline_unembedded ho
  rw [Rule.unembedded_of_none hlanguage]
  rw [RuleSpec.unembedded_of_none hlanguage] at ho' ⊢
  exact compileRule_eq own ho' hinner (scopeScanner_unembedded hscanner)

/-- A rule that names a language is compiled without the rules inside it when it is written so. -/
theorem compileRule_of_some {inner : List Rule} {scanner : Scanner} {language : String}
    (own : spec.reference = none) (hlanguage : spec.language = some language)
    (ho : outline ctx spec place inherited = .ok o)
    (hscanner : scopeScanner ctx o place inner = .ok scanner)
    (alone : ∀ a ∈ (o.rule spec inner scanner).alternatives, a.StandsAlone) :
    compileRule ctx.unembedded references spec.unembedded place inherited =
      .ok (o.rule spec inner scanner).unembedded := by
  have hopens : o.ending ≠ .single := fun hsingle => by
    cases hlanguage.symm.trans ((outline_eq_ok.1 ho).single hsingle).2
  have hbuilt : Scanner.build? (o.rule spec inner scanner).alternatives = some scanner :=
    build?_of_scopeScanner hscanner (by simpa [Rule.opensScope, Outline.rule] using hopens)
  obtain ⟨scanner', hscanner'⟩ := Option.isSome_iff_exists.1
    (Rule.isSome_build?_closers alone (Option.isSome_of_eq_some hbuilt))
  have ho' := outline_unembedded ho
  rw [Rule.unembedded_of_some hlanguage, hscanner']
  rw [RuleSpec.unembedded_of_some hlanguage] at ho' ⊢
  exact compileRule_eq own ho' (compileRules_nil ..)
    (scopeScanner_of_build?_closers hopens hscanner')

/-- What is compiled is compiled without the languages of its texts when it is written so. -/
theorem compile_unembedded (ctx : Context) :
    (∀ references spec place inherited rule,
      compileRule ctx references spec place inherited = .ok rule →
      (∀ r, Rule.Among [rule] r → r.StandsAlone) →
      compileRule ctx.unembedded references spec.unembedded place inherited =
        .ok rule.unembedded) ∧
    ∀ references specs place index inherited rules,
      compileRules ctx references specs place index inherited = .ok rules →
      (∀ r, Rule.Among rules r → r.StandsAlone) →
      compileRules ctx.unembedded references (specs.map RuleSpec.unembedded) place index inherited =
        .ok (rules.map Rule.unembedded) := by
  refine induct_of_compile ctx _ _ ?reference ?own ?nil ?cons
  case reference =>
    intro references spec place inherited name target rule named bare found ih alone
    obtain rfl := (RuleSpec.isBareReference_iff named).1 bare
    have found' : ctx.unembedded.library.rule? name = some target.unembedded :=
      (Library.rule?_unembedded ctx.library name).trans (by rw [found, Option.map_some])
    rw [RuleSpec.unembedded_ofReference]
    exact (compileRule_reference_eq_ok_iff named).2 ⟨bare, _, _, rfl, found', ih alone⟩
  case own =>
    intro references spec place inherited o inner scanner own ho hinner hscanner ih alone
    have hself : Rule.Among [o.rule spec inner scanner] (o.rule spec inner scanner) :=
      .top (List.mem_singleton_self _)
    cases hlanguage : spec.language with
    | none =>
      exact compileRule_of_none own hlanguage ho hscanner <| ih fun r hr =>
        alone r (hr.trans fun top htop => hself.inner htop)
    | some language =>
      have checked : ∀ r, Rule.Among [o.rule spec inner scanner] r → r.Checked := by
        intro r hr
        rcases hr.singleton with rfl | hr
        · exact (checked_of_outline ho).rule hscanner
        · exact checked_of_compile hinner hr
      exact compileRule_of_some own hlanguage ho hscanner
        (Rule.standsAlone_alternatives checked alone hself)
  case nil => exact fun _ => compileRules_nil ..
  case cons =>
    intro references place index inherited spec specs first rest ihFirst ihRest alone
    have hfirst := ihFirst fun r hr => alone r <| hr.trans fun top htop =>
      .top (List.mem_singleton.1 htop ▸ List.mem_cons_self ..)
    have hrest := ihRest fun r hr => alone r <| hr.trans fun top htop =>
      .top (List.mem_cons_of_mem _ htop)
    exact compileRules_eq hfirst hrest

theorem illegalAlternatives_unembedded (ctx : Context) :
    illegalAlternatives ctx.unembedded = illegalAlternatives ctx := rfl

theorem rootScanner_unembedded {rules : List Rule} {scanner : Scanner}
    (h : rootScanner ctx rules = .ok scanner) :
    rootScanner ctx.unembedded (rules.map Rule.unembedded) = .ok scanner := by
  obtain ⟨illegal, hillegal, h⟩ := bind_eq_ok h
  unfold rootScanner
  rw [illegalAlternatives_unembedded, hillegal, openings_unembedded]
  exact carries_scanner .root _ _ h

end Compile

/-- The second grammar is the first without the languages of texts. -/
structure Grammar.Unembedded (g g' : Grammar) : Prop where
  name : g'.name = g.name
  caseless : g'.caseless = g.caseless
  keywords : g'.keywords = g.keywords
  word : g'.word = g.word
  rules : g'.rules = g.rules.map Rule.unembedded
  scanner : g'.scanner = g.scanner

open Compile in
/-- A grammar is compiled without the languages of texts when it is written so. -/
theorem GrammarSpec.exists_compile_unembedded {spec : GrammarSpec} {library : Library} {g : Grammar}
    (compiled : spec.compile library = .ok g)
    (alone : ∀ rule, Rule.Among g.rules rule → rule.StandsAlone) :
    ∃ g', spec.unembedded.compile library.unembedded = .ok g' ∧ g.Unembedded g' := by
  have h := compiles_of_compile compiled
  have hname := name_of_compile compiled
  have hrules := (compile_unembedded ⟨spec, library⟩).2 _ _ _ _ _ _ h.rules alone
  have hscanner := rootScanner_unembedded h.scanner
  have hcompiled : ∃ g', spec.unembedded.compile library.unembedded = .ok g' ∧
      g'.rules = g.rules.map Rule.unembedded :=
    exists_compile hname h.keywords h.word hrules hscanner
  obtain ⟨g', hg', hrules'⟩ := hcompiled
  obtain ⟨name, aliases, supersetOf, caseless, keywords, word, rules, scanner⟩ :=
    compiles_of_compile hg'
  rw [hrules'] at scanner
  exact ⟨g', hg', {
    name := name.trans h.name.symm
    caseless := caseless.trans h.caseless.symm
    keywords := Except.ok.inj (keywords.symm.trans h.keywords)
    word := Except.ok.inj (word.symm.trans h.word)
    rules := hrules'
    scanner := Except.ok.inj (scanner.symm.trans hscanner) }⟩

end Highlighter
