import Highlighter.Proofs.Candidates
import Highlighter.Proofs.Includes.Inlining

/-!
A reference is the rule it refers to, written in its place. Where no reference is left, the compiled
rules are the rules as written, place by place, and the case mode of each is what the nearest rule
says that says any, going outwards from it.
-/

namespace Highlighter

/-- The members on the way to a place in a tree, from the one there outwards. The place is given by a
number for each level. -/
def onPath? {α : Type} (inner : α → List α) (tops : List α) : List Nat → Option (List α)
  | [] => some []
  | i :: path => tops[i]?.bind fun top => (onPath? inner (inner top) path).map (· ++ [top])

/-- Lists whose members are related have related members everywhere. -/
theorem rel_getElem?_of_forall₂ {α β : Type} {r : α → β → Prop} {as : List α} {bs : List β}
    (h : List.Forall₂ r as bs) (i : Nat) : Option.Rel r as[i]? bs[i]? := by
  induction h generalizing i with
  | nil => exact .none
  | cons hab _ ih =>
    cases i with
    | zero => exact .some hab
    | succ i => exact ih i

namespace Compile

namespace Context

/-- A compiled rule is a rule as written, apart from the rules inside it and from its case mode. All
patterns are expanded with the fragments of the grammar that is compiled. -/
structure AsWritten (ctx : Context) (spec : RuleSpec) (rule : Rule) : Prop where
  kind : rule.kind = spec.label
  opening : ∃ pattern, spec.opening = some pattern ∧ ctx.expand pattern = .ok rule.opening
  closing : ∀ pattern, spec.closing = some pattern →
    ∃ s, ctx.expand pattern = .ok s ∧ rule.ending = .pattern s
  unclosed : spec.closing = none → rule.ending = if spec.closesAsOpened then .asOpened else .single
  relevance : rule.relevance = (spec.relevance.map UInt32.toNat).getD 1
  openingOutside : rule.openingOutside = spec.openingOutside
  closingOutside : rule.closingOutside = spec.closingOutside
  language : rule.language = spec.language
  /-- The scanner is built from the openings of the rules inside it and from what closes it. -/
  checked : rule.Checked

/-- The rules on the way to a place are compiled as they are written, and the case mode of the
innermost is what the nearest says that says any, or else that of what all of them stand in. -/
def Along (ctx : Context) (inherited : Bool) (specs : List RuleSpec) (rules : List Rule)
    (path : List Nat) : Prop :=
  Option.Rel (fun written compiled => List.Forall₂ ctx.AsWritten written compiled ∧
      ∀ rule ∈ compiled.head?,
        rule.caseless = (written.findSome? RuleSpec.caseless).getD inherited)
    (onPath? RuleSpec.inner specs path) (onPath? Rule.inner rules path)

/-- A rule is compiled as it is written, and so are the rules on the way to every place in it. -/
structure Agrees (ctx : Context) (inherited : Bool) (spec : RuleSpec) (rule : Rule) : Prop where
  asWritten : ctx.AsWritten spec rule
  mode : rule.caseless = spec.mode inherited
  inner : ∀ path, ctx.Along rule.caseless spec.inner rule.inner path

variable {ctx : Context}

/-- The innermost rule that says a case mode is found on the way to a place, or outside of it. -/
theorem along_of_forall₂ {inherited : Bool} {specs : List RuleSpec} {rules : List Rule}
    (h : List.Forall₂ (ctx.Agrees inherited) specs rules) (path : List Nat) :
    ctx.Along inherited specs rules path := by
  cases path with
  | nil => exact .some ⟨.nil, nofun⟩
  | cons i path =>
    have htop := rel_getElem?_of_forall₂ h i
    unfold Along onPath?
    generalize specs[i]? = spec?, rules[i]? = rule? at htop
    cases htop with
    | none => exact .none
    | @some spec rule hagrees =>
      have hinner := hagrees.inner path
      unfold Along at hinner
      simp only [Option.bind_some]
      generalize onPath? RuleSpec.inner spec.inner path = written?,
        onPath? Rule.inner rule.inner path = compiled? at hinner
      cases hinner with
      | none => exact .none
      | @some written compiled hpath =>
        obtain ⟨hall, hmode⟩ := hpath
        refine .some ⟨List.rel_append hall (.cons hagrees.asWritten .nil), ?_⟩
        intro innermost hinnermost
        rw [List.findSome?_append]
        cases hall with
        | nil =>
          -- the place is that of the rule itself
          cases hinnermost
          rw [hagrees.mode, RuleSpec.mode, List.findSome?_nil, Option.none_or,
            List.findSome?_singleton]
        | cons =>
          rw [hmode innermost hinnermost, hagrees.mode, RuleSpec.mode, List.findSome?_singleton,
            Option.getD_or]

theorem asWritten_of_outline {spec : RuleSpec} {place : Place} {inherited : Bool} {o : Outline}
    {inner : List Rule} {scanner : Scanner} (ho : outline ctx spec place inherited = .ok o)
    (hscanner : scopeScanner ctx o place inner = .ok scanner) :
    ctx.AsWritten spec (o.rule spec inner scanner) := by
  obtain ⟨hopening, -, hending, -, -, -, -⟩ := outline_eq_ok.1 ho
  have hends := ending_eq_ok_iff.1 hending
  simp only [← expand_eq_ok_iff] at hends
  refine
    { kind := rfl
      opening := hopening
      closing := fun pattern hclosing => ?_
      unclosed := fun hnone => ?_
      relevance := rfl
      openingOutside := rfl
      closingOutside := rfl
      language := rfl
      checked := (checked_of_outline ho).rule hscanner }
  · rcases hends with ⟨hnone, -⟩ | ⟨hnone, -⟩ | ⟨pattern', s, hsome, -, hexpand, heq⟩
    · cases hnone.symm.trans hclosing
    · cases hnone.symm.trans hclosing
    · cases hsome.symm.trans hclosing
      exact ⟨s, hexpand, heq⟩
  · rcases hends with ⟨-, hopened, heq⟩ | ⟨-, hopened, heq⟩ | ⟨pattern', s, hsome, -⟩
    · rw [hopened]
      exact heq
    · rw [hopened]
      exact heq
    · cases hnone.symm.trans hsome

/-- Rules without references are compiled as they are written. -/
theorem agrees_of_compile {references index : Nat} {specs : List RuleSpec} {place : Place}
    {inherited : Bool} {rules : List Rule}
    (h : compileRules ctx references specs place index inherited = .ok rules)
    (complete : ∀ spec ∈ specs, spec.Complete) : List.Forall₂ (ctx.Agrees inherited) specs rules := by
  have hcompiled := induct_of_compile ctx
    (fun _ spec _ inherited rule => spec.Complete → ctx.Agrees inherited spec rule)
    (fun _ specs _ _ inherited rules => (∀ spec ∈ specs, spec.Complete) →
      List.Forall₂ (ctx.Agrees inherited) specs rules)
    ?reference ?own ?nil ?cons
  case reference =>
    intro references spec place inherited name target rule named _ _ _ complete
    cases named.symm.trans complete.own
  case own =>
    intro references spec place inherited o inner scanner _ ho _ hscanner ih complete
    exact
      { asWritten := asWritten_of_outline ho hscanner
        mode := (outline_eq_ok.1 ho).caseless
        inner := along_of_forall₂ (ih complete.inner) }
  case nil => exact fun _ => .nil
  case cons =>
    intro references place index inherited spec specs first rest ihFirst ihRest complete
    obtain ⟨hspec, hspecs⟩ := List.forall_mem_cons.1 complete
    exact .cons (ihFirst hspec) (ihRest hspecs)
  exact hcompiled.2 references specs place index inherited rules h complete

end Context

end Compile

open Compile

/-- A grammar that is compiled is compiled to the same when references in it are replaced by the rules
that they refer to, as many as one likes and at any depth, those in such rules as well. They can all be
replaced, and then the compiled rules are the rules as written, at every place, in the case mode that
the nearest rule outwards from there says, or else in that of the grammar. -/
theorem GrammarSpec.compile_inPlace {spec : GrammarSpec} {library : Library} {g : Grammar}
    (h : spec.compile library = .ok g) :
    (∀ spec', Relation.ReflTransGen (GrammarSpec.Inlines library) spec spec' →
      spec'.compile library = .ok g) ∧
    (∃ spec', Relation.ReflTransGen (GrammarSpec.Inlines library) spec spec' ∧
      ∀ rule ∈ spec'.rules, rule.Complete) ∧
    ∀ spec', Relation.ReflTransGen (GrammarSpec.Inlines library) spec spec' →
      (∀ rule ∈ spec'.rules, rule.Complete) →
        ∀ path, Context.Along ⟨spec, library⟩ spec.caseless spec'.rules g.rules path := by
  refine ⟨fun spec' steps => compile_inlined steps h, exists_complete h, ?_⟩
  intro spec' steps complete
  -- what is replaced are rules only, so the patterns are expanded as before
  have hrules : compileRules ⟨spec, library⟩ maxReferences spec'.rules .root 0 spec.caseless =
      .ok g.rules := by
    have hstep := (compiles_of_compile h).rules
    clear complete
    induction steps with
    | refl => exact hstep
    | @tail spec' spec'' steps inlines ih =>
      cases inlines with
      | rule split inlines =>
        rw [split] at ih
        exact compileRules_replace (fun _ _ hrule => inlines.compileRule_eq hrule) ih
  exact Context.along_of_forall₂ (Context.agrees_of_compile hrules complete)

/-- Quotes, in which case matters, around what another rule opens. -/
def RuleSpec.quotesAround (inside : RuleSpec) : RuleSpec :=
  { opening := some "'", closing := some "'", caseless := some false, inner := [inside] }

/-- Letters, which the grammar is to say. -/
def RuleSpec.someLetters : RuleSpec := { opening := some "\x7b\x7bletter\x7d\x7d+" }

/-- A rule with a reference to another one inside it. -/
def Library.quotedLetters : Library where
  rules := [("quoted", .quotesAround (.ofReference "letters")), ("letters", .someLetters)]

/-- Quoted letters, which are looked for elsewhere. -/
def GrammarSpec.letters : GrammarSpec where
  name := "letters"
  caseless := true
  fragments := [("letter", .pattern "[ab]")]
  rules := [.ofReference "quoted"]

/-- Quoted letters, written in place. -/
def GrammarSpec.lettersInPlace : GrammarSpec :=
  { GrammarSpec.letters with rules := [.quotesAround .someLetters] }

theorem Compile.compile_letters : ∃ g, GrammarSpec.letters.compile .quotedLetters = .ok g := by
  let ctx : Context := ⟨.letters, .quotedLetters⟩
  obtain ⟨letters, hletters, hfields⟩ : ∃ rule,
      compileRule ctx 6 .someLetters ((Place.root.child 0).child 0) false = .ok rule ∧
        (rule.opening, rule.ending, rule.caseless, rule.inner) = ("(?:[ab])+", .single, false, []) :=
    exists_compileRule 6 (by decide +kernel) rfl rfl (.inl rfl)
  simp only [Prod.mk.injEq] at hfields
  have hinside : compileRule ctx 7 (.ofReference "letters") ((Place.root.child 0).child 0) false =
      .ok letters := (compileRule_reference_eq_ok_iff rfl).2 ⟨rfl, 6, _, rfl, rfl, hletters⟩
  have hscanner : (Scanner.build? [⟨letters.opening, letters.caseless, .rule 0⟩,
      ⟨"'", false, .closing⟩]).isSome := by
    rw [hfields.1, hfields.2.2.1]
    decide +kernel
  obtain ⟨quoted, hquoted, hquotes⟩ : ∃ rule, compileRule ctx 7
      (.quotesAround (.ofReference "letters")) (Place.root.child 0) true = .ok rule ∧
      (rule.opening, rule.ending, rule.caseless, rule.language, rule.inner) =
        ("'", .pattern "'", false, none, [letters]) :=
    exists_compileRule_around (by decide +kernel) rfl rfl hinside hscanner
  simp only [Prod.mk.injEq] at hquotes
  have hrule : compileRule ctx maxReferences (.ofReference "quoted") (Place.root.child 0) true =
      .ok quoted := (compileRule_reference_eq_ok_iff rfl).2 ⟨rfl, 7, _, rfl, rfl, hquoted⟩
  have hbuild : (Scanner.build? [⟨quoted.opening, quoted.caseless, .rule 0⟩]).isSome := by
    rw [hquotes.1, hquotes.2.2.1]
    decide +kernel
  obtain ⟨g, hg, -⟩ := exists_compile_single (by decide +kernel) rfl rfl rfl hrule rfl hbuild
  exact ⟨g, hg⟩

/-- The letters are what the grammar says they are, in the case mode that the quotes say. -/
theorem GrammarSpec.compile_lettersInPlace :
    ∃ g, letters.compile .quotedLetters = .ok g ∧ lettersInPlace.compile .quotedLetters = .ok g ∧
      ∃ inner outer, onPath? Rule.inner g.rules [0, 0] = some [inner, outer] ∧
        inner.opening = "(?:[ab])+" ∧ inner.caseless = false := by
  obtain ⟨g, hg⟩ := Compile.compile_letters
  obtain ⟨hsame, -, halong⟩ := compile_inPlace hg
  let between : GrammarSpec :=
    { letters with rules := [.quotesAround (.ofReference "letters")] }
  have step : GrammarSpec.Inlines .quotedLetters letters between :=
    @GrammarSpec.Inlines.rule _ letters _ _ [] [] rfl (.here rfl rfl)
  have step' : GrammarSpec.Inlines .quotedLetters between lettersInPlace :=
    @GrammarSpec.Inlines.rule _ between _ _ [] [] rfl
      (@RuleSpec.Inlines.inner _ (.quotesAround (.ofReference "letters")) _ _ [] [] rfl
        (.here rfl rfl))
  have steps := Relation.ReflTransGen.head step (.single step')
  have complete : ∀ rule ∈ lettersInPlace.rules, rule.Complete :=
    List.forall_mem_singleton.2 (.intro rfl (List.forall_mem_singleton.2 (.intro rfl nofun)))
  refine ⟨g, hg, hsame _ steps, ?_⟩
  have hrel := halong _ steps complete [0, 0]
  unfold Context.Along at hrel
  generalize onPath? Rule.inner g.rules [0, 0] = compiled? at hrel ⊢
  cases hrel with
  | @some written compiled hpath =>
    obtain ⟨hall, hmode⟩ := hpath
    cases hall with
    | @cons _ inner _ _ hinner hall =>
      cases hall with
      | @cons _ outer _ _ houter hall =>
        cases hall
        obtain ⟨pattern, hpattern, hexpand⟩ := hinner.opening
        cases hpattern
        have hletter : Context.expand ⟨letters, .quotedLetters⟩ "\x7b\x7bletter\x7d\x7d+" =
            .ok "(?:[ab])+" := eq_ok_of_toOption (by decide +kernel)
        exact ⟨inner, outer, rfl, Except.ok.inj (hexpand.symm.trans hletter), hmode inner rfl⟩

end Highlighter
