import Highlighter.Grammar.Basic
import Highlighter.Grammar.Error
import Highlighter.Grammar.Library

/-!
Compiling a grammar: references are resolved against the pattern library, every pattern is
read, and each scope gets its scanner. The first thing found wrong is reported.
-/

namespace Highlighter

namespace Compile

theorem bind_eq_ok {ε α β : Type} {x : Except ε α} {f : α → Except ε β} {b : β}
    (h : x >>= f = .ok b) : ∃ a, x = .ok a ∧ f a = .ok b := by
  cases x with
  | error e => cases h
  | ok a => exact ⟨a, rfl, h⟩

/-- A rule may be found through this many references, one leading to the next. -/
def maxReferences : Nat := 8

/-- What a grammar is compiled against. -/
structure Context where
  spec : GrammarSpec
  library : Library

namespace Context

def name (ctx : Context) : String := ctx.spec.name

/-- Refuses the shape of a rule. -/
def malformed (ctx : Context) (place : Place) (fault : RuleFault) : Except GrammarError α :=
  .error (.malformedRule ctx.name place fault)

/-- Expands a pattern. The grammar's own fragments come first. -/
def expand (ctx : Context) (pattern : String) : Except GrammarError String :=
  let own name := (ctx.spec.fragment? name).map FragmentSpec.toPattern
  match ctx.library.expand own pattern with
  | .ok s => .ok s
  | .error (.undefined name) => .error (.undefinedFragment ctx.name name)
  | .error (.recursive name) => .error (.recursiveFragment ctx.name name)

/-- Reads an expanded pattern by itself. -/
def check (ctx : Context) (pattern : String) (caseless : Bool) : Except GrammarError Regex :=
  match Regex.ofRulePattern? pattern caseless with
  | some r => .ok r
  | none => .error (.invalidPattern ctx.name pattern)

/-- Builds the scanner of a scope. -/
def scanner (ctx : Context) (place : Place) (alternatives : List Alternative) :
    Except GrammarError Scanner :=
  match Scanner.build? alternatives with
  | some s => .ok s
  | none => .error (.invalidPattern ctx.name place.render)

end Context

/-- The alternatives that the openings of some rules make. -/
def openings (rules : List Rule) : List Alternative :=
  rules.mapIdx fun i rule => ⟨rule.opening, rule.caseless, .rule i⟩

theorem hit_of_mem_openings {rules : List Rule} {a : Alternative} (h : a ∈ openings rules) :
    ∃ i, i < rules.length ∧ a.hit = .rule i := by
  obtain ⟨i, hi, rfl⟩ := List.mem_mapIdx.1 h
  exact ⟨i, hi, rfl⟩

/-- The scanner for the openings of some rules and for something else that can come up where they
are looked for. -/
theorem hits_fit_of_scanner {ctx : Context} {place : Place} {rules : List Rule}
    {others : List Alternative} {inScope : Bool} {s : Scanner}
    (hs : ctx.scanner place (openings rules ++ others) = .ok s)
    (ho : ∀ a ∈ others, a.hit.fits rules.length inScope) :
    ∀ hit ∈ s.hits, hit.fits rules.length inScope := by
  intro hit hm
  unfold Context.scanner at hs
  split at hs
  · rename_i built hb
    cases hs
    obtain ⟨a, ha, rfl⟩ := Scanner.mem_of_build? hb hm
    rcases List.mem_append.1 ha with ha | ha
    · obtain ⟨i, hi, heq⟩ := hit_of_mem_openings ha
      simpa [heq, Hit.fits] using hi
    · exact ho a ha
  · cases hs

/-- The parts of a rule that its inner rules have no say in. -/
structure Outline where
  opening : String
  ending : Ending
  caseless : Bool
  closing : Option Regex

/-- Expands and checks the patterns of a rule that is no reference. -/
def outline (ctx : Context) (spec : RuleSpec) (place : Place) (inherited : Bool) :
    Except GrammarError Outline := do
  let opening ← match spec.opening with
    | some pattern => ctx.expand pattern
    | none => ctx.malformed place .noOpening
  if opening.isEmpty then ctx.malformed place .emptyOpening
  let ending ← match spec.closing, spec.closesAsOpened with
    | some _, true => ctx.malformed place .twoClosings
    | some pattern, false => (ctx.expand pattern).map .pattern
    | none, true => pure .asOpened
    | none, false => pure .single
  if ending == .single && !spec.inner.isEmpty then ctx.malformed place .innerWithoutClosing
  if ending == .single && spec.language.isSome then
    ctx.malformed place .languageWithoutClosing
  let caseless := spec.caseless.getD inherited
  let _ ← ctx.check opening caseless
  let closing ← match ending with
    | .pattern pattern => (ctx.check pattern caseless).map some
    | _ => pure none
  return { opening, ending, caseless, closing }

/-- The scanner of the scope that a rule opens. -/
def scopeScanner (ctx : Context) (o : Outline) (place : Place) (inner : List Rule) :
    Except GrammarError Scanner :=
  match o.ending with
  | .single => .ok .none
  | .pattern pattern =>
    ctx.scanner place (openings inner ++ [⟨pattern, o.caseless, .closing⟩])
  | .asOpened => ctx.scanner place (openings inner)

theorem scopeScanner_hits_fit {ctx : Context} {o : Outline} {place : Place} {inner : List Rule}
    {s : Scanner} (hs : scopeScanner ctx o place inner = .ok s) :
    ∀ hit ∈ s.hits, hit.fits inner.length true := by
  unfold scopeScanner at hs
  split at hs
  · cases hs
    intro hit hm
    cases hm
  · exact hits_fit_of_scanner hs (by simp [Hit.fits])
  · rw [← List.append_nil (openings inner)] at hs
    exact hits_fit_of_scanner hs (by simp)

mutual

/-- Compiles a rule. `inherited` is the case mode of what it stands in, and `references` is
how many more may be followed. -/
def compileRule (ctx : Context) (references : Nat) (spec : RuleSpec) (place : Place)
    (inherited : Bool) : Except GrammarError Rule :=
  match spec.reference with
  | some name =>
    if !spec.isBareReference then ctx.malformed place .mixedReference
    else match references with
      | 0 => ctx.malformed place (.nestedTooDeeply name)
      | references + 1 =>
        match ctx.library.rule? name with
        | none => .error (.undefinedRule ctx.name name)
        | some target => compileRule ctx references target place inherited
  | none => do
    let o ← outline ctx spec place inherited
    let inner ← compileRules ctx references spec.inner place 0 o.caseless
    let scanner ← scopeScanner ctx o place inner
    return {
      kind := spec.label
      opening := o.opening
      ending := o.ending
      closing := o.closing
      inner
      scanner
      caseless := o.caseless
      relevance := (spec.relevance.map UInt32.toNat).getD 1
      openingOutside := spec.openingOutside
      closingOutside := spec.closingOutside
      language := spec.language }
termination_by (references, sizeOf spec)
decreasing_by
  · decreasing_tactic
  · apply Prod.Lex.right; cases spec; simp only [RuleSpec.mk.sizeOf_spec]; omega

/-- Compiles rules that stand one after the other, from number `index` on. -/
def compileRules (ctx : Context) (references : Nat) (specs : List RuleSpec) (place : Place)
    (index : Nat) (inherited : Bool) : Except GrammarError (List Rule) :=
  match specs with
  | [] => .ok []
  | spec :: specs => do
    let first ← compileRule ctx references spec (place.child index) inherited
    let rest ← compileRules ctx references specs place (index + 1) inherited
    return first :: rest
termination_by (references, sizeOf specs)

end

/-- The rule that an outline comes to with the rules inside it. -/
def Outline.rule (o : Outline) (spec : RuleSpec) (inner : List Rule) (scanner : Scanner) : Rule where
  kind := spec.label
  opening := o.opening
  ending := o.ending
  closing := o.closing
  inner
  scanner
  caseless := o.caseless
  relevance := (spec.relevance.map UInt32.toNat).getD 1
  openingOutside := spec.openingOutside
  closingOutside := spec.closingOutside
  language := spec.language

section Rules

variable {ctx : Context} {references index : Nat} {spec : RuleSpec} {specs : List RuleSpec}
  {place : Place} {inherited : Bool}

/-- A rule that is no reference is compiled to its outline with the rules inside it. -/
theorem compileRule_own_eq_ok_iff (own : spec.reference = none) {rule : Rule} :
    compileRule ctx references spec place inherited = .ok rule ↔
      ∃ o inner scanner, outline ctx spec place inherited = .ok o ∧
        compileRules ctx references spec.inner place 0 o.caseless = .ok inner ∧
        scopeScanner ctx o place inner = .ok scanner ∧ o.rule spec inner scanner = rule := by
  rw [compileRule.eq_def]
  simp only [own]
  constructor
  · intro h
    obtain ⟨o, ho, h⟩ := bind_eq_ok h
    obtain ⟨inner, hinner, h⟩ := bind_eq_ok h
    obtain ⟨scanner, hscanner, h⟩ := bind_eq_ok h
    exact ⟨o, inner, scanner, ho, hinner, hscanner, Except.ok.inj h⟩
  · rintro ⟨o, inner, scanner, ho, hinner, hscanner, rfl⟩
    simp only [ho, hinner, hscanner, bind, Except.bind]
    rfl

theorem compileRule_eq {o : Outline} {inner : List Rule} {scanner : Scanner}
    (own : spec.reference = none) (ho : outline ctx spec place inherited = .ok o)
    (hinner : compileRules ctx references spec.inner place 0 o.caseless = .ok inner)
    (hs : scopeScanner ctx o place inner = .ok scanner) :
    compileRule ctx references spec place inherited = .ok (o.rule spec inner scanner) :=
  (compileRule_own_eq_ok_iff own).2 ⟨o, inner, scanner, ho, hinner, hs, rfl⟩

/-- A rule that is a reference is compiled as the rule that it refers to. -/
theorem compileRule_reference_eq_ok_iff {name : String} (named : spec.reference = some name)
    {rule : Rule} : compileRule ctx references spec place inherited = .ok rule ↔
      spec.isBareReference = true ∧ ∃ fewer target, references = fewer + 1 ∧
        ctx.library.rule? name = some target ∧
        compileRule ctx fewer target place inherited = .ok rule := by
  rw [compileRule.eq_def]
  simp only [named]
  cases spec.isBareReference with
  | false => simp [Context.malformed]
  | true =>
    cases references with
    | zero => simp [Context.malformed]
    | succ fewer => cases ctx.library.rule? name <;> simp

theorem compileRules_nil (ctx : Context) (references index : Nat) (place : Place)
    (inherited : Bool) : compileRules ctx references [] place index inherited = .ok [] := by
  rw [compileRules.eq_def]

theorem compileRules_cons_eq_ok_iff {rules : List Rule} :
    compileRules ctx references (spec :: specs) place index inherited = .ok rules ↔
      ∃ first rest, compileRule ctx references spec (place.child index) inherited = .ok first ∧
        compileRules ctx references specs place (index + 1) inherited = .ok rest ∧
        first :: rest = rules := by
  rw [compileRules.eq_def]
  constructor
  · intro h
    obtain ⟨first, hfirst, h⟩ := bind_eq_ok h
    obtain ⟨rest, hrest, h⟩ := bind_eq_ok h
    exact ⟨first, rest, hfirst, hrest, Except.ok.inj h⟩
  · rintro ⟨first, rest, hfirst, hrest, rfl⟩
    simp only [hfirst, hrest, bind, Except.bind]
    rfl

theorem compileRules_eq {first : Rule} {rest : List Rule}
    (hfirst : compileRule ctx references spec (place.child index) inherited = .ok first)
    (hrest : compileRules ctx references specs place (index + 1) inherited = .ok rest) :
    compileRules ctx references (spec :: specs) place index inherited = .ok (first :: rest) :=
  compileRules_cons_eq_ok_iff.2 ⟨first, rest, hfirst, hrest, rfl⟩

end Rules

/-- What holds of all that is compiled: of a reference if it holds of what that leads to, and of a rule
that is no reference if it holds of the rules inside it. -/
theorem induct_of_compile (ctx : Context)
    (P : Nat → RuleSpec → Place → Bool → Rule → Prop)
    (Q : Nat → List RuleSpec → Place → Nat → Bool → List Rule → Prop)
    (reference : ∀ {references spec place inherited name target rule},
      spec.reference = some name → spec.isBareReference = true →
      ctx.library.rule? name = some target → P references target place inherited rule →
        P (references + 1) spec place inherited rule)
    (own : ∀ {references spec place inherited o inner scanner}, spec.reference = none →
      outline ctx spec place inherited = .ok o →
      compileRules ctx references spec.inner place 0 o.caseless = .ok inner →
      scopeScanner ctx o place inner = .ok scanner →
      Q references spec.inner place 0 o.caseless inner →
        P references spec place inherited (o.rule spec inner scanner))
    (nil : ∀ {references place index inherited}, Q references [] place index inherited [])
    (cons : ∀ {references place index inherited spec specs first rest},
      P references spec (place.child index) inherited first →
      Q references specs place (index + 1) inherited rest →
        Q references (spec :: specs) place index inherited (first :: rest)) :
    (∀ references spec place inherited rule,
      compileRule ctx references spec place inherited = .ok rule →
        P references spec place inherited rule) ∧
    ∀ references specs place index inherited rules,
      compileRules ctx references specs place index inherited = .ok rules →
        Q references specs place index inherited rules := by
  apply compileRule.mutual_induct ctx
    (fun references spec place inherited => ∀ rule,
      compileRule ctx references spec place inherited = .ok rule →
        P references spec place inherited rule)
    (fun references specs place index inherited => ∀ rules,
      compileRules ctx references specs place index inherited = .ok rules →
        Q references specs place index inherited rules)
  case case1 =>
    intro references spec place inherited name hname hmixed rule h
    have hbare := ((compileRule_reference_eq_ok_iff hname).1 h).1
    simp [hbare] at hmixed
  case case2 =>
    intro spec place inherited name hname hbare rule h
    obtain ⟨-, fewer, -, hfewer, -⟩ := (compileRule_reference_eq_ok_iff hname).1 h
    cases hfewer
  case case3 =>
    intro spec place inherited name hname hbare references hnone rule h
    obtain ⟨-, fewer, target, -, htarget, -⟩ := (compileRule_reference_eq_ok_iff hname).1 h
    cases hnone.symm.trans htarget
  case case4 =>
    intro spec place inherited name hname hbare references target htarget ih rule h
    obtain ⟨bare, fewer, target', hfewer, htarget', h⟩ :=
      (compileRule_reference_eq_ok_iff hname).1 h
    cases hfewer
    cases htarget.symm.trans htarget'
    exact reference hname bare htarget (ih rule h)
  case case5 =>
    intro references spec place inherited hnone ih rule h
    obtain ⟨o, inner, scanner, ho, hinner, hscanner, rfl⟩ := (compileRule_own_eq_ok_iff hnone).1 h
    exact own hnone ho hinner hscanner (ih o inner hinner)
  case case6 =>
    intro references place index inherited rules h
    rw [compileRules_nil] at h
    cases h
    exact nil
  case case7 =>
    intro references place index inherited spec specs ihFirst ihRest rules h
    obtain ⟨first, rest, hfirst, hrest, rfl⟩ := compileRules_cons_eq_ok_iff.1 h
    exact cons (ihFirst first hfirst) (ihRest rest hrest)

/-- What holds of a compiled rule whenever it holds of the rules inside it holds of all that is
compiled: of a reference because of what it leads to. What is said of a rule as written, in the case
mode of what it stands in, may be used if it passes to the rules inside and to those referred to. -/
theorem forall_of_compile_of (ctx : Context) {Q : RuleSpec → Bool → Prop} {P : Rule → Prop}
    (hreference : ∀ {spec inherited name target}, Q spec inherited → spec.reference = some name →
      ctx.library.rule? name = some target → Q target inherited)
    (hinner : ∀ {spec place inherited o}, Q spec inherited →
      outline ctx spec place inherited = .ok o → ∀ child ∈ spec.inner, Q child o.caseless)
    (h : ∀ {spec place inherited o inner scanner}, Q spec inherited →
      outline ctx spec place inherited = .ok o → scopeScanner ctx o place inner = .ok scanner →
        (∀ rule ∈ inner, P rule) → P (o.rule spec inner scanner)) :
    (∀ references spec place inherited, Q spec inherited → ∀ rule,
      compileRule ctx references spec place inherited = .ok rule → P rule) ∧
    ∀ references specs place index inherited, (∀ spec ∈ specs, Q spec inherited) → ∀ rules,
      compileRules ctx references specs place index inherited = .ok rules →
        ∀ rule ∈ rules, P rule := by
  have hcompiled := induct_of_compile ctx
    (fun _ spec _ inherited rule => Q spec inherited → P rule)
    (fun _ specs _ _ inherited rules =>
      (∀ spec ∈ specs, Q spec inherited) → ∀ rule ∈ rules, P rule)
    ?reference ?own ?nil ?cons
  case reference => exact fun named _ found ih hspec => ih (hreference hspec named found)
  case own => exact fun _ ho _ hscanner ih hspec => h hspec ho hscanner (ih (hinner hspec ho))
  case nil => simp
  case cons =>
    intro references place index inherited spec specs first rest ihFirst ihRest hspecs
    obtain ⟨hspec, hspecs⟩ := List.forall_mem_cons.1 hspecs
    exact List.forall_mem_cons.2 ⟨ihFirst hspec, ihRest hspecs⟩
  exact ⟨fun references spec place inherited hspec rule hrule =>
      hcompiled.1 references spec place inherited rule hrule hspec,
    fun references specs place index inherited hspecs rules hrules =>
      hcompiled.2 references specs place index inherited rules hrules hspecs⟩

/-- What holds of a compiled rule whenever it holds of the rules inside it holds of all that is
compiled, however that is written. -/
theorem forall_of_compile (ctx : Context) {P : Rule → Prop}
    (h : ∀ {spec place inherited o inner scanner}, outline ctx spec place inherited = .ok o →
      scopeScanner ctx o place inner = .ok scanner → (∀ rule ∈ inner, P rule) →
        P (o.rule spec inner scanner)) :
    (∀ references spec place inherited rule,
      compileRule ctx references spec place inherited = .ok rule → P rule) ∧
    ∀ references specs place index inherited rules,
      compileRules ctx references specs place index inherited = .ok rules →
        ∀ rule ∈ rules, P rule := by
  obtain ⟨hrule, hrules⟩ := forall_of_compile_of ctx (Q := fun _ _ => True) (P := P)
    (fun _ _ _ => trivial) (fun _ _ _ _ => trivial) fun _ => h
  exact ⟨fun references spec place inherited => hrule references spec place inherited trivial,
    fun references specs place index inherited =>
      hrules references specs place index inherited fun _ _ => trivial⟩

/-- What is compiled is sound, by its inner rules and the scanner of its scope. -/
theorem sound_of_compile (ctx : Context) :
    (∀ references spec place inherited rule,
      compileRule ctx references spec place inherited = .ok rule → rule.Sound) ∧
    ∀ references specs place index inherited rules,
      compileRules ctx references specs place index inherited = .ok rules →
        ∀ rule ∈ rules, rule.Sound :=
  forall_of_compile ctx fun _ hscanner inner => .intro inner (scopeScanner_hits_fit hscanner)

/-- The regular expression that splits text into words. -/
def wordRegex (ctx : Context) : Except GrammarError Regex :=
  match ctx.spec.wordPattern with
  | none => .ok (.plus true (.char .word))
  | some pattern => do
    let expanded ← ctx.expand pattern
    match Regex.ofPattern? expanded with
    | some r => return r
    | none => .error (.invalidPattern ctx.name expanded)

/-- The alternative that the illegal pattern makes, if there is one. -/
def illegalAlternatives (ctx : Context) : Except GrammarError (List Alternative) :=
  match ctx.spec.illegal with
  | none => .ok []
  | some pattern => do
    let expanded ← ctx.expand pattern
    let _ ← ctx.check expanded ctx.spec.caseless
    return [⟨expanded, ctx.spec.caseless, .illegal⟩]

theorem hit_of_illegalAlternatives {ctx : Context} {alternatives : List Alternative}
    (h : illegalAlternatives ctx = .ok alternatives) : ∀ a ∈ alternatives, a.hit = .illegal := by
  unfold illegalAlternatives at h
  split at h
  · cases h
    simp
  · obtain ⟨expanded, -, h⟩ := bind_eq_ok h
    obtain ⟨_, -, h⟩ := bind_eq_ok h
    cases h
    simp

/-- The scanner of the text outside all scopes, in which illegal text may be found. -/
def rootScanner (ctx : Context) (rules : List Rule) : Except GrammarError Scanner := do
  ctx.scanner .root (openings rules ++ (← illegalAlternatives ctx))

theorem rootScanner_hits_fit {ctx : Context} {rules : List Rule} {s : Scanner}
    (hs : rootScanner ctx rules = .ok s) : ∀ hit ∈ s.hits, hit.fits rules.length false := by
  obtain ⟨alternatives, hillegal, hs⟩ := bind_eq_ok hs
  apply hits_fit_of_scanner hs
  intro a ha
  simp [hit_of_illegalAlternatives hillegal a ha, Hit.fits]

end Compile

open Compile in
/-- Compiles a grammar against a pattern library. -/
def GrammarSpec.compile (spec : GrammarSpec) (library : Library) :
    Except GrammarError Grammar := do
  if (Text.trim spec.name).isEmpty then throw .emptyName
  let ctx : Context := ⟨spec, library⟩
  let keywords ← match KeywordTable.ofLists spec.keywords spec.caseless with
    | .ok table => pure table
    | .error entry => ctx.malformed .keywords (.badKeyword entry)
  let word ← wordRegex ctx
  match hr : compileRules ctx maxReferences spec.rules .root 0 spec.caseless with
  | .error e => throw e
  | .ok rules =>
    match hs : rootScanner ctx rules with
    | .error e => throw e
    | .ok scanner =>
      return {
        name := spec.name
        aliases := spec.aliases
        category := spec.category
        caseless := spec.caseless
        supersetOf := spec.supersetOf
        keywords
        word
        rules
        scanner
        rules_sound := (sound_of_compile ctx).2 _ _ _ _ _ _ hr
        hits_fit := rootScanner_hits_fit hs }

end Highlighter
