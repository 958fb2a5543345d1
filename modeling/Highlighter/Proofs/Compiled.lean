import Highlighter.Grammar.Compile

/-!
What compiling a grammar makes sure of. Every pattern has been read, and every scanner is built
from the patterns that are looked for in its scope: the openings of the rules in it, in order, and
behind them what closes the scope, or the illegal pattern outside all scopes.
-/

namespace Highlighter

namespace Rule

/-- The rules in some rules, at any depth. -/
inductive Among (rules : List Rule) : Rule → Prop
  | top {rule : Rule} (mem : rule ∈ rules) : Among rules rule
  | inner {rule child : Rule} (outer : Among rules rule) (mem : child ∈ rule.inner) :
      Among rules child

theorem Among.exists_top {rules : List Rule} {rule : Rule} (h : Among rules rule) :
    ∃ top ∈ rules, Among [top] rule := by
  induction h with
  | top mem => exact ⟨_, mem, .top (List.mem_singleton_self _)⟩
  | inner outer mem ih =>
    obtain ⟨top, htop, hamong⟩ := ih
    exact ⟨top, htop, .inner hamong mem⟩

/-- What is in some rules that are all in others is in these, too. -/
theorem Among.trans {rules rules' : List Rule} {rule : Rule} (h : Among rules rule)
    (hrules : ∀ top ∈ rules, Among rules' top) : Among rules' rule := by
  induction h with
  | top mem => exact hrules _ mem
  | inner outer mem ih => exact .inner ih mem

theorem Among.singleton {first rule : Rule} (h : Among [first] rule) :
    rule = first ∨ Among first.inner rule := by
  induction h with
  | top mem => exact .inl (List.mem_singleton.1 mem)
  | inner outer mem ih =>
    rcases ih with rfl | ih
    · exact .inr (.top mem)
    · exact .inr (.inner ih mem)

/-- What closes the scope of a rule, if that is a pattern. -/
def closers (rule : Rule) : List Alternative :=
  match rule.ending with
  | .pattern source => [⟨source, rule.caseless, .closing⟩]
  | .single | .asOpened => []

/-- The patterns that are looked for in the scope of a rule. -/
def alternatives (rule : Rule) : List Alternative := Compile.openings rule.inner ++ rule.closers

/-- A rule whose patterns have been read, and whose scanner is built from what is looked for in its
scope. -/
structure Checked (rule : Rule) : Prop where
  opening : (Regex.ofRulePattern? rule.opening rule.caseless).isSome
  closers : ∀ a ∈ rule.closers, (Regex.ofRulePattern? a.pattern a.caseless).isSome
  closing : rule.closing = rule.closers.head?.bind fun a => Regex.ofRulePattern? a.pattern a.caseless
  scanner : rule.opensScope = true → Scanner.build? rule.alternatives = some rule.scanner

end Rule

namespace Compile

theorem ofRulePattern?_of_check {ctx : Context} {pattern : String} {caseless : Bool} {r : Regex}
    (h : ctx.check pattern caseless = .ok r) : Regex.ofRulePattern? pattern caseless = some r := by
  unfold Context.check at h
  split at h
  · rename_i hr
    cases h
    exact hr
  · cases h

theorem build?_of_scanner {ctx : Context} {place : Place} {alternatives : List Alternative}
    {s : Scanner} (h : ctx.scanner place alternatives = .ok s) :
    Scanner.build? alternatives = some s := by
  unfold Context.scanner at h
  split at h
  · rename_i hs
    cases h
    exact hs
  · cases h

/-- What an outline says of the patterns in it. -/
structure Outline.Checked (o : Outline) : Prop where
  opening : (Regex.ofRulePattern? o.opening o.caseless).isSome
  pattern : ∀ source, o.ending = .pattern source →
    ∃ r, Regex.ofRulePattern? source o.caseless = some r ∧ o.closing = some r
  other : (∀ source, o.ending ≠ .pattern source) → o.closing = none

/-- How a rule says that it ends, with its closing pattern expanded. -/
def Context.ending (ctx : Context) (spec : RuleSpec) (place : Place) : Except GrammarError Ending :=
  match spec.closing, spec.closesAsOpened with
  | some _, true => ctx.malformed place .twoClosings
  | some pattern, false => (ctx.expand pattern).map .pattern
  | none, true => pure .asOpened
  | none, false => pure .single

/-- The closing pattern by itself, if a pattern ends the rule. -/
def Context.closing (ctx : Context) (caseless : Bool) : Ending → Except GrammarError (Option Regex)
  | .pattern pattern => (ctx.check pattern caseless).map some
  | .single | .asOpened => pure none

/-- An outline of a rule, whose patterns have been expanded and read. -/
structure Outline.Of (ctx : Context) (spec : RuleSpec) (place : Place) (inherited : Bool)
    (o : Outline) : Prop where
  opening : ∃ pattern, spec.opening = some pattern ∧ ctx.expand pattern = .ok o.opening
  nonempty : o.opening.isEmpty = false
  ending : ctx.ending spec place = .ok o.ending
  single : o.ending = .single → spec.inner = [] ∧ spec.language = none
  caseless : o.caseless = spec.caseless.getD inherited
  check : ∃ r, ctx.check o.opening o.caseless = .ok r
  closing : ctx.closing o.caseless o.ending = .ok o.closing

/-- The outline of a rule, with what its ending says taken together. -/
theorem outline_def (ctx : Context) (spec : RuleSpec) (place : Place) (inherited : Bool) :
    outline ctx spec place inherited = (do
      let opening ← match spec.opening with
        | some pattern => ctx.expand pattern
        | none => ctx.malformed place .noOpening
      if opening.isEmpty then ctx.malformed place .emptyOpening else do
      let ending ← ctx.ending spec place
      if ending == .single && !spec.inner.isEmpty then
        ctx.malformed place .innerWithoutClosing else do
      if ending == .single && spec.language.isSome then
        ctx.malformed place .languageWithoutClosing else do
      let caseless := spec.caseless.getD inherited
      let _ ← ctx.check opening caseless
      let closing ← ctx.closing caseless ending
      return { opening, ending, caseless, closing }) := by
  unfold outline Context.ending
  cases spec.opening with
  | none => rfl
  | some pattern =>
    cases spec.closing with
    | none => cases spec.closesAsOpened <;> rfl
    | some closing =>
      cases spec.closesAsOpened with
      | true => rfl
      | false =>
        dsimp only
        cases ctx.expand closing <;> rfl

/-- A rule has just the outlines that say of it what holds. -/
theorem outline_eq_ok {ctx : Context} {spec : RuleSpec} {place : Place} {inherited : Bool}
    {o : Outline} : outline ctx spec place inherited = .ok o ↔ o.Of ctx spec place inherited := by
  rw [outline_def]
  constructor
  · intro h
    cases hopening : spec.opening with
    | none =>
      rw [hopening] at h
      cases h
    | some pattern =>
      rw [hopening] at h
      obtain ⟨opening, hexpand, h⟩ := bind_eq_ok h
      dsimp only at h
      split at h
      · cases h
      rename_i hempty
      obtain ⟨ending, hending, h⟩ := bind_eq_ok h
      split at h
      · cases h
      rename_i hinner
      split at h
      · cases h
      rename_i hlanguage
      obtain ⟨r, hr, h⟩ := bind_eq_ok h
      obtain ⟨closing, hclosing, h⟩ := bind_eq_ok h
      cases h
      refine ⟨⟨pattern, hopening, hexpand⟩, Bool.eq_false_iff.2 hempty, hending, ?_, rfl, ⟨r, hr⟩,
        hclosing⟩
      rintro rfl
      simpa using And.intro hinner hlanguage
  · rintro ⟨⟨pattern, hopening, hexpand⟩, hempty, hending, hsingle, hcaseless, ⟨r, hr⟩, hclosing⟩
    have hinner : (o.ending == .single && !spec.inner.isEmpty) = false := by
      cases he : o.ending <;> simp [hsingle, he]
    have hlanguage : (o.ending == .single && spec.language.isSome) = false := by
      cases he : o.ending <;> simp [hsingle, he]
    simp only [hopening, hexpand, hempty, hending, hinner, hlanguage, ← hcaseless, hr, hclosing,
      bind, Except.bind]
    rfl

theorem checked_of_outline {ctx : Context} {spec : RuleSpec} {place : Place} {inherited : Bool}
    {o : Outline} (h : outline ctx spec place inherited = .ok o) : o.Checked := by
  obtain ⟨-, -, -, -, -, ⟨r, hopening⟩, hclosing⟩ := outline_eq_ok.1 h
  have hopening := ofRulePattern?_of_check hopening
  unfold Context.closing at hclosing
  split at hclosing
  · rename_i source hending
    unfold Except.map at hclosing
    split at hclosing
    · cases hclosing
    · rename_i r hr
      have hclosing := Except.ok.inj hclosing
      refine ⟨by simp [hopening], ?_, fun h => absurd hending (h source)⟩
      intro source' hsource
      cases hending.symm.trans hsource
      exact ⟨r, ofRulePattern?_of_check hr, hclosing.symm⟩
  all_goals
    rename_i hending
    refine ⟨by simp [hopening], ?_, fun _ => (Except.ok.inj hclosing).symm⟩
    intro source hsource
    cases hending.symm.trans hsource

theorem build?_of_scopeScanner {ctx : Context} {o : Outline} {spec : RuleSpec} {place : Place}
    {inner : List Rule} {scanner : Scanner} (hs : scopeScanner ctx o place inner = .ok scanner)
    (opens : (o.rule spec inner scanner).opensScope = true) :
    Scanner.build? (o.rule spec inner scanner).alternatives = some scanner := by
  unfold scopeScanner at hs
  unfold Rule.alternatives Rule.closers Outline.rule
  unfold Rule.opensScope Outline.rule at opens
  split at hs
  · rename_i hsingle
    simp [hsingle] at opens
  · rename_i source hpattern
    simp only [hpattern]
    exact build?_of_scanner hs
  · rename_i hopened
    simp only [hopened, List.append_nil]
    exact build?_of_scanner hs

theorem Outline.Checked.rule {ctx : Context} {o : Outline} {spec : RuleSpec} {place : Place}
    {inner : List Rule} {scanner : Scanner} (ho : o.Checked)
    (hs : scopeScanner ctx o place inner = .ok scanner) : (o.rule spec inner scanner).Checked where
  opening := ho.opening
  closers := by
    intro a ha
    unfold Rule.closers Outline.rule at ha
    split at ha
    · rename_i source hpattern
      obtain ⟨r, hr, -⟩ := ho.pattern source hpattern
      cases List.mem_singleton.1 ha
      simp [hr]
    · cases ha
    · cases ha
  closing := by
    unfold Rule.closers Outline.rule
    dsimp only
    split
    · rename_i source hpattern
      obtain ⟨r, hr, hclosing⟩ := ho.pattern source hpattern
      simp [hr, hclosing]
    · rename_i hsingle
      exact ho.other (by simp [hsingle])
    · rename_i hopened
      exact ho.other (by simp [hopened])
  scanner := build?_of_scopeScanner hs

/-- All compiled rules are checked, at any depth. -/
theorem checked_of_compile {ctx : Context} {references : Nat} {specs : List RuleSpec}
    {place : Place} {index : Nat} {inherited : Bool} {rules : List Rule}
    (h : compileRules ctx references specs place index inherited = .ok rules) {rule : Rule}
    (hrule : Rule.Among rules rule) : rule.Checked := by
  obtain ⟨top, htop, hrule⟩ := hrule.exists_top
  refine (forall_of_compile ctx (P := fun top => ∀ rule, Rule.Among [top] rule → rule.Checked)
    ?_).2 references specs place index inherited rules h top htop rule hrule
  intro spec place inherited o inner scanner ho hscanner hinner rule hrule
  rcases hrule.singleton with rfl | hrule
  · exact (checked_of_outline ho).rule hscanner
  · obtain ⟨top, htop, hrule⟩ := hrule.exists_top
    exact hinner top htop rule hrule

theorem ofRulePattern?_of_illegalAlternatives {ctx : Context} {illegal : List Alternative}
    (h : illegalAlternatives ctx = .ok illegal) :
    ∀ a ∈ illegal, (Regex.ofRulePattern? a.pattern a.caseless).isSome := by
  unfold illegalAlternatives at h
  split at h
  · cases h
    simp
  · obtain ⟨expanded, -, h⟩ := bind_eq_ok h
    obtain ⟨r, hcheck, h⟩ := bind_eq_ok h
    cases h
    simp [ofRulePattern?_of_check hcheck]

theorem build?_of_rootScanner {ctx : Context} {rules : List Rule} {s : Scanner}
    {illegal : List Alternative} (h : rootScanner ctx rules = .ok s)
    (hillegal : illegalAlternatives ctx = .ok illegal) :
    Scanner.build? (openings rules ++ illegal) = some s := by
  obtain ⟨alternatives, halternatives, h⟩ := bind_eq_ok h
  rw [hillegal] at halternatives
  cases halternatives
  exact build?_of_scanner h

/-- What a grammar is compiled from. -/
structure Compiles (spec : GrammarSpec) (library : Library) (g : Grammar) : Prop where
  name : g.name = spec.name
  aliases : g.aliases = spec.aliases
  supersetOf : g.supersetOf = spec.supersetOf
  caseless : g.caseless = spec.caseless
  keywords : KeywordTable.ofLists spec.keywords spec.caseless = .ok g.keywords
  word : wordRegex ⟨spec, library⟩ = .ok g.word
  rules : compileRules ⟨spec, library⟩ maxReferences spec.rules .root 0 spec.caseless = .ok g.rules
  scanner : rootScanner ⟨spec, library⟩ g.rules = .ok g.scanner

theorem compiles_of_compile {spec : GrammarSpec} {library : Library} {g : Grammar}
    (h : spec.compile library = .ok g) : Compiles spec library g := by
  unfold GrammarSpec.compile at h
  dsimp only at h
  split at h
  · cases h
  · cases hk : KeywordTable.ofLists spec.keywords spec.caseless with
    | error entry =>
      rw [hk] at h
      cases h
    | ok keywords =>
      rw [hk] at h
      simp only [pure_bind] at h
      obtain ⟨word, hword, h⟩ := bind_eq_ok h
      split at h
      · cases h
      · rename_i rules hrules
        split at h
        · cases h
        · rename_i scanner hscanner
          cases h
          exact ⟨rfl, rfl, rfl, rfl, hk, hword, hrules, hscanner⟩

theorem exists_compile {spec : GrammarSpec} {library : Library} {keywords : KeywordTable}
    {word : Regex} {rules : List Rule} {scanner : Scanner}
    (hname : (Text.trim spec.name).isEmpty = false)
    (hkeywords : KeywordTable.ofLists spec.keywords spec.caseless = .ok keywords)
    (hword : wordRegex ⟨spec, library⟩ = .ok word)
    (hrules : compileRules ⟨spec, library⟩ maxReferences spec.rules .root 0 spec.caseless =
      .ok rules)
    (hscanner : rootScanner ⟨spec, library⟩ rules = .ok scanner) :
    ∃ g, spec.compile library = .ok g ∧ g.rules = rules := by
  unfold GrammarSpec.compile
  simp only [hname, hkeywords, hword, bind, Except.bind, pure, Except.pure, Bool.false_eq_true,
    ↓reduceIte]
  split
  · rename_i he
    rw [hrules] at he
    cases he
  · rename_i rules' hr
    rw [hrules] at hr
    cases hr
    split
    · rename_i he
      rw [hscanner] at he
      cases he
    · exact ⟨_, rfl, rfl⟩

/-- A grammar of one rule is compiled as soon as the rule is, if its opening and what is illegal can be
looked for together. -/
theorem exists_compile_single {spec : GrammarSpec} {library : Library} {keywords : KeywordTable}
    {word : Regex} {top : RuleSpec} {rule : Rule} {illegal : List Alternative}
    (hname : (Text.trim spec.name).isEmpty = false)
    (hkeywords : KeywordTable.ofLists spec.keywords spec.caseless = .ok keywords)
    (hword : wordRegex ⟨spec, library⟩ = .ok word) (htop : spec.rules = [top])
    (hrule : compileRule ⟨spec, library⟩ maxReferences top (Place.root.child 0) spec.caseless =
      .ok rule)
    (hillegal : illegalAlternatives ⟨spec, library⟩ = .ok illegal)
    (hbuild : (Scanner.build? (⟨rule.opening, rule.caseless, .rule 0⟩ :: illegal)).isSome) :
    ∃ g, spec.compile library = .ok g ∧ g.rules = [rule] ∧
      Scanner.build? (⟨rule.opening, rule.caseless, .rule 0⟩ :: illegal) = some g.scanner := by
  obtain ⟨scanner, hscanner⟩ := Option.isSome_iff_exists.1 hbuild
  have hrules : compileRules ⟨spec, library⟩ maxReferences spec.rules .root 0 spec.caseless =
      .ok [rule] := by
    rw [htop]
    exact compileRules_eq hrule (compileRules_nil ..)
  have hroot : rootScanner ⟨spec, library⟩ [rule] = .ok scanner := by
    simp [rootScanner, hillegal, openings, bind, Except.bind, Context.scanner, hscanner]
  obtain ⟨g, hg, hgrules⟩ := exists_compile hname hkeywords hword hrules hroot
  refine ⟨g, hg, hgrules, ?_⟩
  have hbuilt := build?_of_rootScanner (compiles_of_compile hg).scanner hillegal
  rw [hgrules] at hbuilt
  exact hbuilt

end Compile

end Highlighter
