import Highlighter.Proofs.WellFormed.Grammars

/-!
References to rules, replaced by the rules that they refer to. A grammar that is compiled is compiled
to the same when any reference in it is replaced, at any depth and any number of times, and in the end
none is left.
-/

namespace Highlighter

/-- In a rule, at some depth, one reference is replaced by the rule that it refers to. -/
inductive RuleSpec.Inlines (library : Library) : RuleSpec → RuleSpec → Prop
  | here {rule target : RuleSpec} {name : String} (named : rule.reference = some name)
      (found : library.rule? name = some target) : Inlines library rule target
  | inner {rule child child' : RuleSpec} {before behind : List RuleSpec}
      (split : rule.inner = before ++ child :: behind) (inlines : Inlines library child child') :
      Inlines library rule { rule with inner := before ++ child' :: behind }

/-- In a grammar, in some rule, one reference is replaced by the rule that it refers to. -/
inductive GrammarSpec.Inlines (library : Library) : GrammarSpec → GrammarSpec → Prop
  | rule {spec : GrammarSpec} {rule rule' : RuleSpec} {before behind : List RuleSpec}
      (split : spec.rules = before ++ rule :: behind) (inlines : rule.Inlines library rule') :
      Inlines library spec { spec with rules := before ++ rule' :: behind }

/-- A rule without references, at any depth. -/
inductive RuleSpec.Complete : RuleSpec → Prop
  | intro {rule : RuleSpec} (own : rule.reference = none)
      (inner : ∀ child ∈ rule.inner, child.Complete) : rule.Complete

theorem RuleSpec.Complete.own {rule : RuleSpec} (h : rule.Complete) : rule.reference = none := by
  cases h with
  | intro own _ => exact own

theorem RuleSpec.Complete.inner {rule : RuleSpec} (h : rule.Complete) :
    ∀ child ∈ rule.inner, child.Complete := by
  cases h with
  | intro _ inner => exact inner

namespace Compile

variable {ctx : Context}

/-- What is compiled is compiled to the same where more references may be followed. -/
theorem compile_more :
    (∀ references spec place inherited rule,
      compileRule ctx references spec place inherited = .ok rule →
        ∀ more, references ≤ more → compileRule ctx more spec place inherited = .ok rule) ∧
    ∀ references specs place index inherited rules,
      compileRules ctx references specs place index inherited = .ok rules →
        ∀ more, references ≤ more →
          compileRules ctx more specs place index inherited = .ok rules := by
  apply induct_of_compile ctx
    (fun references spec place inherited rule => ∀ more, references ≤ more →
      compileRule ctx more spec place inherited = .ok rule)
    (fun references specs place index inherited rules => ∀ more, references ≤ more →
      compileRules ctx more specs place index inherited = .ok rules)
  case reference =>
    intro references spec place inherited name target rule named bare found ih more hle
    obtain ⟨more, rfl⟩ := Nat.exists_eq_add_of_le' hle
    exact (compileRule_reference_eq_ok_iff named).2
      ⟨bare, more + references, target, rfl, found, ih _ (Nat.le_add_left ..)⟩
  case own =>
    intro references spec place inherited o inner scanner own ho _ hscanner ih more hle
    exact compileRule_eq own ho (ih more hle) hscanner
  case nil =>
    intro references place index inherited more _
    exact compileRules_nil ..
  case cons =>
    intro references place index inherited spec specs first rest ihFirst ihRest more hle
    exact compileRules_eq (ihFirst more hle) (ihRest more hle)

/-- One of some rules may be replaced by another that is compiled to the same. -/
theorem compileRules_replace {references index : Nat} {spec spec' : RuleSpec}
    {before behind : List RuleSpec} {place : Place} {inherited : Bool} {rules : List Rule}
    (same : ∀ place rule, compileRule ctx references spec place inherited = .ok rule →
      compileRule ctx references spec' place inherited = .ok rule)
    (h : compileRules ctx references (before ++ spec :: behind) place index inherited = .ok rules) :
    compileRules ctx references (before ++ spec' :: behind) place index inherited = .ok rules := by
  induction before generalizing index rules with
  | nil =>
    obtain ⟨first, rest, hfirst, hrest, rfl⟩ := compileRules_cons_eq_ok_iff.1 h
    exact compileRules_eq (same _ first hfirst) hrest
  | cons other before ih =>
    obtain ⟨first, rest, hfirst, hrest, rfl⟩ := compileRules_cons_eq_ok_iff.1 h
    exact compileRules_eq hfirst (ih hrest)

end Compile

open Compile

namespace RuleSpec.Inlines

variable {ctx : Context} {rule rule' : RuleSpec}

/-- The reference in place of which a rule is written would have been followed to it. -/
theorem compileRule_eq (h : rule.Inlines ctx.library rule') {references : Nat} {place : Place}
    {inherited : Bool} {compiled : Rule}
    (hcompiled : compileRule ctx references rule place inherited = .ok compiled) :
    compileRule ctx references rule' place inherited = .ok compiled := by
  induction h generalizing references place inherited compiled with
  | here named found =>
    obtain ⟨-, fewer, target, rfl, hfound, htarget⟩ :=
      (compileRule_reference_eq_ok_iff named).1 hcompiled
    cases found.symm.trans hfound
    exact compile_more.1 _ _ _ _ _ htarget _ (Nat.le_succ fewer)
  | @inner rule child child' before behind split inlines ih =>
    rcases compileRule_eq_ok_iff.1 hcompiled with
      ⟨name, _, _, rfl, -⟩ | ⟨own, o, inner, scanner, ho, hinner, hscanner, rfl⟩
    · -- a reference that is compiled has no rules inside it
      simp [RuleSpec.ofReference] at split
    · have hof := outline_eq_ok.1 ho
      have ho' : outline ctx { rule with inner := before ++ child' :: behind } place inherited =
          .ok o :=
        outline_eq_ok.2 { hof with
          opening := hof.opening
          ending := hof.ending
          single := fun hsingle => by
            have hnone := (hof.single hsingle).1
            simp [split] at hnone
          caseless := hof.caseless }
      rw [split] at hinner
      exact Compile.compileRule_eq own ho'
        (compileRules_replace (fun place rule hrule => ih hrule) hinner) hscanner

end RuleSpec.Inlines

namespace Compile

theorem category_of_compile {spec : GrammarSpec} {library : Library} {g : Grammar}
    (h : spec.compile library = .ok g) : g.category = spec.category := by
  unfold GrammarSpec.compile at h
  dsimp only at h
  split at h
  · cases h
  · cases hkeywords : KeywordTable.ofLists spec.keywords spec.caseless with
    | error entry =>
      rw [hkeywords] at h
      cases h
    | ok keywords =>
      rw [hkeywords] at h
      simp only [pure_bind] at h
      obtain ⟨word, -, h⟩ := bind_eq_ok h
      split at h
      · cases h
      · split at h
        · cases h
        · cases h
          rfl

/-- A grammar is compiled from one text to one result. -/
theorem Compiles.unique {spec : GrammarSpec} {library : Library} {g g' : Grammar}
    (h : Compiles spec library g) (h' : Compiles spec library g')
    (category : g.category = g'.category) : g = g' := by
  have hrules : g.rules = g'.rules := Except.ok.inj (h.rules.symm.trans h'.rules)
  have hscanner := h.scanner
  rw [hrules] at hscanner
  have hfields : g.name = g'.name ∧ g.aliases = g'.aliases ∧ g.caseless = g'.caseless ∧
      g.supersetOf = g'.supersetOf ∧ g.keywords = g'.keywords ∧ g.word = g'.word ∧
      g.scanner = g'.scanner :=
    ⟨h.name.trans h'.name.symm, h.aliases.trans h'.aliases.symm, h.caseless.trans h'.caseless.symm,
      h.supersetOf.trans h'.supersetOf.symm, Except.ok.inj (h.keywords.symm.trans h'.keywords),
      Except.ok.inj (h.word.symm.trans h'.word), Except.ok.inj (hscanner.symm.trans h'.scanner)⟩
  obtain ⟨hname, haliases, hcaseless, hsuperset, hkeywords, hword, hscanner⟩ := hfields
  cases g
  cases g'
  congr

/-- What a grammar is compiled from is compiled to it. -/
theorem compile_of_compiles {spec : GrammarSpec} {library : Library} {g : Grammar}
    (hname : (Text.trim spec.name).isEmpty = false) (h : Compiles spec library g)
    (category : g.category = spec.category) : spec.compile library = .ok g := by
  obtain ⟨g', hg', -⟩ := exists_compile hname h.keywords h.word h.rules h.scanner
  have hsame := (compiles_of_compile hg').unique h ((category_of_compile hg').trans category.symm)
  rw [hg', hsame]

end Compile

namespace GrammarSpec

variable {spec spec' : GrammarSpec} {library : Library} {g : Grammar}

/-- A grammar is compiled to the same with other rules that are compiled to the same. -/
theorem compile_withRules (h : spec.compile library = .ok g) {rules : List RuleSpec}
    (hrules : compileRules ⟨spec, library⟩ maxReferences rules .root 0 spec.caseless = .ok g.rules) :
    { spec with rules }.compile library = .ok g := by
  have hname := name_of_compile h
  have hcategory := category_of_compile h
  have hcompiles := compiles_of_compile h
  have hextends : Context.Extends ⟨spec, library⟩ ⟨{ spec with rules }, library⟩ :=
    ⟨rfl, fun _ _ hsource => hsource⟩
  have hwith : Compiles { spec with rules } library g :=
    { name := hcompiles.name
      aliases := hcompiles.aliases
      supersetOf := hcompiles.supersetOf
      caseless := hcompiles.caseless
      keywords := hcompiles.keywords
      word := hcompiles.word
      rules := hextends.compile.2 _ _ _ _ _ _ hrules
      scanner := hcompiles.scanner }
  exact compile_of_compiles hname hwith hcategory

theorem Inlines.compile_eq (inlines : Inlines library spec spec')
    (h : spec.compile library = .ok g) : spec'.compile library = .ok g := by
  cases inlines with
  | rule split inlines =>
    have hrules := (compiles_of_compile h).rules
    rw [split] at hrules
    exact compile_withRules h
      (compileRules_replace (fun _ _ hrule => inlines.compileRule_eq hrule) hrules)

/-- However many references are replaced, a grammar is compiled to the same. -/
theorem compile_inlined (inlined : Relation.ReflTransGen (Inlines library) spec spec')
    (h : spec.compile library = .ok g) : spec'.compile library = .ok g := by
  induction inlined with
  | refl => exact h
  | tail _ inlines ih => exact inlines.compile_eq ih

end GrammarSpec

section Completing

/-- Steps that may be made at each member of a list may be made at all of them. -/
theorem reflTransGen_of_forall₂ {α β : Type} {r : α → α → Prop} {t : β → β → Prop} (f : List α → β)
    (step : ∀ before behind a b, r a b → t (f (before ++ a :: behind)) (f (before ++ b :: behind)))
    {as bs : List α} (h : List.Forall₂ (Relation.ReflTransGen r) as bs) (before : List α) :
    Relation.ReflTransGen t (f (before ++ as)) (f (before ++ bs)) := by
  induction h generalizing before with
  | nil => exact .refl
  | @cons a b as bs hstep _ ih =>
    have hfirst : Relation.ReflTransGen t (f (before ++ a :: as)) (f (before ++ b :: as)) :=
      hstep.lift (fun a => f (before ++ a :: as)) fun a b hab => step before as a b hab
    have hrest := ih (before ++ [b])
    rw [List.append_assoc, List.append_assoc] at hrest
    exact hfirst.trans hrest

variable {ctx : Context}

/-- Rules that are compiled can be written without references. -/
theorem exists_complete_of_compile :
    (∀ references spec place inherited rule,
      compileRule ctx references spec place inherited = .ok rule →
        ∃ spec', Relation.ReflTransGen (RuleSpec.Inlines ctx.library) spec spec' ∧ spec'.Complete) ∧
    ∀ references specs place index inherited rules,
      compileRules ctx references specs place index inherited = .ok rules →
        ∃ specs', List.Forall₂ (Relation.ReflTransGen (RuleSpec.Inlines ctx.library)) specs specs' ∧
          ∀ spec ∈ specs', spec.Complete := by
  apply induct_of_compile ctx
    (fun _ spec _ _ _ =>
      ∃ spec', Relation.ReflTransGen (RuleSpec.Inlines ctx.library) spec spec' ∧ spec'.Complete)
    (fun _ specs _ _ _ _ =>
      ∃ specs', List.Forall₂ (Relation.ReflTransGen (RuleSpec.Inlines ctx.library)) specs specs' ∧
        ∀ spec ∈ specs', spec.Complete)
  case reference =>
    rintro references spec place inherited name target rule named bare found ⟨spec', hsteps, complete⟩
    exact ⟨spec', .head (.here named found) hsteps, complete⟩
  case own =>
    rintro references spec place inherited o inner scanner own ho hinner hscanner
      ⟨specs', hsteps, complete⟩
    have hlifted : Relation.ReflTransGen (RuleSpec.Inlines ctx.library) spec
        { spec with inner := specs' } := by
      have hinside := reflTransGen_of_forall₂ (t := RuleSpec.Inlines ctx.library)
        (fun inner => { spec with inner }) (fun before behind a b hab => .inner rfl hab) hsteps []
      cases spec
      exact hinside
    exact ⟨{ spec with inner := specs' }, hlifted, .intro own complete⟩
  case nil =>
    intro references place index inherited
    exact ⟨[], .nil, nofun⟩
  case cons =>
    rintro references place index inherited spec specs first rest ⟨spec', hfirst, hcomplete⟩
      ⟨specs', hrest, hcompletes⟩
    exact ⟨spec' :: specs', .cons hfirst hrest, List.forall_mem_cons.2 ⟨hcomplete, hcompletes⟩⟩

/-- A grammar that is compiled can be written without references. -/
theorem GrammarSpec.exists_complete {spec : GrammarSpec} {library : Library} {g : Grammar}
    (h : spec.compile library = .ok g) :
    ∃ spec', Relation.ReflTransGen (GrammarSpec.Inlines library) spec spec' ∧
      ∀ rule ∈ spec'.rules, rule.Complete := by
  obtain ⟨rules, hsteps, complete⟩ :=
    exists_complete_of_compile.2 _ _ _ _ _ _ (compiles_of_compile h).rules
  have hlifted : Relation.ReflTransGen (GrammarSpec.Inlines library) spec { spec with rules } :=
    reflTransGen_of_forall₂ (t := GrammarSpec.Inlines library) (fun rules => { spec with rules })
      (fun before behind a b hab => .rule rfl hab) hsteps []
  exact ⟨{ spec with rules }, hlifted, complete⟩

end Completing

end Highlighter
