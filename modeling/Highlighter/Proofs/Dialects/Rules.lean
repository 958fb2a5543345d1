import Highlighter.Grammar.Bundled
import Highlighter.Proofs.Candidates
import Highlighter.Proofs.Extending

/-!
The rules of the bundled grammars. The grammars are dialects: they differ in how functions are
spelled and in the name of the language itself, and their rules compile to the same but for these.
-/

namespace Highlighter

/-- Whether the opening of a rule can be looked for together with others. -/
def Rule.joins (rule : Rule) : Bool := Alternative.joins ⟨rule.opening, rule.caseless, .rule 0⟩

namespace Compile

theorem joins_openings {rules : List Rule} (h : ∀ rule ∈ rules, rule.joins = true) :
    ∀ a ∈ openings rules, a.joins = true := by
  intro a ha
  obtain ⟨i, hi, rfl⟩ := List.mem_mapIdx.1 ha
  exact h _ (List.getElem_mem hi)

theorem exists_check (ctx : Context) {a : Alternative} (h : a.joins = true) :
    ∃ r, ctx.check a.pattern a.caseless = .ok r := by
  obtain ⟨p, hp, hdepth⟩ := Alternative.joins_iff.1 h
  exact ⟨_, by rw [Context.check, (Alternative.regex_eq_of_piece? hp hdepth).1]⟩

/-- Whether the patterns of a rule can be looked for together with others. -/
def Outline.joins (o : Outline) : Bool :=
  Alternative.joins ⟨o.opening, o.caseless, .rule 0⟩ &&
    match o.ending with
    | .pattern source => Alternative.joins ⟨source, o.caseless, .closing⟩
    | .single | .asOpened => true

theorem exists_scopeScanner (ctx : Context) {o : Outline} {inner : List Rule} (place : Place)
    (ho : o.joins = true) (hinner : ∀ rule ∈ inner, rule.joins = true) :
    ∃ s, scopeScanner ctx o place inner = .ok s := by
  have hbuild : ∀ alternatives : List Alternative, (∀ a ∈ alternatives, a.joins = true) →
      ∃ s, ctx.scanner place alternatives = .ok s := by
    intro alternatives h
    obtain ⟨s, hs⟩ := Option.isSome_iff_exists.1 (Alternative.isSome_build? h)
    exact ⟨s, by rw [Context.scanner, hs]⟩
  unfold Outline.joins at ho
  unfold scopeScanner
  split
  · exact ⟨_, rfl⟩
  · rename_i source hending
    rw [hending, Bool.and_eq_true] at ho
    refine hbuild _ fun a ha => ?_
    rcases List.mem_append.1 ha with ha | ha
    · exact joins_openings hinner a ha
    · cases List.mem_singleton.1 ha
      exact ho.2
  · exact hbuild _ (joins_openings hinner)

/-- Whether a rule can be compiled, names no language, and can be looked for together with others,
where what it consists of or refers to is gone through down to some depth. -/
def accepts (ctx : Context) : Nat → RuleSpec → Place → Bool → Bool
  | 0, _, _, _ => false
  | depth + 1, spec, place, inherited =>
    match spec.reference with
    | some name =>
      spec.isBareReference && (ctx.library.rule? name).any (accepts ctx depth · place inherited)
    | none =>
      spec.language.isNone && (outline ctx spec place inherited).toOption.any fun o =>
        o.joins && (spec.inner.zipIdx).all fun (child, i) =>
          accepts ctx depth child (place.child i) o.caseless

/-- A rule that names no language and can be looked for together with others. -/
structure Plain (rule : Rule) : Prop where
  joins : rule.joins = true
  languages : rule.languages = []

theorem languagesOf_eq_nil {rules : List Rule} (h : ∀ rule ∈ rules, rule.languages = []) :
    Rule.languagesOf rules = [] := by
  induction rules with
  | nil => rfl
  | cons rule rules ih =>
    obtain ⟨hrule, hrules⟩ := List.forall_mem_cons.1 h
    rw [Rule.languagesOf, hrule, ih hrules]
    rfl

theorem exists_of_accepts_all {ctx : Context} {depth references : Nat}
    (h : ∀ {spec place inherited}, accepts ctx depth spec place inherited = true →
      ∃ rule, compileRule ctx references spec place inherited = .ok rule ∧ Plain rule)
    {specs : List RuleSpec} {place : Place} {index : Nat} {inherited : Bool}
    (hspecs : (specs.zipIdx index).all (fun (spec, i) =>
      accepts ctx depth spec (place.child i) inherited) = true) :
    ∃ rules, compileRules ctx references specs place index inherited = .ok rules ∧
      ∀ rule ∈ rules, Plain rule := by
  induction specs generalizing index with
  | nil => exact ⟨[], compileRules_nil .., nofun⟩
  | cons spec specs ih =>
    rw [List.zipIdx_cons, List.all_cons, Bool.and_eq_true] at hspecs
    obtain ⟨rule, hrule, hplain⟩ := h hspecs.1
    obtain ⟨rules, hrules, hall⟩ := ih hspecs.2
    exact ⟨rule :: rules, compileRules_eq hrule hrules, List.forall_mem_cons.2 ⟨hplain, hall⟩⟩

theorem exists_of_accepts {ctx : Context} {depth references : Nat} {spec : RuleSpec} {place : Place}
    {inherited : Bool} (hdepth : depth ≤ references)
    (h : accepts ctx depth spec place inherited = true) :
    ∃ rule, compileRule ctx references spec place inherited = .ok rule ∧ Plain rule := by
  induction depth generalizing references spec place inherited with
  | zero => cases h
  | succ depth ih =>
    unfold accepts at h
    cases href : spec.reference with
    | some name =>
      simp only [href, Bool.and_eq_true, Option.any_eq_true] at h
      obtain ⟨hbare, target, htarget, haccepts⟩ := h
      obtain ⟨references, rfl⟩ := Nat.exists_eq_add_of_le' (Nat.le_trans (Nat.succ_pos depth) hdepth)
      obtain ⟨rule, hrule, hplain⟩ := ih (Nat.le_of_succ_le_succ hdepth) haccepts
      exact ⟨rule, (compileRule_reference_eq_ok_iff href).2
        ⟨hbare, references, target, rfl, htarget, hrule⟩, hplain⟩
    | none =>
      simp only [href, Bool.and_eq_true, Option.any_eq_true, Option.isNone_iff_eq_none] at h
      obtain ⟨hlanguage, o, ho, hjoins, hinner⟩ := h
      obtain ⟨inner, hinner, hplain⟩ :=
        exists_of_accepts_all (fun h => ih (Nat.le_of_succ_le hdepth) h) hinner
      obtain ⟨scanner, hscanner⟩ :=
        exists_scopeScanner ctx place hjoins fun rule hrule => (hplain rule hrule).joins
      refine ⟨_, compileRule_eq href (eq_ok_of_toOption ho) hinner hscanner, ?_, ?_⟩
      · exact (Bool.and_eq_true_iff.1 hjoins).1
      · rw [Outline.rule, Rule.languages, hlanguage,
          languagesOf_eq_nil fun rule hrule => (hplain rule hrule).languages]
        rfl

end Compile

namespace Bundled

open Compile Fragment

/-- A grammar with the types of the dialects and nothing else. -/
def base : Compile.Context where
  spec := { name := "", fragments := [("types", .pattern (anyOf types))] }
  library := .standard

/-- A dialect, compiled against the standard library. -/
def context (name byname : String) (functions : List String) : Compile.Context :=
  ⟨dialect name byname functions, .standard⟩

theorem extends_base (name byname : String) (functions : List String) :
    base.Extends (context name byname functions) where
  library_eq := rfl
  source := by
    intro fragment s hs
    by_cases hname : fragment = "functions"
    · have hnone : base.source? "functions" = none := by decide +kernel
      rw [hname, hnone] at hs
      cases hs
    · have hskip : (context name byname functions).spec.fragment? fragment =
          base.spec.fragment? fragment := by
        have hne : (fragment == "functions") = false := beq_eq_false_iff_ne.2 hname
        simp only [context, dialect, base, GrammarSpec.fragment?, List.lookup_cons, hne]
        rfl
      rw [Context.source?, hskip]
      exact hs

theorem isWord_types : ∀ w ∈ types, IsWord w := by
  have hall : types.all (fun w => w.toList.all isNameChar) = true := by decide +kernel
  intro w hw
  exact List.all_eq_true.1 (List.all_eq_true.1 hall w hw)

/-- The rule for calls of functions. -/
def callSpec : RuleSpec where
  label := some .builtIn
  opening := some "\\b(\x7b\x7bfunctions\x7d\x7d)\\s*\\("
  closing := some "\\)"

/-- The rule for the names of types. -/
def typesSpec : RuleSpec where
  label := some .typeName
  opening := some "\\b(\x7b\x7btypes\x7d\x7d)\\b"

/-- The rule for what stands between dollar tags. -/
def dollarSpec (language : String) : RuleSpec where
  label := some .string
  opening := some "\x7b\x7bdollar_tag\x7d\x7d"
  closesAsOpened := true
  language := some language

theorem rules_eq (language : String) :
    rules language = callSpec :: typesSpec :: .ofReference "single_quoted_string" ::
      dollarSpec language :: (rules language).drop 4 := rfl

/-- The rules of a dialect, but for how functions are spelled and for the name of the language. -/
structure Shared where
  call : Rule
  types : Rule
  quoted : Rule
  dollar : Rule
  rest : List Rule

/-- The rules of a dialect. -/
def Shared.rules (shared : Shared) (opening language : String) : List Rule :=
  { shared.call with opening } :: shared.types :: shared.quoted ::
    { shared.dollar with language := some language } :: shared.rest

theorem expand_call (name byname : String) {ws : List String} (h : ∀ w ∈ ws, IsWord w) :
    (context name byname ws).expand "\\b(\x7b\x7bfunctions\x7d\x7d)\\s*\\(" =
      .ok (Alternative.callOpening ws) := by
  refine Context.expand_eq_ok.2 (expand_reference "functions" (by decide +kernel) ?_
    (expand_eq _ (brace_notMem_anyOf h)))
  rw [Context.source?, ← toPattern_words h]
  rfl

theorem expand_types : base.expand "\\b(\x7b\x7btypes\x7d\x7d)\\b" =
    .ok (Alternative.wordsOpening types) :=
  Context.expand_eq_ok.2 (expand_reference "types" (by decide +kernel) rfl
    (expand_eq _ (brace_notMem_anyOf isWord_types)))

theorem exists_call : ∃ call : Rule, call.inner = [] ∧ call.language = none ∧ call.caseless = true ∧
    ∀ name byname ws place references, ws ≠ [] → (∀ w ∈ ws, IsWord w) →
      compileRule (context name byname ws) references callSpec place true =
        .ok { call with opening := Alternative.callOpening ws } := by
  obtain ⟨r, hr⟩ : ∃ r, Regex.ofRulePattern? "\\)" true = some r :=
    Option.isSome_iff_exists.1 (by decide +kernel)
  obtain ⟨s, hs⟩ : ∃ s, Scanner.build? [⟨"\\)", true, .closing⟩] = some s :=
    Option.isSome_iff_exists.1 (by decide +kernel)
  refine ⟨(⟨"", .pattern "\\)", true, some r⟩ : Outline).rule callSpec [] s, rfl, rfl, rfl, ?_⟩
  intro name byname ws place references hne hws
  have hending : (context name byname ws).expand "\\)" = .ok "\\)" :=
    Context.expand_eq_ok.2 (expand_eq _ (by decide +kernel))
  have ho : outline (context name byname ws) callSpec place true =
      .ok ⟨Alternative.callOpening ws, .pattern "\\)", true, some r⟩ := by
    have hcheck := exists_check (context name byname ws) (Alternative.joins_call hne hws (.rule 0))
    refine outline_eq_ok.2
      ⟨⟨_, rfl, expand_call name byname hws⟩, Alternative.isEmpty_callOpening ws, ?_, nofun, rfl,
        hcheck, ?_⟩
    · rw [Context.ending, callSpec]
      simp only [hending]
      rfl
    · simp only [Context.closing, Context.check, hr]
      rfl
  have hscanner : scopeScanner (context name byname ws)
      ⟨Alternative.callOpening ws, .pattern "\\)", true, some r⟩ place [] = .ok s := by
    simp only [scopeScanner, openings, List.mapIdx_nil, List.nil_append, Context.scanner, hs]
  exact compileRule_eq rfl ho (compileRules_nil ..) hscanner

theorem exists_types (place : Place) (references : Nat) :
    ∃ types : Rule, compileRule base references typesSpec place true = .ok types ∧ Plain types := by
  obtain ⟨opening, hexpand, hempty, hjoins⟩ : ∃ opening,
      base.expand "\\b(\x7b\x7btypes\x7d\x7d)\\b" = .ok opening ∧ opening.isEmpty = false ∧
        Alternative.joins ⟨opening, true, .rule 0⟩ = true :=
    ⟨_, expand_types, Alternative.isEmpty_wordsOpening types,
      Alternative.joins_words (List.cons_ne_nil _ _) isWord_types (.rule 0)⟩
  have hcheck := exists_check base hjoins
  have ho : outline base typesSpec place true = .ok ⟨opening, .single, true, none⟩ := by
    refine outline_eq_ok.2 ⟨⟨_, rfl, hexpand⟩, hempty, rfl, fun _ => ⟨rfl, rfl⟩, rfl, hcheck, rfl⟩
  exact ⟨_, compileRule_eq rfl ho (compileRules_nil ..) rfl, hjoins, rfl⟩

theorem exists_dollar (place : Place) (references : Nat)
    (h : (outline base (dollarSpec "") place true).toOption.any Outline.joins = true) :
    ∃ dollar : Rule, dollar.joins = true ∧ dollar.inner = [] ∧ ∀ language,
      compileRule base references (dollarSpec language) place true =
        .ok { dollar with language := some language } := by
  obtain ⟨o, ho, hjoins⟩ := (Option.any_eq_true ..).1 h
  have hof := outline_eq_ok.1 (eq_ok_of_toOption ho)
  have hending : o.ending = .asOpened := (Except.ok.inj hof.ending).symm
  refine ⟨o.rule (dollarSpec "") [] .none, ?_, rfl, fun language => ?_⟩
  · exact (Bool.and_eq_true_iff.1 hjoins).1
  · have ho' : outline base (dollarSpec language) place true = .ok o := by
      refine outline_eq_ok.2 { hof with single := ?_ }
      rw [hending]
      nofun
    refine compileRule_eq rfl ho' (compileRules_nil ..) ?_
    rw [scopeScanner, hending]
    rfl

/-- What is the same in all dialects names no language of its own, and the openings of its rules can
be looked for together. -/
structure Shared.Fit (shared : Shared) : Prop where
  call : shared.call.inner = [] ∧ shared.call.language = none ∧ shared.call.caseless = true
  types : Plain shared.types
  quoted : Plain shared.quoted
  dollar : shared.dollar.inner = [] ∧ shared.dollar.joins = true
  rest : ∀ rule ∈ shared.rest, Plain rule

/-- The rules of all dialects are compiled to the same, but for the opening of calls and for the name
of the language. -/
theorem exists_shared : ∃ shared : Shared, shared.Fit ∧
    ∀ name byname ws, ws ≠ [] → (∀ w ∈ ws, IsWord w) →
      compileRules (context name byname ws) maxReferences (rules byname) .root 0 true =
        .ok (shared.rules (Alternative.callOpening ws) byname) := by
  obtain ⟨call, hinner, hlanguage, hcaseless, hcall⟩ := exists_call
  obtain ⟨types, htypes, hplain⟩ := exists_types (Place.root.child 1) maxReferences
  obtain ⟨dollar, hjoins, hempty, hdollar⟩ :=
    exists_dollar (Place.root.child 3) maxReferences (by decide +kernel)
  obtain ⟨quoted, hquoted, hquotedPlain⟩ : ∃ quoted, compileRule base maxReferences
      (.ofReference "single_quoted_string") (Place.root.child 2) true = .ok quoted ∧ Plain quoted :=
    exists_of_accepts (by decide : 3 ≤ maxReferences) (by decide +kernel)
  obtain ⟨rest, hrest, hrestPlain⟩ : ∃ rest, compileRules base maxReferences
      ((rules "").drop 4) .root 4 true = .ok rest ∧ ∀ rule ∈ rest, Plain rule :=
    exists_of_accepts_all (fun h => exists_of_accepts (by decide : 3 ≤ maxReferences) h)
      (by decide +kernel)
  refine ⟨⟨call, types, quoted, dollar, rest⟩,
    ⟨⟨hinner, hlanguage, hcaseless⟩, hplain, hquotedPlain, ⟨hempty, hjoins⟩, hrestPlain⟩, ?_⟩
  intro name byname ws hne hws
  have hextends := (extends_base name byname ws).compile
  rw [rules_eq]
  refine compileRules_eq (hcall name byname ws _ _ hne hws) ?_
  refine compileRules_eq (hextends.1 _ _ _ _ _ htypes) ?_
  refine compileRules_eq (hextends.1 _ _ _ _ _ hquoted) ?_
  refine compileRules_eq (hextends.1 _ _ _ _ _ (hdollar byname)) ?_
  exact hextends.2 _ _ _ _ _ _ hrest

end Bundled

end Highlighter
