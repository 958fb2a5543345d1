import Highlighter.Proofs.Keywords
import Highlighter.Proofs.WellFormed.Compiling
import Highlighter.Proofs.WellFormed.Errors
import Mathlib.Data.List.TakeWhile

/-!
Grammars that can be compiled: just those that are well formed. What that is is told by the grammar as
written and by the library, part by part; no step of the compiler is mentioned.
-/

namespace Highlighter

namespace Text

/-- A text is nothing but white space. -/
theorem isEmpty_trim_iff {s : String} :
    (trim s).isEmpty = true ↔ ∀ c ∈ s.toList, isSpace c = true := by
  rw [trim, String.isEmpty_iff, String.ofList_eq_empty_iff, List.reverse_eq_nil_iff,
    List.dropWhile_eq_nil_iff]
  simp only [List.mem_reverse]
  have hsplit := List.takeWhile_append_dropWhile (p := isSpace) (l := s.toList)
  refine ⟨fun h c hc => ?_, fun h c hc => h c ((List.dropWhile_sublist _).subset hc)⟩
  rw [← hsplit, List.mem_append] at hc
  exact hc.elim List.mem_takeWhile_imp (h c)

theorem isEmpty_trim_eq_false_iff {s : String} :
    (trim s).isEmpty = false ↔ ∃ c ∈ s.toList, isSpace c = false := by
  rw [← Bool.not_eq_true, isEmpty_trim_iff]
  simp

end Text

namespace Compile

variable {ctx : Context}

namespace Context

/-- A grammar that can be compiled. -/
structure WellFormed (ctx : Context) : Prop where
  /-- The name is more than white space. -/
  name : ∃ c ∈ ctx.spec.name.toList, Text.isSpace c = false
  keywords : ∀ item ∈ ctx.spec.keywords, ∀ entry ∈ item.2.entries, Keyword.IsEntry entry
  /-- What splits text into words can be expanded and read. -/
  word : ∀ pattern, ctx.spec.wordPattern = some pattern →
    ∃ s, ctx.Expands pattern s ∧ (Regex.ofPattern? s).isSome = true
  /-- Every rule is sound, at any depth and through any references. -/
  rules : ∀ references inherited rule, ctx.Visits references inherited rule →
    ctx.Sound references inherited rule
  illegal : ∀ pattern, ctx.spec.illegal = some pattern → ctx.Reads ctx.spec.caseless pattern
  /-- The openings of the rules and what is illegal can be read together. -/
  scanner : ctx.Scannable ctx.spec.caseless ctx.spec.rules ctx.spec.illegal .illegal

/-- The patterns of a grammar that are expanded, those of the rules that compiling comes to included. -/
inductive Uses (ctx : Context) : String → Prop
  | word {pattern : String} (word : ctx.spec.wordPattern = some pattern) : Uses ctx pattern
  | illegal {pattern : String} (illegal : ctx.spec.illegal = some pattern) : Uses ctx pattern
  | opening {references : Nat} {inherited : Bool} {rule : RuleSpec} {pattern : String}
      (visits : ctx.Visits references inherited rule) (own : rule.reference = none)
      (opening : rule.opening = some pattern) : Uses ctx pattern
  | closing {references : Nat} {inherited : Bool} {rule : RuleSpec} {pattern : String}
      (visits : ctx.Visits references inherited rule) (own : rule.reference = none)
      (closing : rule.closing = some pattern) : Uses ctx pattern

/-- All patterns of a well-formed grammar can be expanded. -/
theorem WellFormed.exists_expands (h : ctx.WellFormed) {pattern : String} (uses : ctx.Uses pattern) :
    ∃ s, ctx.Expands pattern s := by
  cases uses with
  | word word => exact (h.word pattern word).imp fun _ hs => hs.1
  | illegal illegal => exact (h.illegal pattern illegal).imp fun _ hs => hs.1
  | opening visits own opening =>
    obtain ⟨pattern', s, hopening, hexpands, -⟩ := ((h.rules _ _ _ visits).of_own own).opening
    cases opening.symm.trans hopening
    exact ⟨s, hexpands⟩
  | closing visits own closing =>
    exact (((h.rules _ _ _ visits).of_own own).closing pattern closing).imp fun _ hs => hs.1

end Context

theorem exists_wordRegex_iff : (∃ r, wordRegex ctx = .ok r) ↔
    ∀ pattern, ctx.spec.wordPattern = some pattern →
      ∃ s, ctx.Expands pattern s ∧ (Regex.ofPattern? s).isSome = true := by
  unfold wordRegex
  cases ctx.spec.wordPattern with
  | none => simp
  | some pattern =>
    simp only [← Context.expand_eq_ok_iff, Option.some.injEq, forall_eq']
    cases hexpand : ctx.expand pattern with
    | error e => simp [bind, Except.bind]
    | ok s => cases hread : Regex.ofPattern? s <;> simp [hread, bind, Except.bind, pure, Except.pure]

/-- What is illegal is looked for if it can be expanded and read. -/
theorem illegalAlternatives_eq_ok_iff {alternatives : List Alternative} :
    illegalAlternatives ctx = .ok alternatives ↔
      (∀ pattern, ctx.spec.illegal = some pattern → ctx.Reads ctx.spec.caseless pattern) ∧
        ∃ text, Option.Rel ctx.Expands ctx.spec.illegal text ∧
          alternatives = text.toList.map (⟨·, ctx.spec.caseless, .illegal⟩) := by
  unfold illegalAlternatives
  cases ctx.spec.illegal with
  | none =>
    constructor
    · rintro h
      cases h
      exact ⟨nofun, none, .none, rfl⟩
    · rintro ⟨-, _, ⟨⟩, rfl⟩
      rfl
  | some pattern =>
    constructor
    · intro h
      obtain ⟨s, hexpand, h⟩ := bind_eq_ok h
      obtain ⟨r, hcheck, h⟩ := bind_eq_ok h
      cases h
      have hexpands := Context.expand_eq_ok_iff.1 hexpand
      refine ⟨fun pattern' hpattern => ?_, some s, .some hexpands, rfl⟩
      cases hpattern
      exact ⟨s, hexpands, Context.exists_check_iff.1 ⟨r, hcheck⟩⟩
    · rintro ⟨reads, _, ⟨hexpands⟩, rfl⟩
      obtain ⟨s, hexpands', hread⟩ := reads pattern rfl
      obtain ⟨r, hcheck⟩ : ∃ r, ctx.check s ctx.spec.caseless = .ok r :=
        Context.exists_check_iff.2 hread
      cases hexpands.unique hexpands'
      simp only [Context.expand_eq_ok_iff.2 hexpands, hcheck, bind, Except.bind]
      rfl

theorem exists_rootScanner_iff {rules : List Rule}
    (h : compileRules ctx maxReferences ctx.spec.rules .root 0 ctx.spec.caseless = .ok rules) :
    (∃ s, rootScanner ctx rules = .ok s) ↔
      (∀ pattern, ctx.spec.illegal = some pattern → ctx.Reads ctx.spec.caseless pattern) ∧
        ctx.Scannable ctx.spec.caseless ctx.spec.rules ctx.spec.illegal .illegal := by
  constructor
  · rintro ⟨s, hs⟩
    obtain ⟨alternatives, hillegal, hs⟩ := bind_eq_ok hs
    obtain ⟨reads, text, expands, rfl⟩ := illegalAlternatives_eq_ok_iff.1 hillegal
    exact ⟨reads, (scannable_iff h expands).2 (Context.exists_scanner_iff.1 ⟨s, hs⟩)⟩
  · rintro ⟨reads, scannable⟩
    have ⟨_, text, _, expands, _⟩ := scannable
    obtain ⟨s, hs⟩ : ∃ s, ctx.scanner .root (openings rules ++
        text.toList.map (⟨·, ctx.spec.caseless, .illegal⟩)) = .ok s :=
      Context.exists_scanner_iff.2 ((scannable_iff h expands).1 scannable)
    have hillegal := illegalAlternatives_eq_ok_iff.2 ⟨reads, text, expands, rfl⟩
    refine ⟨s, ?_⟩
    unfold rootScanner
    rw [hillegal]
    exact hs

theorem name_of_compile {spec : GrammarSpec} {library : Library} {g : Grammar}
    (h : spec.compile library = .ok g) : (Text.trim spec.name).isEmpty = false := by
  unfold GrammarSpec.compile at h
  dsimp only at h
  split at h
  · cases h
  · rename_i hname
    exact Bool.eq_false_iff.2 hname

end Compile

open Compile

/-- A grammar can be compiled just if it is well formed. -/
theorem GrammarSpec.exists_compile_iff {spec : GrammarSpec} {library : Library} :
    (∃ g, spec.compile library = .ok g) ↔ Context.WellFormed ⟨spec, library⟩ := by
  constructor
  · rintro ⟨g, hg⟩
    have hcompiles := compiles_of_compile hg
    obtain ⟨hillegal, hscanner⟩ := (exists_rootScanner_iff hcompiles.rules).1 ⟨_, hcompiles.scanner⟩
    exact
      { name := Text.isEmpty_trim_eq_false_iff.1 (name_of_compile hg)
        keywords := KeywordTable.exists_ofLists_iff.1 ⟨_, hcompiles.keywords⟩
        word := exists_wordRegex_iff.1 ⟨_, hcompiles.word⟩
        rules := exists_compileRules_iff.1 ⟨_, hcompiles.rules⟩
        illegal := hillegal
        scanner := hscanner }
  · intro h
    obtain ⟨keywords, hkeywords⟩ := KeywordTable.exists_ofLists_iff.2 h.keywords
    obtain ⟨word, hword⟩ := exists_wordRegex_iff.2 h.word
    obtain ⟨rules, hrules⟩ := exists_compileRules_iff.2 h.rules
    obtain ⟨scanner, hscanner⟩ := (exists_rootScanner_iff hrules).2 ⟨h.illegal, h.scanner⟩
    have hname := Text.isEmpty_trim_eq_false_iff.2 h.name
    obtain ⟨g, hg, -⟩ := exists_compile hname hkeywords hword hrules hscanner
    exact ⟨g, hg⟩

namespace GrammarSpec

theorem exists_error_iff {spec : GrammarSpec} {library : Library} :
    (∃ e, spec.compile library = .error e) ↔ ¬ ∃ g, spec.compile library = .ok g := by
  cases spec.compile library <;> simp

/-- A grammar can be compiled just if it is well formed. In particular it is refused if it leads to a
rule of the library that leads back to itself, or if one of its patterns leads into a circle of
fragments. A grammar that is refused is named by the error, unless its name is empty. -/
theorem compiles_iff_wellFormed (spec : GrammarSpec) (library : Library) :
    ((∃ g, spec.compile library = .ok g) ↔ Context.WellFormed ⟨spec, library⟩) ∧
    (∀ references inherited rule name, Context.Visits ⟨spec, library⟩ references inherited rule →
      rule.reference = some name → Relation.TransGen library.Includes name name →
        ∃ e, spec.compile library = .error e) ∧
    (∀ pattern, Context.Uses ⟨spec, library⟩ pattern →
      Fragment.Circular (Context.source? ⟨spec, library⟩) pattern →
        ∃ e, spec.compile library = .error e) ∧
    ∀ e, spec.compile library = .error e →
      (∀ c ∈ spec.name.toList, Text.isSpace c = true) ∧ e = .emptyName ∨
        e.grammar? = some spec.name := by
  refine ⟨exists_compile_iff, fun references inherited rule name visits named circle => ?_,
    fun pattern uses circular => ?_, fun e he => ?_⟩
  · refine exists_error_iff.2 fun compiles => ?_
    exact not_circle_of_sound (exists_compile_iff.1 compiles).rules visits named circle
  · refine exists_error_iff.2 fun compiles => ?_
    obtain ⟨s, hexpands⟩ := (exists_compile_iff.1 compiles).exists_expands uses
    exact hexpands.not_circular circular
  · rcases compile_eq_error he with ⟨hempty, rfl⟩ | hnamed
    · exact .inl ⟨Text.isEmpty_trim_iff.1 hempty, rfl⟩
    · exact .inr hnamed

/-- Two rules of a library that refer to each other, and two fragments of a grammar. -/
theorem circles_refused :
    let library : Library := { rules := [("a", .ofReference "b"), ("b", .ofReference "a")] }
    let rules : GrammarSpec := { name := "rules", rules := [.ofReference "a"] }
    let fragments : GrammarSpec :=
      { name := "fragments"
        fragments := [("x", .pattern "(\x7b\x7by\x7d\x7d)"), ("y", .pattern "\x7b\x7bx\x7d\x7d+")]
        illegal := some "#\x7b\x7bx\x7d\x7d" }
    (∃ e, rules.compile library = .error e) ∧ ∃ e, fragments.compile library = .error e := by
  intro library rules fragments
  constructor
  · have forth : library.Includes "a" "b" := ⟨.ofReference "b", .ofReference "b", rfl, .self, rfl⟩
    have back : library.Includes "b" "a" := ⟨.ofReference "a", .ofReference "a", rfl, .self, rfl⟩
    exact (compiles_iff_wellFormed rules library).2.1 0 false (.ofReference "a") "a"
      (.root List.mem_cons_self) rfl (.tail (.single forth) back)
  · let source? := Context.source? ⟨fragments, library⟩
    have forth : Fragment.Refers source? "x" "y" := ⟨_, rfl, by decide +kernel⟩
    have back : Fragment.Refers source? "y" "x" := ⟨_, rfl, by decide +kernel⟩
    exact (compiles_iff_wellFormed fragments library).2.2.1 _ (.illegal rfl)
      ⟨"x", "x", by decide +kernel, .refl, .tail (.single forth) back⟩

end GrammarSpec

end Highlighter
