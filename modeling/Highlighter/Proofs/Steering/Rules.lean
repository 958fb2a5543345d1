import Highlighter.Proofs.Compiled
import Highlighter.Proofs.Twins.Region
import Highlighter.Grammar.Registry

/-!
What steers the search in a grammar: the patterns of its rules, how they end, whether case matters
and which languages they name, in what order and how nested, and the illegal pattern. From these
compiling builds the scanners, so grammars that agree in them search alike, whatever their kinds,
their scores and their keywords are.
-/

namespace Highlighter

/-- Rules that agree in what steers the search, and so do the rules inside them, one by one. They
may differ in kind and relevance, and in whether their ends are inside their scopes. -/
inductive Rule.SamePatterns : Rule → Rule → Prop
  | intro {rule rule' : Rule} (opening : rule.opening = rule'.opening)
      (ending : rule.ending = rule'.ending) (caseless : rule.caseless = rule'.caseless)
      (language : rule.language = rule'.language) (length : rule.inner.length = rule'.inner.length)
      (inner : ∀ (i : Nat) (r r' : Rule), rule.inner[i]? = some r → rule'.inner[i]? = some r' →
        r.SamePatterns r') : rule.SamePatterns rule'

/-- A grammar that is compiled with this illegal pattern, if it has one. -/
def Grammar.CompiledWith (g : Grammar) (illegal : List Alternative) : Prop :=
  ∃ spec library, GrammarSpec.compile spec library = .ok g ∧
    Compile.illegalAlternatives ⟨spec, library⟩ = .ok illegal

/-- Compiled grammars that agree in what steers the search. They may differ in all that is said of
keywords, and their rules in what rules may differ in. -/
structure Grammar.SamePatterns (g g' : Grammar) : Prop where
  rules : ∀ i : Nat, Option.Rel Rule.SamePatterns g.rules[i]? g'.rules[i]?
  illegal : ∃ illegal, g.CompiledWith illegal ∧ g'.CompiledWith illegal

/-- Registries in which the same names stand for grammars that agree in what steers the search. -/
def Registry.SamePatterns (r r' : Registry) : Prop :=
  ∀ language, Option.Rel Grammar.SamePatterns (r.find? language) (r'.find? language)

/-- Rules whose scopes are searched alike, and so are the scopes of the rules inside them. -/
inductive Rule.SameSearch : Rule → Rule → Prop
  | intro {rule rule' : Rule} (ending : rule.ending = rule'.ending)
      (closing : rule.closing = rule'.closing) (language : rule.language = rule'.language)
      (scanner : rule.opensScope = true → rule.scanner = rule'.scanner)
      (length : rule.inner.length = rule'.inner.length)
      (inner : ∀ (i : Nat) (r r' : Rule), rule.inner[i]? = some r → rule'.inner[i]? = some r' →
        r.SameSearch r') : rule.SameSearch rule'

/-- Grammars in which texts are searched alike. -/
structure Grammar.SameSearch (g g' : Grammar) : Prop where
  rules : ∀ i : Nat, Option.Rel Rule.SameSearch g.rules[i]? g'.rules[i]?
  scanner : g.scanner = g'.scanner

/-- What is in a rule is in what the rule is in. -/
theorem Rule.Among.widen {rules : List Rule} {rule child : Rule} (h : Among [rule] child)
    (outer : Among rules rule) : Among rules child := by
  induction h with
  | top mem => exact List.mem_singleton.1 mem ▸ outer
  | inner _ mem ih => exact .inner ih mem

namespace Rule.SamePatterns

variable {rule rule' : Rule}

theorem opening_eq (h : rule.SamePatterns rule') : rule.opening = rule'.opening := by
  cases h with
  | intro opening => exact opening

theorem caseless_eq (h : rule.SamePatterns rule') : rule.caseless = rule'.caseless := by
  cases h with
  | intro _ _ caseless => exact caseless

theorem closers_eq (h : rule.SamePatterns rule') : rule.closers = rule'.closers := by
  cases h with
  | intro _ ending caseless =>
    unfold closers
    rw [ending, caseless]

theorem inner (h : rule.SamePatterns rule') (i : Nat) :
    Option.Rel SamePatterns rule.inner[i]? rule'.inner[i]? := by
  cases h with
  | intro _ _ _ _ length inner => exact rel_getElem? length inner i

end Rule.SamePatterns

theorem Rule.SameSearch.opensScope_eq {rule rule' : Rule} (h : rule.SameSearch rule') :
    rule.opensScope = rule'.opensScope := by
  cases h with
  | intro ending =>
    unfold Rule.opensScope
    rw [ending]

theorem Rule.SameSearch.language_eq {rule rule' : Rule} (h : rule.SameSearch rule') :
    rule.language = rule'.language := by
  cases h with
  | intro _ _ language => exact language

/-- A sound rule is searched as it is. -/
theorem Rule.Sound.sameSearch {rule : Rule} (h : rule.Sound) : rule.SameSearch rule := by
  induction h with
  | intro inner hits ih =>
    refine .intro rfl rfl rfl (fun _ => rfl) rfl fun i r r' hr hr' => ?_
    cases hr.symm.trans hr'
    exact ih r (List.mem_of_getElem? hr)

theorem Grammar.SameSearch.refl (g : Grammar) : g.SameSearch g where
  rules i := by
    cases hrule : g.rules[i]? with
    | none => exact .none
    | some rule => exact .some (g.rules_sound rule (List.mem_of_getElem? hrule)).sameSearch
  scanner := rfl

/-- Rules that agree make the same alternatives. -/
theorem openings_eq {rules rules' : List Rule}
    (h : ∀ i : Nat, Option.Rel Rule.SamePatterns rules[i]? rules'[i]?) :
    Compile.openings rules = Compile.openings rules' := by
  refine List.ext_getElem? fun i => ?_
  unfold Compile.openings
  have hi := h i
  rw [List.getElem?_mapIdx, List.getElem?_mapIdx]
  generalize rules[i]? = rule at hi
  generalize rules'[i]? = rule' at hi
  cases hi with
  | none => rfl
  | some hrule => simp [hrule.opening_eq, hrule.caseless_eq]

/-- Scanners are built from the patterns, so rules that agree have the same. -/
theorem Rule.SamePatterns.sameSearch {rule rule' : Rule} (h : rule.SamePatterns rule')
    (checked : ∀ r, Rule.Among [rule] r → r.Checked)
    (checked' : ∀ r, Rule.Among [rule'] r → r.Checked) : rule.SameSearch rule' := by
  induction h with
  | @intro rule rule' opening ending caseless language length inner ih =>
    have hsame : rule.SamePatterns rule' := .intro opening ending caseless language length inner
    have hrule := checked rule (.top (List.mem_singleton_self _))
    have hrule' := checked' rule' (.top (List.mem_singleton_self _))
    refine .intro ending ?_ language (fun opens => ?_) length fun i r r' hr hr' =>
      ih i r r' hr hr' (fun child hchild => checked child ?_) fun child hchild => checked' child ?_
    · rw [hrule.closing, hrule'.closing, hsame.closers_eq]
    · have hopens : rule'.opensScope = true := by
        unfold opensScope at opens ⊢
        rwa [← ending]
      have hbuild := hrule.scanner opens
      unfold alternatives at hbuild
      rw [openings_eq hsame.inner, hsame.closers_eq] at hbuild
      exact Option.some.inj (hbuild.symm.trans (hrule'.scanner hopens))
    · exact hchild.widen (.inner (.top (List.mem_singleton_self _)) (List.mem_of_getElem? hr))
    · exact hchild.widen (.inner (.top (List.mem_singleton_self _)) (List.mem_of_getElem? hr'))

theorem Grammar.SamePatterns.sameSearch {g g' : Grammar} (h : g.SamePatterns g') :
    g.SameSearch g' := by
  obtain ⟨illegal, ⟨spec, library, hg, hillegal⟩, ⟨spec', library', hg', hillegal'⟩⟩ := h.illegal
  have hcompiles := Compile.compiles_of_compile hg
  have hcompiles' := Compile.compiles_of_compile hg'
  constructor
  · intro i
    have hrules := h.rules i
    generalize hrule : g.rules[i]? = found at hrules
    generalize hrule' : g'.rules[i]? = found' at hrules
    cases hrules with
    | none => exact .none
    | some hsame =>
      refine .some (hsame.sameSearch (fun r hr => ?_) fun r hr => ?_)
      · exact Compile.checked_of_compile hcompiles.rules
          (hr.widen (.top (List.mem_of_getElem? hrule)))
      · exact Compile.checked_of_compile hcompiles'.rules
          (hr.widen (.top (List.mem_of_getElem? hrule')))
  · have hbuild := Compile.build?_of_rootScanner hcompiles.scanner hillegal
    rw [openings_eq h.rules] at hbuild
    exact Option.some.inj
      (hbuild.symm.trans (Compile.build?_of_rootScanner hcompiles'.scanner hillegal'))

end Highlighter
