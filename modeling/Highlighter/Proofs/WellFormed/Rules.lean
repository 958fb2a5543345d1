import Highlighter.Proofs.Compiled
import Highlighter.Proofs.WellFormed.Fragments
import Mathlib.Data.List.Forall2

/-!
Rules that can be compiled. Compiling comes to the rules of a grammar, to the rules inside them, and
through references to rules of the library and to the rules inside those. A rule is compiled just if
each rule that is come to is sound by itself, which for a reference includes that it is not the ninth
on the way. Rules that refer to one another in a circle are come to by any number of references, so
one of them is not sound.
-/

namespace Highlighter

namespace RuleSpec

/-- The case mode of a rule: its own, or else that of what it stands in. -/
def mode (rule : RuleSpec) (inherited : Bool) : Bool := rule.caseless.getD inherited

/-- The rules in a rule at any depth, and itself, as far as they are not to be found elsewhere. -/
inductive Within (top : RuleSpec) : RuleSpec → Prop
  | self : Within top top
  | inner {rule child : RuleSpec} (outer : Within top rule) (own : rule.reference = none)
      (mem : child ∈ rule.inner) : Within top child

theorem isBareReference_iff {rule : RuleSpec} {name : String} (h : rule.reference = some name) :
    rule.isBareReference = true ↔ rule = .ofReference name := by
  obtain ⟨⟩ := rule
  cases h
  simp [isBareReference, ofReference, and_assoc]

end RuleSpec

/-- One named rule refers to another, at any depth. -/
def Library.Includes (library : Library) (name name' : String) : Prop :=
  ∃ target rule, library.rule? name = some target ∧ target.Within rule ∧ rule.reference = some name'

/-- What is to be known of a rule where it stands: what opens it, and in which case mode. -/
structure Front where
  opening : String
  caseless : Bool

/-- The front of a compiled rule. -/
def Rule.front (rule : Rule) : Front := ⟨rule.opening, rule.caseless⟩

namespace Compile

namespace Context

variable (ctx : Context)

/-- What a pattern of the grammar expands to. -/
def Expands (pattern s : String) : Prop :=
  Fragment.Expands ctx.source? Fragment.maxNesting (Fragment.pieces pattern.toList) s

/-- A pattern that can be expanded, and read in a case mode. -/
def Reads (caseless : Bool) (pattern : String) : Prop :=
  ∃ s, ctx.Expands pattern s ∧ (Regex.ofRulePattern? s caseless).isSome = true

/-- The front of a rule as written: its own, or that of the rule it refers to. -/
inductive HasFront : Bool → RuleSpec → Front → Prop
  | own {inherited : Bool} {rule : RuleSpec} {pattern s : String} (own : rule.reference = none)
      (opening : rule.opening = some pattern) (expands : ctx.Expands pattern s) :
      HasFront inherited rule ⟨s, rule.mode inherited⟩
  | reference {inherited : Bool} {rule target : RuleSpec} {name : String} {front : Front}
      (named : rule.reference = some name) (found : ctx.library.rule? name = some target)
      (fronts : HasFront inherited target front) : HasFront inherited rule front

/-- The patterns that are looked for side by side can be read together: the openings of some rules,
in order, and behind them one other, if there is one. -/
def Scannable (caseless : Bool) (rules : List RuleSpec) (other : Option String) (hit : Hit) : Prop :=
  ∃ fronts text, List.Forall₂ (ctx.HasFront caseless) rules fronts ∧
    Option.Rel ctx.Expands other text ∧
    (Scanner.build? (fronts.mapIdx (fun i front => ⟨front.opening, front.caseless, .rule i⟩) ++
      text.toList.map (⟨·, caseless, hit⟩))).isSome = true

/-- A rule that is no reference, and sound but for the rules inside it. -/
structure Inline (inherited : Bool) (rule : RuleSpec) : Prop where
  /-- There is an opening; it is not empty, and can be read in the case mode of the rule. -/
  opening : ∃ pattern s, rule.opening = some pattern ∧ ctx.Expands pattern s ∧ s ≠ "" ∧
    (Regex.ofRulePattern? s (rule.mode inherited)).isSome = true
  /-- It is not closed in two ways. -/
  once : rule.closing.isSome = true → rule.closesAsOpened = false
  /-- Only what is closed has rules inside it or text in another language. -/
  closed : rule.inner ≠ [] ∨ rule.language.isSome = true →
    rule.closing.isSome = true ∨ rule.closesAsOpened = true
  closing : ∀ pattern, rule.closing = some pattern → ctx.Reads (rule.mode inherited) pattern
  scanner : ctx.Scannable (rule.mode inherited) rule.inner rule.closing .closing

/-- A rule that is sound where so many references have been followed: it refers to a rule of the
library and says nothing else, or it is a rule by itself. -/
inductive Sound (references : Nat) (inherited : Bool) (rule : RuleSpec) : Prop
  | reference {name : String} (bare : rule = .ofReference name) (room : references < 8)
      (found : (ctx.library.rule? name).isSome = true)
  | inline (own : rule.reference = none) (inline : ctx.Inline inherited rule)

/-- The rules that compiling comes to, each with how many references have been followed on the way and
with the case mode of what it stands in. -/
inductive Visits : Nat → Bool → RuleSpec → Prop
  | root {rule : RuleSpec} (mem : rule ∈ ctx.spec.rules) : Visits 0 ctx.spec.caseless rule
  | reference {references : Nat} {inherited : Bool} {rule target : RuleSpec} {name : String}
      (outer : Visits references inherited rule) (named : rule.reference = some name)
      (found : ctx.library.rule? name = some target) : Visits (references + 1) inherited target
  | inner {references : Nat} {inherited : Bool} {rule child : RuleSpec}
      (outer : Visits references inherited rule) (own : rule.reference = none)
      (mem : child ∈ rule.inner) : Visits references (rule.mode inherited) child

variable {ctx} {references : Nat} {inherited : Bool} {rule : RuleSpec}

theorem Sound.of_reference (h : ctx.Sound references inherited rule) {name : String}
    (named : rule.reference = some name) :
    rule = .ofReference name ∧ references < 8 ∧ (ctx.library.rule? name).isSome = true := by
  cases h with
  | reference bare room found =>
    subst bare
    cases named
    exact ⟨rfl, room, found⟩
  | inline own => cases own.symm.trans named

theorem Sound.of_own (h : ctx.Sound references inherited rule) (own : rule.reference = none) :
    ctx.Inline inherited rule := by
  cases h with
  | reference bare =>
    subst bare
    cases own
  | inline _ inline => exact inline

end Context

variable {ctx : Context}

section Circles

namespace Context.Visits

variable {references : Nat} {inherited : Bool} {rule : RuleSpec} {name name' : String}

theorem within {top : RuleSpec} (h : ctx.Visits references inherited top) (within : top.Within rule) :
    ∃ inherited', ctx.Visits references inherited' rule := by
  induction within with
  | self => exact ⟨inherited, h⟩
  | inner outer own mem ih =>
    obtain ⟨inherited', hvisits⟩ := ih
    exact ⟨_, hvisits.inner own mem⟩

theorem of_includes (h : ctx.Visits references inherited rule) (named : rule.reference = some name)
    (includes : ctx.library.Includes name name') : ∃ inherited' rule',
      ctx.Visits (references + 1) inherited' rule' ∧ rule'.reference = some name' := by
  obtain ⟨target, rule', hfound, hwithin, hnamed⟩ := includes
  obtain ⟨inherited', hvisits⟩ := (h.reference named hfound).within hwithin
  exact ⟨inherited', rule', hvisits, hnamed⟩

theorem of_transGen (h : ctx.Visits references inherited rule) (named : rule.reference = some name)
    (path : Relation.TransGen ctx.library.Includes name name') : ∃ more inherited' rule',
      references < more ∧ ctx.Visits more inherited' rule' ∧ rule'.reference = some name' := by
  induction path with
  | single includes =>
    obtain ⟨inherited', rule', hvisits, hnamed⟩ := h.of_includes named includes
    exact ⟨_, inherited', rule', Nat.lt_succ_self _, hvisits, hnamed⟩
  | tail path includes ih =>
    obtain ⟨more, inherited', rule', hlt, hvisits, hnamed⟩ := ih
    obtain ⟨inherited'', rule'', hvisits', hnamed'⟩ := hvisits.of_includes hnamed includes
    exact ⟨_, inherited'', rule'', Nat.lt_succ_of_lt hlt, hvisits', hnamed'⟩

/-- A rule in a circle is come to by any number of references. -/
theorem of_circle (h : ctx.Visits references inherited rule) (named : rule.reference = some name)
    (circle : Relation.TransGen ctx.library.Includes name name) (n : Nat) :
    ∃ more inherited' rule',
      n ≤ more ∧ ctx.Visits more inherited' rule' ∧ rule'.reference = some name := by
  induction n with
  | zero => exact ⟨references, inherited, rule, Nat.zero_le _, h, named⟩
  | succ n ih =>
    obtain ⟨more, inherited', rule', hle, hvisits, hnamed⟩ := ih
    obtain ⟨more', inherited'', rule'', hlt, hvisits', hnamed'⟩ := hvisits.of_transGen hnamed circle
    exact ⟨more', inherited'', rule'', Nat.lt_of_le_of_lt hle hlt, hvisits', hnamed'⟩

end Context.Visits

/-- Where every rule that is come to is sound, none is in a circle. -/
theorem not_circle_of_sound (sound : ∀ references inherited rule,
      ctx.Visits references inherited rule → ctx.Sound references inherited rule)
    {references : Nat} {inherited : Bool} {rule : RuleSpec} {name : String}
    (h : ctx.Visits references inherited rule) (named : rule.reference = some name) :
    ¬ Relation.TransGen ctx.library.Includes name name := by
  intro circle
  obtain ⟨more, inherited', rule', hle, hvisits, hnamed⟩ := h.of_circle named circle 8
  obtain ⟨-, room, -⟩ := (sound more inherited' rule' hvisits).of_reference hnamed
  omega

end Circles

end Compile

end Highlighter
