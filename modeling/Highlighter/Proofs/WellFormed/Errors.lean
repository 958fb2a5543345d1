import Highlighter.Proofs.Compiled

/-!
What is reported of a grammar that is refused. Whatever step of compiling fails, the error names the
grammar; only that of an empty name cannot.
-/

namespace Highlighter

/-- The grammar that an error found in compiling is about. -/
def GrammarError.grammar? : GrammarError → Option String
  | undefinedFragment g _ | recursiveFragment g _ | undefinedRule g _ | malformedRule g _ _
  | invalidPattern g _ => some g
  | _ => none

namespace Compile

/-- Whatever error this comes to names the grammar. -/
def Blames {α : Type} (ctx : Context) (x : Except GrammarError α) : Prop :=
  ∀ e, x = .error e → e.grammar? = some ctx.name

namespace Blames

variable {α β : Type} {ctx : Context}

theorem ok (a : α) : Blames ctx (.ok a) := fun _ h => nomatch h

theorem error {e : GrammarError} (h : e.grammar? = some ctx.name) :
    Blames ctx (.error e : Except GrammarError α) := by
  rintro _ ⟨⟩
  exact h

theorem bind {x : Except GrammarError α} {f : α → Except GrammarError β} (hx : Blames ctx x)
    (hf : ∀ a, Blames ctx (f a)) : Blames ctx (x >>= f) := by
  cases x with
  | error e =>
    rintro _ ⟨⟩
    exact hx e rfl
  | ok a => exact hf a

theorem map {x : Except GrammarError α} (hx : Blames ctx x) (f : α → β) : Blames ctx (x.map f) := by
  cases x with
  | error e =>
    rintro _ ⟨⟩
    exact hx e rfl
  | ok a => exact .ok _

end Blames

variable {ctx : Context}

theorem blames_malformed {α : Type} (place : Place) (fault : RuleFault) :
    Blames ctx (ctx.malformed place fault : Except GrammarError α) := .error rfl

theorem blames_expand (pattern : String) : Blames ctx (ctx.expand pattern) := by
  unfold Context.expand
  simp only
  split
  · exact .ok _
  · exact .error rfl
  · exact .error rfl

theorem blames_check (pattern : String) (caseless : Bool) :
    Blames ctx (ctx.check pattern caseless) := by
  unfold Context.check
  split
  · exact .ok _
  · exact .error rfl

theorem blames_scanner (place : Place) (alternatives : List Alternative) :
    Blames ctx (ctx.scanner place alternatives) := by
  unfold Context.scanner
  split
  · exact .ok _
  · exact .error rfl

theorem blames_ending (spec : RuleSpec) (place : Place) : Blames ctx (ctx.ending spec place) := by
  unfold Context.ending
  split
  · exact blames_malformed place _
  · exact (blames_expand _).map _
  · exact .ok _
  · exact .ok _

theorem blames_closing (caseless : Bool) (ending : Ending) :
    Blames ctx (ctx.closing caseless ending) := by
  unfold Context.closing
  split
  · exact (blames_check _ _).map _
  · exact .ok _
  · exact .ok _

theorem blames_outline (spec : RuleSpec) (place : Place) (inherited : Bool) :
    Blames ctx (outline ctx spec place inherited) := by
  rw [outline_def]
  extract_lets caseless behind
  have hbehind : ∀ opening, Blames ctx (behind opening) := by
    intro opening
    dsimp only [behind]
    split
    · exact blames_malformed place _
    refine .bind (blames_ending spec place) fun ending => ?_
    split
    · exact blames_malformed place _
    split
    · exact blames_malformed place _
    exact .bind (blames_check _ _) fun _ => .bind (blames_closing _ _) fun _ => .ok _
  split
  · exact .bind (blames_expand _) hbehind
  · exact .bind (blames_malformed place _) hbehind

theorem blames_scopeScanner (o : Outline) (place : Place) (inner : List Rule) :
    Blames ctx (scopeScanner ctx o place inner) := by
  unfold scopeScanner
  split
  · exact .ok _
  · exact blames_scanner place _
  · exact blames_scanner place _

theorem blames_compile :
    (∀ references spec place inherited,
      Blames ctx (compileRule ctx references spec place inherited)) ∧
    ∀ references specs place index inherited,
      Blames ctx (compileRules ctx references specs place index inherited) := by
  apply compileRule.mutual_induct ctx
    (fun references spec place inherited =>
      Blames ctx (compileRule ctx references spec place inherited))
    (fun references specs place index inherited =>
      Blames ctx (compileRules ctx references specs place index inherited))
  case case1 =>
    intro references spec place inherited name hname hmixed
    rw [compileRule.eq_def]
    simp only [hname, hmixed, ↓reduceIte]
    exact blames_malformed place _
  case case2 =>
    intro spec place inherited name hname hbare
    rw [compileRule.eq_def]
    simp only [hname, hbare]
    exact blames_malformed place _
  case case3 =>
    intro spec place inherited name hname hbare references hnone
    rw [compileRule.eq_def]
    simp only [hname, hbare, hnone]
    exact .error rfl
  case case4 =>
    intro spec place inherited name hname hbare references target htarget ih
    rw [compileRule.eq_def]
    simp only [hname, hbare, htarget]
    exact ih
  case case5 =>
    intro references spec place inherited hnone ih
    rw [compileRule.eq_def]
    simp only [hnone]
    exact .bind (blames_outline spec place inherited) fun o =>
      .bind (ih o) fun inner => .bind (blames_scopeScanner o place inner) fun _ => .ok _
  case case6 =>
    intro references place index inherited
    rw [compileRules.eq_def]
    exact .ok _
  case case7 =>
    intro references place index inherited spec specs ihFirst ihRest
    rw [compileRules.eq_def]
    exact .bind ihFirst fun _ => .bind ihRest fun _ => .ok _

theorem blames_wordRegex : Blames ctx (wordRegex ctx) := by
  unfold wordRegex
  split
  · exact .ok _
  · refine .bind (blames_expand _) fun expanded => ?_
    split
    · exact .ok _
    · exact .error rfl

theorem blames_rootScanner (rules : List Rule) : Blames ctx (rootScanner ctx rules) := by
  have hillegal : Blames ctx (illegalAlternatives ctx) := by
    unfold illegalAlternatives
    split
    · exact .ok _
    · exact .bind (blames_expand _) fun _ => .bind (blames_check _ _) fun _ => .ok _
  exact .bind hillegal fun _ => blames_scanner .root _

end Compile

open Compile

/-- A grammar that is refused is named by the error, unless its name is empty. -/
theorem GrammarSpec.compile_eq_error {spec : GrammarSpec} {library : Library} {e : GrammarError}
    (h : spec.compile library = .error e) :
    ((Text.trim spec.name).isEmpty = true ∧ e = .emptyName) ∨ e.grammar? = some spec.name := by
  let ctx : Context := ⟨spec, library⟩
  unfold compile at h
  dsimp only at h
  split at h
  · rename_i hempty
    cases h
    exact .inl ⟨hempty, rfl⟩
  · refine .inr ?_
    split at h
    · refine (Blames.bind (.ok _) fun keywords => .bind blames_wordRegex fun word => ?_ :
        Blames ctx _) e h
      split
      · rename_i e he
        exact .error (blames_compile.2 _ _ _ _ _ e he)
      · split
        · rename_i e he
          exact .error (blames_rootScanner _ e he)
        · exact .ok _
    · cases h
      rfl

end Highlighter
