import Highlighter.Proofs.Compiled
import Highlighter.Proofs.Reading.Words

/-!
Grammars with more fragments. What a grammar compiles a rule to depends on its fragments only as far
as the patterns of the rule refer to them, so rules that can be compiled without some fragments are
compiled to the same with them.
-/

namespace Highlighter

namespace Fragment

theorem mapM_mono {ε α β : Type} {f g : α → Except ε β}
    (h : ∀ a b, f a = .ok b → g a = .ok b) {as : List α} {bs : List β}
    (hf : as.mapM f = .ok bs) : as.mapM g = .ok bs := by
  induction as generalizing bs with
  | nil => exact hf
  | cons a as ih =>
    rw [List.mapM_cons] at hf ⊢
    obtain ⟨b, hb, hf⟩ := Compile.bind_eq_ok hf
    obtain ⟨bs', hbs, hf⟩ := Compile.bind_eq_ok hf
    rw [h a b hb, ih hbs]
    exact hf

theorem map_eq_ok {ε α β : Type} {x : Except ε α} {f : α → β} {b : β} (h : x.map f = .ok b) :
    ∃ a, x = .ok a ∧ f a = b := by
  cases x with
  | error e => cases h
  | ok a => exact ⟨a, rfl, Except.ok.inj h⟩

/-- A pattern expands to the same where each of its pieces does. -/
theorem expand_mono_of_pieces {source? source?' : String → Option String} {nesting : Nat}
    (h : ∀ piece part, expandPiece source? nesting piece = .ok part →
      expandPiece source?' nesting piece = .ok part) {pattern s : String}
    (hs : expand source? nesting pattern = .ok s) : expand source?' nesting pattern = .ok s := by
  rw [expand_eq_mapM] at hs ⊢
  obtain ⟨parts, hparts, rfl⟩ := map_eq_ok hs
  rw [mapM_mono h hparts]
  rfl

/-- A pattern expands to the same where there are more fragments. -/
theorem expand_mono {source? source?' : String → Option String}
    (h : ∀ name s, source? name = some s → source?' name = some s) {nesting : Nat}
    {pattern s : String} (hs : expand source? nesting pattern = .ok s) :
    expand source?' nesting pattern = .ok s := by
  induction nesting generalizing pattern s with
  | zero =>
    refine expand_mono_of_pieces (fun piece part hpart => ?_) hs
    cases piece with
    | char c => exact hpart
    | reference name => cases hpart
  | succ nesting ih =>
    refine expand_mono_of_pieces (fun piece part hpart => ?_) hs
    cases piece with
    | char c => exact hpart
    | reference name =>
      unfold expandPiece at hpart ⊢
      cases hsource : source? name with
      | none => simp [hsource] at hpart
      | some source =>
        simp only [hsource] at hpart
        obtain ⟨inner, hinner, rfl⟩ := map_eq_ok hpart
        simp only [h name source hsource, ih hinner]
        rfl

end Fragment

namespace Compile

namespace Context

/-- The fragment with a name: the grammar's own, or else that of the library. -/
def source? (ctx : Context) (name : String) : Option String :=
  ((ctx.spec.fragment? name).map FragmentSpec.toPattern).or (ctx.library.fragment? name)

/-- A grammar with more fragments, compiled against the same library. -/
structure Extends (ctx ctx' : Context) : Prop where
  library_eq : ctx'.library = ctx.library
  source : ∀ name s, ctx.source? name = some s → ctx'.source? name = some s

variable {ctx ctx' : Context}

theorem expand_eq_ok {pattern s : String} :
    ctx.expand pattern = .ok s ↔ Fragment.expand ctx.source? Fragment.maxNesting pattern = .ok s := by
  have hsource : (fun name => ((ctx.spec.fragment? name).map FragmentSpec.toPattern).or
      (ctx.library.fragment? name)) = ctx.source? := rfl
  unfold expand Library.expand
  simp only [hsource]
  cases Fragment.expand ctx.source? Fragment.maxNesting pattern with
  | ok s' => simp
  | error fault => cases fault <;> simp

end Context

/-- Where the one comes to something, the other comes to the same. -/
def Carries {ε α : Type} (x y : Except ε α) : Prop := ∀ a, x = .ok a → y = .ok a

namespace Carries

variable {ε α β : Type}

theorem refl (x : Except ε α) : Carries x x := fun _ h => h

theorem of_error {e : ε} {y : Except ε α} : Carries (.error e) y := fun _ h => nomatch h

theorem map {x y : Except ε α} (h : Carries x y) (f : α → β) : Carries (x.map f) (y.map f) := by
  intro b hb
  obtain ⟨a, ha, rfl⟩ := Fragment.map_eq_ok hb
  rw [h a ha]
  rfl

end Carries

variable {ctx ctx' : Context}

theorem carries_check (pattern : String) (caseless : Bool) :
    Carries (ctx.check pattern caseless) (ctx'.check pattern caseless) := by
  intro r hr
  rw [Context.check, ofRulePattern?_of_check hr]

theorem carries_scanner (place : Place) (alternatives : List Alternative) :
    Carries (ctx.scanner place alternatives) (ctx'.scanner place alternatives) := by
  intro s hs
  rw [Context.scanner, build?_of_scanner hs]

theorem carries_scopeScanner (o : Outline) (place : Place) (inner : List Rule) :
    Carries (scopeScanner ctx o place inner) (scopeScanner ctx' o place inner) := by
  unfold scopeScanner
  split
  · exact .refl _
  · exact carries_scanner place _
  · exact carries_scanner place _

namespace Context.Extends

variable (h : ctx.Extends ctx')

include h

theorem expand (pattern : String) : Carries (ctx.expand pattern) (ctx'.expand pattern) := by
  intro s hs
  rw [expand_eq_ok] at hs ⊢
  exact Fragment.expand_mono h.source hs

theorem ending (spec : RuleSpec) (place : Place) :
    Carries (ctx.ending spec place) (ctx'.ending spec place) := by
  unfold Context.ending
  split
  · exact .of_error
  · exact (h.expand _).map _
  · exact .refl _
  · exact .refl _

theorem outline (spec : RuleSpec) (place : Place) (inherited : Bool) :
    Carries (outline ctx spec place inherited) (outline ctx' spec place inherited) := by
  intro o ho
  rw [outline_eq_ok] at ho ⊢
  obtain ⟨pattern, hopening, hexpand⟩ := ho.opening
  obtain ⟨r, hr⟩ := ho.check
  have hclosing : Carries (ctx.closing o.caseless o.ending) (ctx'.closing o.caseless o.ending) := by
    unfold Context.closing
    split
    · exact (carries_check _ _).map _
    · exact .refl _
    · exact .refl _
  exact {
    ho with
    opening := ⟨pattern, hopening, h.expand _ _ hexpand⟩
    ending := h.ending spec place _ ho.ending
    check := ⟨r, carries_check _ _ _ hr⟩
    closing := hclosing _ ho.closing }

/-- Rules compile to the same in a grammar with more fragments. -/
theorem compile :
    (∀ references spec place inherited, Carries (compileRule ctx references spec place inherited)
      (compileRule ctx' references spec place inherited)) ∧
    ∀ references specs place index inherited,
      Carries (compileRules ctx references specs place index inherited)
        (compileRules ctx' references specs place index inherited) := by
  refine induct_of_compile ctx
    (fun references spec place inherited rule =>
      compileRule ctx' references spec place inherited = .ok rule)
    (fun references specs place index inherited rules =>
      compileRules ctx' references specs place index inherited = .ok rules) ?reference ?own ?nil
    compileRules_eq
  case reference =>
    intro references spec place inherited name target rule named bare found ih
    exact (compileRule_reference_eq_ok_iff named).2
      ⟨bare, references, target, rfl, h.library_eq ▸ found, ih⟩
  case own =>
    intro references spec place inherited o inner scanner own ho _ hscanner ih
    exact compileRule_eq own (h.outline spec place inherited o ho) ih
      (carries_scopeScanner o place inner scanner hscanner)
  case nil => exact compileRules_nil ctx' _ _ _ _

end Context.Extends

end Compile

end Highlighter
