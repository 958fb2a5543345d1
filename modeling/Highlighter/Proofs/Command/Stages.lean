import Highlighter.Proofs.Command.Session

/-!
The stages of a run, each without its log: the registry, the text, the highlighting.
-/

namespace Highlighter

/-- The registry of the bundled grammars and those in files, before it is checked. -/
def Registry.loaded (contents : String → Except ReadFault ByteArray) (paths : List String) :
    Except GrammarError Registry := do
  paths.foldlM (fun r path => (r.load path (contents path >>= decodeText)).map Prod.fst)
    (← Registry.bundled)

/-- The registry of the bundled grammars and those in files. -/
def Registry.ofFiles (contents : String → Except ReadFault ByteArray) (paths : List String) :
    Except GrammarError Registry := do
  let r ← Registry.loaded contents paths
  r.validate
  return r

namespace Command

/-- The text that a path names. -/
def World.text (world : World Id) (path : String) : Except ReadFault String :=
  if path = "-" then decodeText world.input else world.contents path >>= decodeText

open Session

theorem toOption_eq_some_iff {ε α : Type} {x : Except ε α} {a : α} :
    x.toOption = some a ↔ x = .ok a := by
  cases x <;> simp [Except.toOption]

theorem toOption_bind {ε α β : Type} (x : Except ε α) (f : α → Except ε β) :
    (x >>= f).toOption = x.toOption.bind fun a => (f a).toOption := by
  cases x <;> rfl

theorem toOption_map {ε α β : Type} (x : Except ε α) (f : α → β) :
    (x.map f).toOption = x.toOption.map f := by
  cases x <;> rfl

theorem toOption_foldlM {ε α β : Type} (f : β → α → Except ε β) (xs : List α) (b : β) :
    (xs.foldlM f b).toOption = xs.foldlM (fun b a => (f b a).toOption) b := by
  induction xs generalizing b with
  | nil => rfl
  | cons a xs ih =>
    rw [List.foldlM_cons, List.foldlM_cons, toOption_bind]
    exact congrArg _ (funext ih)

theorem gives_register (r : Registry) (spec : GrammarSpec) (describe : GrammarError → String) :
    Gives (register r spec describe) (r.registerSpec spec).toOption :=
  (gives_require describe _).behind_log _

/-- A registry that is checked before it is used. -/
theorem gives_validate (r : Registry) (describe : GrammarError → String) :
    Gives (do require describe r.validate; pure r) (do r.validate; pure r).toOption := by
  rw [toOption_bind]
  exact (gives_require describe r.validate).bind fun _ => gives_pure r

theorem gives_bundled : Gives bundled Registry.bundled.toOption := by
  unfold bundled Registry.bundled Registry.ofSpecs
  generalize Bundled.all = all
  rw [toOption_bind, toOption_foldlM, List.foldlM_map]
  apply Gives.bind
  · apply gives_forIn
    intro r entry
    rw [toOption_map, Option.map_map]
    apply Gives.behind_log
    apply Gives.map
    exact gives_register r entry.2 _
  · intro r
    exact gives_validate r _

/-- The file is read, its grammar is compiled and registered, and then there is something to log. -/
theorem gives_addFile (world : World Id) (r : Registry) (path : String) :
    Gives (addFile world r path)
      ((r.load path (world.contents path >>= decodeText)).map Prod.fst).toOption := by
  unfold addFile Registry.load
  rw [toOption_map, toOption_bind, Option.map_bind]
  refine Gives.behind_lift ?_
  apply (gives_require _ _).bind
  intro spec
  rw [Function.comp_apply, Option.map_eq_bind]
  apply (gives_register _ _ _).bind
  intro p
  exact (gives_pure p.1).behind_log _

theorem gives_registry (world : World Id) (paths : List String) :
    Gives (registry world paths) (Registry.ofFiles world.contents paths).toOption := by
  unfold registry Registry.ofFiles Registry.loaded
  rw [toOption_bind, toOption_bind, Option.bind_assoc]
  apply gives_bundled.bind
  intro r
  rw [toOption_foldlM]
  apply (gives_foldlM (gives_addFile world) paths r).bind
  intro r
  exact gives_validate r _

theorem gives_text (world : World Id) (path : String) :
    Gives (text world path) (world.text path).toOption := by
  unfold text World.text
  by_cases hpath : path = "-"
  · rw [if_pos hpath, hpath, beq_self_eq_true, if_pos rfl]
    apply Gives.behind_lift
    exact gives_require _ _
  · rw [if_neg hpath, if_neg (by simpa using hpath)]
    apply Gives.behind_lift
    exact gives_require _ _

/-- A text that is highlighted and written. -/
theorem gives_highlight (world : World Id) (r : Registry) (s : Settings) (strict : Bool)
    (path language : String) :
    Gives (highlight world r s strict path language)
      (if FormatRegistry.standard.has s.format then
        (world.text path).toOption.bind fun text =>
          (r.highlight? language s.maxDepth text).bind fun h =>
            (outputs .standard s strict path h).toOption
      else none) := by
  unfold highlight Registry.highlight?
  cases hhas : FormatRegistry.standard.has s.format with
  | false =>
    simp only [hhas, Bool.not_false, if_true, Bool.false_eq_true, if_false]
    exact fun _ => rfl
  | true =>
    simp only [hhas, Bool.not_true, Bool.false_eq_true, if_false, if_true]
    apply (gives_text world path).bind
    intro text
    cases r.start? language s.maxDepth text with
    | none => exact gives_throw _
    | some h =>
      apply Gives.behind_log
      apply Gives.behind_log
      exact gives_require _ _

/-- What a run comes to whose settings are known. -/
def Arguments.sought (args : Arguments) (world : World Id) (s : Settings) : Option Outputs :=
  if args.listFormats then some { output := formatList .standard }
  else (Registry.ofFiles world.contents (s.grammars ++ args.grammars)).toOption.bind fun r =>
    if args.listLanguages then some { output := languageList r }
    else args.path.bind fun path => args.language.bind fun language =>
      if FormatRegistry.standard.has s.format then
        (world.text path).toOption.bind fun text =>
          (r.highlight? language s.maxDepth text).bind fun h =>
            (outputs .standard s args.strict path h).toOption
      else none

theorem gives_perform (world : World Id) (args : Arguments) (s : Settings) :
    Gives (perform world args s) (args.sought world s) := by
  unfold perform Arguments.sought
  cases args.listFormats with
  | true => exact gives_pure _
  | false =>
    simp only [Bool.false_eq_true, if_false]
    apply (gives_registry world _).bind
    intro r
    cases args.listLanguages with
    | true => exact gives_pure _
    | false =>
      simp only [Bool.false_eq_true, if_false]
      cases args.path with
      | none => exact gives_throw _
      | some path =>
        cases args.language with
        | none => exact gives_throw _
        | some language => exact gives_highlight world r s args.strict path language

end Command

end Highlighter
