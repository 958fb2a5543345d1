import Highlighter.Grammar.Compile
import Highlighter.Proofs.Settings.Merging
import Highlighter.Settings.Basic
import Mathlib.Tactic.Choose

/-!
The single settings. A tree with a value for every setting is read setting by setting, so that each
is read well or badly by itself.
-/

namespace Highlighter.Settings

open Settings.Tree

/-- The single settings. -/
inductive Setting
  | maxDepth
  | includePlain
  | grammars
  | format
  | logLevel
  deriving DecidableEq, Repr

namespace Setting

instance {P : Setting → Prop} [DecidablePred P] : Decidable (∀ p, P p) :=
  decidable_of_iff (P maxDepth ∧ P includePlain ∧ P grammars ∧ P format ∧ P logLevel)
    ⟨fun ⟨h₁, h₂, h₃, h₄, h₅⟩ p => by cases p <;> assumption, fun h => ⟨h _, h _, h _, h _, h _⟩⟩

/-- The table that a setting is in. -/
def group : Setting → String
  | maxDepth | includePlain => "tokenizer"
  | grammars => "grammars"
  | format => "output"
  | logLevel => "logging"

/-- The name of a setting in its table. -/
def name : Setting → String
  | maxDepth => "max_depth"
  | includePlain => "include_plain"
  | grammars => "paths"
  | format => "format"
  | logLevel => "level"

def key (p : Setting) : String := p.group ++ "." ++ p.name

def path (p : Setting) : Path := [.key p.group, .key p.name]

/-- What a setting is, once it has been read. -/
def Value : Setting → Type
  | maxDepth => Nat
  | includePlain => Bool
  | grammars => List String
  | format => String
  | logLevel => LogLevel

instance (p : Setting) : DecidableEq p.Value :=
  match p with
  | maxDepth => inferInstanceAs (DecidableEq Nat)
  | includePlain => inferInstanceAs (DecidableEq Bool)
  | grammars => inferInstanceAs (DecidableEq (List String))
  | format => inferInstanceAs (DecidableEq String)
  | logLevel => inferInstanceAs (DecidableEq LogLevel)

/-- The setting among all settings. -/
def of : (p : Setting) → Settings → p.Value
  | maxDepth, s => s.maxDepth
  | includePlain, s => s.includePlain
  | grammars, s => s.grammars
  | format, s => s.format
  | logLevel, s => s.logLevel

/-- Reads a value as the setting. -/
def read : (p : Setting) → Tree → Except Error p.Value
  | maxDepth => Tree.count maxDepth.key
  | includePlain => Tree.bool includePlain.key
  | grammars => Tree.texts grammars.key
  | format => Tree.text format.key
  | logLevel => Tree.logLevel

/-- The value that holds unless another one is given. -/
def default : Setting → Tree
  | maxDepth => .scalar none (.int defaults.maxDepth)
  | includePlain => .scalar none (.bool defaults.includePlain)
  | grammars => .list none (defaults.grammars.map fun p => .scalar none (.string p))
  | format => .scalar none (.string defaults.format)
  | logLevel => .scalar none (.string defaults.logLevel.label)

theorem read_default (p : Setting) : p.read p.default = .ok (p.of defaults) := by
  cases p with
  | logLevel =>
    have hlabel : LogLevel.ofLabel? Text.lowercase defaults.logLevel.label = some .warn := by
      decide +kernel
    simp only [read, default, Tree.logLevel, hlabel]
    rfl
  | _ => rfl

end Setting

/-- A tree with a value for every setting. -/
def Tree.Holds (t : Tree) (f : Setting → Tree) : Prop :=
  ∀ p : Setting, ∃ group, t.get? p.group = some group ∧ group.isTable = true ∧
    group.get? p.name = some (f p)

theorem holds_defaults : defaults.toTree.Holds Setting.default := by
  intro p
  cases p <;> exact ⟨_, rfl, rfl, rfl⟩

/-- Each setting as it is read. -/
def readEach (r : (p : Setting) → Except Error p.Value) : Except Error Settings := do
  let maxDepth ← r .maxDepth
  let includePlain ← r .includePlain
  let grammars ← r .grammars
  let format ← r .format
  let logLevel ← r .logLevel
  return ⟨maxDepth, includePlain, grammars, format, logLevel⟩

section ReadEach

variable {r : (p : Setting) → Except Error p.Value}

theorem readEach_eq_ok_iff {s : Settings} : readEach r = .ok s ↔ ∀ p, r p = .ok (p.of s) := by
  constructor
  · intro h
    obtain ⟨maxDepth, hdepth, h⟩ := Compile.bind_eq_ok h
    obtain ⟨includePlain, hplain, h⟩ := Compile.bind_eq_ok h
    obtain ⟨grammars, hgrammars, h⟩ := Compile.bind_eq_ok h
    obtain ⟨format, hformat, h⟩ := Compile.bind_eq_ok h
    obtain ⟨logLevel, hlevel, h⟩ := Compile.bind_eq_ok h
    cases h
    intro p
    cases p <;> assumption
  · intro h
    unfold readEach
    rw [h .maxDepth, h .includePlain, h .grammars, h .format, h .logLevel]
    rfl

theorem readEach_eq_error_iff : (∃ e, readEach r = .error e) ↔ ∃ p e, r p = .error e := by
  constructor
  · rintro ⟨e, he⟩
    by_contra hnone
    have hall : ∀ p, ∃ a, r p = .ok a := fun p => by
      cases hp : r p with
      | ok a => exact ⟨a, rfl⟩
      | error e => exact absurd ⟨p, e, hp⟩ hnone
    choose a ha using hall
    have hok : readEach r =
        .ok ⟨a .maxDepth, a .includePlain, a .grammars, a .format, a .logLevel⟩ :=
      readEach_eq_ok_iff.2 fun p => by cases p <;> exact ha _
    cases he.symm.trans hok
  · rintro ⟨p, e, hp⟩
    cases hread : readEach r with
    | ok s => cases hp.symm.trans (readEach_eq_ok_iff.1 hread p)
    | error e => exact ⟨e, rfl⟩

end ReadEach

section Group

variable {group value : Tree} {type key : String} {α : Type}

/-- In a table every setting has a slot of its own. -/
theorem slots_of_isTable (h : group.isTable = true) (names : List String) :
    group.slots type key names =
      .ok (names.map fun name => ⟨key ++ "." ++ name, group.get? name, .missing name⟩) := by
  cases group with
  | table => rfl
  | _ => cases h

theorem read?_some (read : String → Tree → Except Error α) (absent : Error) :
    Slot.read? ⟨key, some value, absent⟩ read = (read key value).map some := by
  unfold Slot.read?
  cases h : read key value <;> simp [h] <;> rfl

theorem single_eq_read {name : String} (read : String → Tree → Except Error α)
    (h : group.isTable = true) (hname : group.get? name = some value) :
    single type name read key group = read (key ++ "." ++ name) value := by
  unfold single
  rw [slots_of_isTable h, List.map_cons, hname]
  change (Slot.read? _ read >>= _) = _
  rw [read?_some]
  cases read (key ++ "." ++ name) value <;> rfl

theorem depthAndPlain_eq_read {depth plain : Tree} (h : group.isTable = true)
    (hdepth : group.get? "max_depth" = some depth)
    (hplain : group.get? "include_plain" = some plain) :
    depthAndPlain key group = do
      let maxDepth ← count (key ++ "." ++ "max_depth") depth
      let includePlain ← bool (key ++ "." ++ "include_plain") plain
      return (maxDepth, includePlain) := by
  unfold depthAndPlain
  rw [slots_of_isTable h, List.map_cons, List.map_cons, hdepth, hplain]
  change (Slot.read? _ count >>= fun maxDepth => Slot.read? _ bool >>= _) = _
  rw [read?_some, read?_some]
  cases count (key ++ "." ++ "max_depth") depth with
  | error e => rfl
  | ok maxDepth => cases bool (key ++ "." ++ "include_plain") plain <;> rfl

theorem part_eq_read {t : Tree} {name : String} (read : String → Tree → Except Error α)
    (h : t.get? name = some group) : t.part name read = read name group := by
  unfold part
  rw [h]

end Group

/-- A tree with a value for every setting is read setting by setting. -/
theorem Tree.Holds.ofTree {t : Tree} {f : Setting → Tree} (h : t.Holds f) :
    Settings.ofTree t = readEach fun p => p.read (f p) := by
  have htokenizer : t.part "tokenizer" depthAndPlain = do
      let maxDepth ← Setting.maxDepth.read (f .maxDepth)
      let includePlain ← Setting.includePlain.read (f .includePlain)
      return (maxDepth, includePlain) := by
    obtain ⟨group, hgroup, table, hdepth⟩ := h .maxDepth
    obtain ⟨group', hgroup', -, hplain⟩ := h .includePlain
    obtain rfl := Option.some.inj (hgroup.symm.trans hgroup')
    exact (part_eq_read _ hgroup).trans (depthAndPlain_eq_read table hdepth hplain)
  have hgrammars : t.part "grammars" (single "GrammarsConfig" "paths" texts) =
      Setting.grammars.read (f .grammars) := by
    obtain ⟨group, hgroup, table, hname⟩ := h .grammars
    exact (part_eq_read _ hgroup).trans (single_eq_read _ table hname)
  have houtput : t.part "output" (single "OutputConfig" "format" text) =
      Setting.format.read (f .format) := by
    obtain ⟨group, hgroup, table, hname⟩ := h .format
    exact (part_eq_read _ hgroup).trans (single_eq_read _ table hname)
  have hlogging : t.part "logging" (single "LoggingConfig" "level" fun _ => Tree.logLevel) =
      Setting.logLevel.read (f .logLevel) := by
    obtain ⟨group, hgroup, table, hname⟩ := h .logLevel
    exact (part_eq_read _ hgroup).trans (single_eq_read _ table hname)
  unfold Settings.ofTree readEach
  rw [htokenizer, hgrammars, houtput, hlogging]
  simp only [bind_assoc, pure_bind]
  rfl

end Highlighter.Settings
