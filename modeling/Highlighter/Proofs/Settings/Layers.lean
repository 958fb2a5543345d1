import Highlighter.Proofs.Settings.Apart
import Highlighter.Settings.Loader

/-!
What files and overrides give for each setting. A layer changes the value of a setting only by what
it gives for that setting.
-/

namespace Highlighter.Settings

open Settings.Tree Loader

namespace Setting

theorem lowercase_group (p : Setting) : Text.lowercase p.group = p.group := by
  cases p <;> decide +kernel

theorem lowercase_name (p : Setting) : Text.lowercase p.name = p.name := by
  cases p <;> decide +kernel

theorem lowered_path (p : Setting) : ∀ step ∈ p.path, step.Lowered := by
  simp only [path, List.forall_mem_cons]
  exact ⟨⟨_, p.lowercase_group.symm⟩, ⟨_, p.lowercase_name.symm⟩, List.forall_mem_nil _⟩

theorem ofString?_key (p : Setting) : Path.ofString? p.key = some p.path := by
  cases p <;> decide +kernel

theorem path_inj {p q : Setting} : p.path = q.path ↔ p = q := by
  cases p <;> cases q <;> decide

/-- What a tree under a key gives for a setting. -/
def within (p : Setting) (key : String) (value : Tree) : List Tree :=
  if Text.lowercase key = p.group then named p.name value.entries else []

theorem within_path (p q : Setting) (value : Tree) :
    q.within p.group (table none [(p.name, value)]) = if p = q then [value] else [] := by
  have hinj : (p.group = q.group ∧ p.name = q.name) ↔ p = q := by
    rw [← path_inj]
    simp [path]
  unfold within named
  rw [p.lowercase_group, entries, List.filterMap_cons, p.lowercase_name, List.filterMap_nil]
  by_cases hgroup : p.group = q.group
  · by_cases hname : p.name = q.name <;> simp [← hinj, hgroup, hname]
  · simp [← hinj, hgroup]

end Setting

section Setting

variable {t : Tree} {f : Setting → Tree}

/-- What is set under a key changes each setting by what it gives for that setting. -/
theorem Tree.Holds.set (h : t.Holds f) (key : String) (value : Tree)
    (table : ∀ p : Setting, Text.lowercase key = p.group → value.isTable = true) :
    (t.set key value).Holds fun p => (p.within key value).foldl upon (f p) := by
  intro p
  obtain ⟨group, hgroup, htable, hname⟩ := h p
  refine ⟨_, get?_set hgroup, ?_⟩
  dsimp only [Setting.within]
  by_cases hkey : Text.lowercase key = p.group
  · rw [if_pos hkey, if_pos hkey]
    cases value with
    | table o entries => exact ⟨isTable_setAll htable, get?_setAll hname⟩
    | _ => cases table p hkey
  · rw [if_neg hkey, if_neg hkey]
    exact ⟨htable, hname⟩

/-- An override changes only its own setting. -/
theorem Tree.Holds.setAt (h : t.Holds f) (p : Setting) (value : Tree) :
    ∃ t', Tree.setAt value p.path t = .ok t' ∧
      t'.Holds fun q => (if p = q then [value] else []).foldl upon (f q) := by
  refine ⟨_, setAt_eq_set rfl p.lowered_path t, ?_⟩
  have hset := h.set p.group (table none [(p.name, value)]) fun _ _ => rfl
  simpa only [Setting.within_path] using hset

end Setting

/-- The outermost key that an entry of a file sets, with what comes to stand under it. -/
def outer? (entry : String × Tree) : Option (String × Tree) :=
  match (Path.ofString? entry.1).getD [.key entry.1] with
  | .key name :: rest => (nest? rest entry.2).map fun t => (name, t)
  | _ => none

theorem addEntry_eq_set {entry outer : String × Tree} (h : outer? entry = some outer) (t : Tree) :
    addEntry t entry = .ok (t.set outer.1 outer.2) := by
  unfold outer? at h
  unfold addEntry
  cases hpath : Path.ofString? entry.1 with
  | none =>
    rw [hpath] at h
    cases h
    rfl
  | some path =>
    rw [hpath, Option.getD_some] at h
    have lowered := Path.lowered_of_ofString? hpath
    split at h
    · obtain ⟨tree, htree, rfl⟩ := Option.map_eq_some_iff.1 h
      exact setAt_eq_set htree lowered t
    · cases h

/-- The tables with settings in them. -/
def groups : List String := ["tokenizer", "grammars", "output", "logging"]

theorem Setting.group_mem (p : Setting) : p.group ∈ groups := by
  cases p <;> decide

/-- An entry of a file that goes into no list, and gives only tables for the tables of settings. -/
def Proper (entry : String × Tree) : Prop :=
  ∃ outer ∈ outer? entry, Text.lowercase outer.1 ∈ groups → outer.2.isTable = true

instance (entry : String × Tree) : Decidable (Proper entry) :=
  inferInstanceAs (Decidable (∃ outer ∈ outer? entry, _))

/-- What an entry of a file gives for a setting. -/
def Setting.given (p : Setting) (entry : String × Tree) : List Tree :=
  match outer? entry with
  | some outer => p.within outer.1 outer.2
  | none => []

section Layer

variable {t : Tree} {f : Setting → Tree} {read : Reader}

theorem Tree.Holds.addEntry (h : t.Holds f) {entry : String × Tree} (proper : Proper entry) :
    ∃ t', Loader.addEntry t entry = .ok t' ∧
      t'.Holds fun p => (p.given entry).foldl upon (f p) := by
  obtain ⟨outer, houter, htable⟩ := proper
  refine ⟨_, addEntry_eq_set houter t, ?_⟩
  have hset := h.set outer.1 outer.2 fun p hp => htable (hp ▸ p.group_mem)
  have hgiven : ∀ p : Setting, p.given entry = p.within outer.1 outer.2 := fun p => by
    rw [Setting.given, Option.mem_def.1 houter]
  simpa only [hgiven] using hset

theorem Tree.Holds.addEntries {entries : List (String × Tree)} (h : t.Holds f)
    (proper : ∀ entry ∈ entries, Proper entry) :
    ∃ t', entries.foldlM Loader.addEntry t = .ok t' ∧
      t'.Holds fun p => (entries.flatMap p.given).foldl upon (f p) := by
  induction entries generalizing t f with
  | nil => exact ⟨t, rfl, h⟩
  | cons entry entries ih =>
    obtain ⟨hentry, hentries⟩ := List.forall_mem_cons.1 proper
    obtain ⟨t₁, ht₁, h₁⟩ := h.addEntry hentry
    obtain ⟨t₂, ht₂, h₂⟩ := ih h₁ hentries
    refine ⟨t₂, ?_, ?_⟩
    · rw [List.foldlM_cons, ht₁]
      exact ht₂
    · simpa only [List.flatMap_cons, List.foldl_append] using h₂

/-- What stands in the file that a path means, if it is there and can be read. -/
def contents? (read : Reader) (path : String) : Option (List (String × Tree)) :=
  match found? read (candidates path) with
  | none => none
  | some (path, bytes) => do
    let doc ← Toml.read? (← (bytes >>= decodeText).toOption)
    return (Tree.ofDoc (some (tidy path)) doc).entries

/-- What stands in the file that a path means, which is nothing if it is not there. -/
def entriesIn (read : Reader) (path : String) : List (String × Tree) :=
  (contents? read path).getD []

/-- Whether there is no file that a path means. -/
def Absent (read : Reader) (path : String) : Prop := found? read (candidates path) = none

/-- A path that means a proper file of settings, if there is a file at all. -/
structure Orderly (read : Reader) (path : String) : Prop where
  valid : ¬Absent read path → (contents? read path).isSome = true
  proper : ∀ entry ∈ entriesIn read path, Proper entry

instance (read : Reader) (path : String) : Decidable (Absent read path) :=
  inferInstanceAs (Decidable (found? read (candidates path) = none))

instance (read : Reader) (path : String) : Decidable (Orderly read path) :=
  decidable_of_iff ((¬Absent read path → (contents? read path).isSome = true) ∧
    ∀ entry ∈ entriesIn read path, Proper entry) ⟨fun h => ⟨h.1, h.2⟩, fun h => ⟨h.1, h.2⟩⟩

theorem Layer.read_of_absent {layer : Layer} (h : Absent read layer.path)
    (required : layer.required = true) :
    layer.read read = .error (.fileNotFound layer.path) := by
  unfold Layer.read
  rw [h, if_pos required]

theorem Layer.read_eq_entriesIn {layer : Layer} (orderly : Orderly read layer.path)
    (present : layer.required = true → ¬Absent read layer.path) :
    layer.read read = .ok (entriesIn read layer.path) := by
  have valid := orderly.valid
  unfold Absent at present valid
  unfold Layer.read entriesIn
  unfold contents? at valid ⊢
  cases hfound : found? read (candidates layer.path) with
  | none =>
    have optional : layer.required = false :=
      Bool.eq_false_iff.2 fun required => present required hfound
    rw [optional]
    rfl
  | some found =>
    rw [hfound] at valid
    obtain ⟨entries, hentries⟩ := Option.isSome_iff_exists.1 (valid nofun)
    obtain ⟨source, hsource, hentries⟩ := Option.bind_eq_some_iff.1 hentries
    obtain ⟨doc, hdoc, hentries⟩ := Option.bind_eq_some_iff.1 hentries
    cases hbytes : found.2 >>= decodeText with
    | error fault =>
      rw [hbytes] at hsource
      cases hsource
    | ok text =>
      rw [hbytes] at hsource
      cases hsource
      simp [hbytes, hdoc, Except.toOption]

end Layer

end Highlighter.Settings
