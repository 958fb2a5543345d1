import Highlighter.Proofs.Reached
import Highlighter.Proofs.Sorted
import Highlighter.Grammar.Registry
import Mathlib.Data.List.Nodup
import Mathlib.Data.String.Basic

/-!
The two parts of a registry, the grammars and the index, stay in step whatever is registered. The
invariant is that the index lists each key once, and under it the place of the grammar that has it;
adding a grammar keeps it because all keys are looked up before the first is entered.
-/

namespace Highlighter

theorem lookup_cons_eq {α β : Type} [DecidableEq α] (key first : α) (value : β)
    (entries : List (α × β)) : ((first, value) :: entries).lookup key =
      if key = first then some value else entries.lookup key := by
  by_cases h : key = first
  · subst h
    simp
  · have hne : (key == first) = false := by simpa using h
    rw [List.lookup_cons, hne, if_neg h]

/-- Where each key is listed once, a key is found with all it is listed with. -/
theorem lookup_eq_some_iff_mem {α β : Type} [DecidableEq α] {entries : List (α × β)}
    (once : (entries.map Prod.fst).Nodup) {key : α} {value : β} :
    entries.lookup key = some value ↔ (key, value) ∈ entries := by
  induction entries with
  | nil => simp
  | cons entry entries ih =>
    obtain ⟨first, old⟩ := entry
    obtain ⟨hnot, once⟩ := List.nodup_cons.1 once
    rw [lookup_cons_eq, List.mem_cons, Prod.ext_iff]
    by_cases h : key = first
    · subst h
      have hother : (key, value) ∉ entries := fun hmem => hnot (List.mem_map.2 ⟨_, hmem, rfl⟩)
      simp [hother, eq_comm]
    · simp [h, ih once]

/-- What holds of names if it holds of those that differ from the first. -/
theorem names_induction {P : List String → Prop} (nil : P [])
    (cons : ∀ name names, P (names.filter fun other => !other == name) → P (name :: names))
    (names : List String) : P names := by
  induction hlen : names.length using Nat.strong_induction_on generalizing names with
  | _ n ih =>
    subst hlen
    cases names with
    | nil => exact nil
    | cons name names =>
      have hlt := List.length_filter_le (fun other => !other == name) names
      exact cons name names (ih _ (Nat.lt_succ_of_le hlt) _ rfl)

theorem nodup_eraseDups (names : List String) : names.eraseDups.Nodup := by
  induction names using names_induction with
  | nil => simp
  | cons name names ih =>
    rw [List.eraseDups_cons, List.nodup_cons, List.mem_eraseDups, List.mem_filter]
    exact ⟨by simp, ih⟩

/-- What is looked for in names is found first where it is named first. -/
theorem find?_eraseDups (p : String → Bool) (names : List String) :
    names.eraseDups.find? p = names.find? p := by
  induction names using names_induction with
  | nil => rfl
  | cons name names ih =>
    rw [List.eraseDups_cons, List.find?_cons, List.find?_cons]
    cases hp : p name with
    | true => rfl
    | false =>
      simp only [ih, List.find?_filter]
      congr 1
      funext other
      by_cases h : other = name <;> simp [h, hp]

namespace KeyIndex

/-- New keys are entered beside the others. -/
theorem perm_putAll {index : KeyIndex} {keys : List String} (place : Nat) (once : keys.Nodup)
    (hnew : ∀ key ∈ keys, key ∉ index.map Prod.fst) :
    (index.putAll keys place).Perm (keys.map (·, place) ++ index) := by
  induction keys generalizing index with
  | nil => exact .refl _
  | cons first keys ih =>
    obtain ⟨hfirst, once⟩ := List.nodup_cons.1 once
    obtain ⟨hnotFirst, hnot⟩ := List.forall_mem_cons.1 hnew
    have hput : (index.put first place).Perm ((first, place) :: index) := perm_putSorted hnotFirst
    have hrest := @ih (index.put first place) once fun key hkey hmem => by
      rcases List.mem_cons.1 ((hput.map Prod.fst).mem_iff.1 hmem) with rfl | hmem
      · exact hfirst hkey
      · exact hnot key hkey hmem
    exact hrest.trans ((hput.append_left _).trans List.perm_middle)

end KeyIndex

/-- A key of a grammar: its name or an alias, in lower case. -/
def Grammar.IsKey (g : Grammar) (key : String) : Prop :=
  ∃ name ∈ g.name :: g.aliases, Text.lowercase name = key

theorem Grammar.mem_keys {g : Grammar} {key : String} : key ∈ g.keys ↔ g.IsKey key := by
  simp only [keys, List.mem_eraseDups, List.mem_map, IsKey]

theorem Grammar.nodup_keys (g : Grammar) : g.keys.Nodup := nodup_eraseDups _

/-- Something to be registered: a compiled grammar, or one to be compiled. -/
inductive Registration
  | compiled (g : Grammar)
  | spec (spec : GrammarSpec)

namespace Registry

/-- What is done to register something. -/
def change : Registration → Change Grammar
  | .compiled g => add g
  | .spec spec => addSpec spec

/-- Registers something: the answer, and the registry that is left. -/
def perform (r : Registry) (call : Registration) : Except GrammarError Grammar × Registry :=
  (change call).run.run r

/-- The registries that come about when grammars are registered one after the other, with or without
success. The library may be changed at any time. -/
inductive Built : Registry → Prop
  | empty (library : Library) : Built { library }
  | withLibrary {r : Registry} (built : Built r) (library : Library) : Built { r with library }
  | perform {r : Registry} (built : Built r) (call : Registration) : Built (r.perform call).2

/-- The registry with one more grammar, to be found under its keys. -/
def push (r : Registry) (g : Grammar) : Registry :=
  { r with
    grammars := r.grammars ++ [g]
    index := r.index.putAll g.keys r.grammars.length }

theorem getElem?_push {r : Registry} {g g' : Grammar} {place : Nat} :
    (r.push g).grammars[place]? = some g' ↔
      r.grammars[place]? = some g' ∨ (r.grammars.length = place ∧ g = g') := by
  simp only [push, List.getElem?_append, List.getElem?_singleton]
  split
  · rename_i hlt
    simp [Nat.ne_of_gt hlt]
  · rename_i hle
    have hnone : r.grammars[place]? = none := List.getElem?_eq_none (Nat.not_lt.1 hle)
    simp [hnone]
    omega

section Run

variable {α β : Type} (r : Registry)

theorem run_get_bind (f : Registry → Change α) :
    (get >>= f : Change α).run.run r = (f r).run.run r := rfl

/-- A change that is not refused is followed by the next. -/
theorem run_bind {x : Change β} {f : β → Change α} {b : β} {after : Registry}
    (h : x.run.run r = (.ok b, after)) : (x >>= f).run.run r = (f b).run.run after := by
  have hx : x r = (.ok b, after) := h
  simp [ExceptT.run, StateT.run, bind, ExceptT.bind, ExceptT.mk, StateT.bind, ExceptT.bindCont, hx]

theorem run_enterAll (place : Nat) (keys : List String) :
    (keys.forM (enter place)).run.run r =
      (.ok (), { r with index := r.index.putAll keys place }) := by
  induction keys generalizing r with
  | nil => rfl
  | cons first keys ih => exact ih { r with index := r.index.put first place }

/-- A grammar is added unless one of its keys is taken; then nothing is changed. -/
theorem perform_compiled (g : Grammar) :
    r.perform (.compiled g) =
      match g.keys.find? r.isTaken with
      | some key => (.error (.duplicateName key), r)
      | none => (.ok g, r.push g) := by
  unfold perform change add
  rw [run_get_bind]
  cases g.keys.find? r.isTaken with
  | some key => rfl
  | none => exact run_bind r (run_enterAll r r.grammars.length g.keys)

/-- A grammar that is to be compiled is registered as what it is compiled to. -/
theorem perform_spec (spec : GrammarSpec) :
    r.perform (.spec spec) =
      match spec.compile r.library with
      | .ok g => r.perform (.compiled g)
      | .error e => (.error e, r) := by
  unfold perform change addSpec
  rw [run_get_bind]
  cases spec.compile r.library with
  | error e => rfl
  | ok g => exact run_bind r rfl

end Run

/-- A key is taken if it is a key of a grammar that is registered. -/
def Taken (r : Registry) (key : String) : Prop := ∃ g ∈ r.grammars, g.IsKey key

/-- The grammars and the index are in step. -/
structure InStep (r : Registry) : Prop where
  /-- Each key is listed once. -/
  once : (r.index.map Prod.fst).Nodup
  /-- A key is listed with the place of a grammar that has it. -/
  leads : ∀ key place, (key, place) ∈ r.index → ∃ g, r.grammars[place]? = some g ∧ g.IsKey key
  /-- Every key of every grammar is listed. -/
  listed : ∀ place g, r.grammars[place]? = some g → ∀ key, g.IsKey key → (key, place) ∈ r.index

theorem not_taken_empty (library : Library) (key : String) : ¬ Taken { library } key :=
  fun ⟨_, hmem, _⟩ => List.not_mem_nil hmem

theorem inStep_empty (library : Library) : InStep { library } where
  once := List.nodup_nil
  leads := fun _ _ h => nomatch h
  listed := fun _ _ h => nomatch h

namespace InStep

variable {r : Registry} (h : r.InStep)

include h

theorem lookup_eq_some_iff {key : String} {place : Nat} :
    r.index.lookup key = some place ↔ ∃ g, r.grammars[place]? = some g ∧ g.IsKey key := by
  rw [lookup_eq_some_iff_mem h.once]
  exact ⟨h.leads key place, fun ⟨g, hg, hkey⟩ => h.listed place g hg key hkey⟩

/-- A grammar is found by its names and aliases, however these are spelled. -/
theorem find?_eq_some_iff {language : String} {g : Grammar} :
    r.find? language = some g ↔ g ∈ r.grammars ∧ g.IsKey (Text.lowercase language) := by
  simp only [find?, Option.bind_eq_some_iff, h.lookup_eq_some_iff]
  constructor
  · rintro ⟨place, ⟨g', hg', hkey⟩, hg⟩
    cases hg'.symm.trans hg
    exact ⟨List.mem_of_getElem? hg, hkey⟩
  · rintro ⟨hmem, hkey⟩
    obtain ⟨place, hg⟩ := List.mem_iff_getElem?.1 hmem
    exact ⟨place, ⟨g, hg, hkey⟩, hg⟩

theorem isTaken_iff {key : String} : r.isTaken key = true ↔ r.Taken key := by
  simp only [isTaken, Option.isSome_iff_exists, h.lookup_eq_some_iff, Taken]
  constructor
  · rintro ⟨place, g, hg, hkey⟩
    exact ⟨g, List.mem_of_getElem? hg, hkey⟩
  · rintro ⟨g, hmem, hkey⟩
    obtain ⟨place, hg⟩ := List.mem_iff_getElem?.1 hmem
    exact ⟨place, g, hg, hkey⟩

/-- No key belongs to two grammars. -/
theorem place_eq {place place' : Nat} {g g' : Grammar} (hg : r.grammars[place]? = some g)
    (hg' : r.grammars[place']? = some g') {key : String} (hkey : g.IsKey key)
    (hkey' : g'.IsKey key) : place = place' :=
  Option.some.inj ((h.lookup_eq_some_iff.2 ⟨g, hg, hkey⟩).symm.trans
    (h.lookup_eq_some_iff.2 ⟨g', hg', hkey'⟩))

/-- The keys that are listed are those that are taken. -/
theorem mem_listed_iff {key : String} : key ∈ r.index.map Prod.fst ↔ r.Taken key := by
  constructor
  · intro hmem
    obtain ⟨⟨_, place⟩, hentry, rfl⟩ := List.mem_map.1 hmem
    obtain ⟨g, hg, hkey⟩ := h.leads _ _ hentry
    exact ⟨g, List.mem_of_getElem? hg, hkey⟩
  · rintro ⟨g, hmem, hkey⟩
    obtain ⟨place, hg⟩ := List.mem_iff_getElem?.1 hmem
    exact List.mem_map.2 ⟨_, h.listed place g hg key hkey, rfl⟩

section Push

variable {g : Grammar} (free : ∀ key, g.IsKey key → ¬ r.Taken key)

include free

/-- The keys of one more grammar are listed beside the others. -/
theorem perm_index_push :
    (r.push g).index.Perm (g.keys.map (·, r.grammars.length) ++ r.index) :=
  KeyIndex.perm_putAll r.grammars.length g.nodup_keys fun key hkey hmem =>
    free key (Grammar.mem_keys.1 hkey) (h.mem_listed_iff.1 hmem)

theorem mem_index_push {key : String} {place : Nat} : (key, place) ∈ (r.push g).index ↔
    (key, place) ∈ r.index ∨ (r.grammars.length = place ∧ g.IsKey key) := by
  rw [(h.perm_index_push free).mem_iff, List.mem_append, or_comm, ← Grammar.mem_keys]
  simp [and_comm]

theorem nodup_index_push : ((r.push g).index.map Prod.fst).Nodup := by
  have hkeys : (g.keys.map (·, r.grammars.length)).map Prod.fst = g.keys := by
    simp [Function.comp_def]
  rw [((h.perm_index_push free).map Prod.fst).nodup_iff, List.map_append, hkeys]
  refine List.nodup_append.2 ⟨g.nodup_keys, h.once, ?_⟩
  rintro key hkey _ hlisted rfl
  exact free key (Grammar.mem_keys.1 hkey) (h.mem_listed_iff.1 hlisted)

/-- What was in step is in step with one more grammar, if none of its keys was taken. -/
theorem push : (r.push g).InStep where
  once := h.nodup_index_push free
  leads := by
    intro key place hentry
    rcases (h.mem_index_push free).1 hentry with hold | ⟨hlast, hkey⟩
    · obtain ⟨g', hg', hkey⟩ := h.leads key place hold
      exact ⟨g', getElem?_push.2 (.inl hg'), hkey⟩
    · exact ⟨g, getElem?_push.2 (.inr ⟨hlast, rfl⟩), hkey⟩
  listed := by
    intro place g' hg' key hkey
    rcases getElem?_push.1 hg' with hold | ⟨hlast, rfl⟩
    · exact (h.mem_index_push free).2 (.inl (h.listed place g' hold key hkey))
    · exact (h.mem_index_push free).2 (.inr ⟨hlast, hkey⟩)

end Push

/-- What is registered is registered, if none of its keys is taken. -/
theorem perform_of_free {g : Grammar} (free : ∀ key, g.IsKey key → ¬ r.Taken key) :
    r.perform (.compiled g) = (.ok g, r.push g) := by
  have hnone : g.keys.find? r.isTaken = none :=
    List.find?_eq_none.2 fun key hkey htaken =>
      free key (Grammar.mem_keys.1 hkey) (h.isTaken_iff.1 htaken)
  rw [perform_compiled, hnone]

theorem register_of_free {g : Grammar} (free : ∀ key, g.IsKey key → ¬ r.Taken key) :
    r.register g = .ok (r.push g) := by
  have hadd : (add g).run.run r = (.ok g, r.push g) := h.perform_of_free free
  rw [register, Change.apply, hadd]
  rfl

theorem registerSpec_of_free {spec : GrammarSpec} {g : Grammar}
    (hg : spec.compile r.library = .ok g) (free : ∀ key, g.IsKey key → ¬ r.Taken key) :
    r.registerSpec spec = .ok (r.push g, g) := by
  have hadd : (addSpec spec).run.run r = (.ok g, r.push g) := by
    refine (r.perform_spec spec).trans ?_
    rw [hg]
    exact h.perform_of_free free
  rw [registerSpec, Change.apply, hadd]

end InStep

/-- The first name of a grammar that is taken, in lower case. -/
def FirstTaken (r : Registry) (g : Grammar) (key : String) : Prop :=
  ∃ before name after, g.name :: g.aliases = before ++ name :: after ∧ Text.lowercase name = key ∧
    r.Taken key ∧ ∀ other ∈ before, ¬ r.Taken (Text.lowercase other)

theorem InStep.find?_isTaken_iff {r : Registry} (h : r.InStep) {g : Grammar} {key : String} :
    g.keys.find? r.isTaken = some key ↔ r.FirstTaken g key := by
  rw [Grammar.keys, find?_eraseDups, List.find?_map, Option.map_eq_some_iff]
  simp only [List.find?_eq_some_iff_append, Function.comp_apply, h.isTaken_iff,
    Bool.not_eq_true', ← Bool.not_eq_true]
  constructor
  · rintro ⟨name, ⟨htaken, before, after, hsplit, hbefore⟩, rfl⟩
    exact ⟨before, name, after, hsplit, rfl, htaken, hbefore⟩
  · rintro ⟨before, name, after, hsplit, rfl, htaken, hbefore⟩
    exact ⟨name, ⟨htaken, before, after, hsplit, hbefore⟩, rfl⟩

/-- Registering a compiled grammar: it is refused for the first of its names that is taken, or added
if none is. -/
theorem InStep.perform_compiled_cases {r : Registry} (h : r.InStep) (g : Grammar) :
    (∃ key, r.FirstTaken g key ∧ r.perform (.compiled g) = (.error (.duplicateName key), r)) ∨
      (∀ key, g.IsKey key → ¬ r.Taken key) ∧ r.perform (.compiled g) = (.ok g, r.push g) := by
  cases hfind : g.keys.find? r.isTaken with
  | some key =>
    refine .inl ⟨key, h.find?_isTaken_iff.1 hfind, ?_⟩
    rw [perform_compiled, hfind]
  | none =>
    have free : ∀ key, g.IsKey key → ¬ r.Taken key := fun key hkey htaken =>
      List.find?_eq_none.1 hfind key (Grammar.mem_keys.2 hkey) (h.isTaken_iff.2 htaken)
    exact .inr ⟨free, h.perform_of_free free⟩

/-- Registering something: nothing is changed, or one grammar is added. -/
theorem InStep.perform_cases {r : Registry} (h : r.InStep) (call : Registration) :
    (∃ e, r.perform call = (.error e, r)) ∨
      ∃ g, (∀ key, g.IsKey key → ¬ r.Taken key) ∧ r.perform call = (.ok g, r.push g) := by
  have hcompiled : ∀ g, (∃ e, r.perform (.compiled g) = (.error e, r)) ∨
      ∃ g', (∀ key, g'.IsKey key → ¬ r.Taken key) ∧ r.perform (.compiled g) = (.ok g', r.push g') :=
    fun g => (h.perform_compiled_cases g).imp (fun ⟨_, _, he⟩ => ⟨_, he⟩) fun hadded => ⟨g, hadded⟩
  cases call with
  | compiled g => exact hcompiled g
  | spec spec =>
    rw [perform_spec]
    cases spec.compile r.library with
    | error e => exact .inl ⟨e, rfl⟩
    | ok g => exact hcompiled g

/-- Whatever is registered, with or without success, the grammars and the index stay in step. -/
theorem Built.inStep {r : Registry} (h : r.Built) : r.InStep := by
  induction h with
  | empty library => exact inStep_empty library
  | withLibrary built library ih => exact ⟨ih.once, ih.leads, ih.listed⟩
  | perform built call ih =>
    rcases ih.perform_cases call with ⟨e, he⟩ | ⟨g, free, hadded⟩
    · rwa [he]
    · rw [hadded]
      exact ih.push free

theorem InStep.nodup_names {r : Registry} (h : r.InStep) : (r.grammars.map Grammar.name).Nodup := by
  refine List.nodup_iff_injective_get.2 fun i j heq => ?_
  have hlt : ∀ i : Fin (r.grammars.map Grammar.name).length, i.val < r.grammars.length :=
    fun i => List.length_map Grammar.name ▸ i.isLt
  have hget : ∀ i : Fin (r.grammars.map Grammar.name).length,
      r.grammars[i.val]? = some (r.grammars.get ⟨i.val, hlt i⟩) :=
    fun i => List.getElem?_eq_getElem (hlt i)
  have hname : (r.grammars.get ⟨i.val, hlt i⟩).name = (r.grammars.get ⟨j.val, hlt j⟩).name := by
    simpa using heq
  exact Fin.ext (h.place_eq (hget i) (hget j) ⟨_, List.mem_cons_self, rfl⟩
    ⟨_, List.mem_cons_self, congrArg Text.lowercase hname.symm⟩)

/-- The names are listed in order, each once. -/
theorem InStep.names_sorted {r : Registry} (h : r.InStep) : r.names.Pairwise (· < ·) := by
  have hle : r.names.Pairwise fun a b => (!decide (b < a)) = true := by
    apply List.pairwise_mergeSort
    · simp only [Bool.not_eq_true', decide_eq_false_iff_not, not_lt]
      exact fun _ _ _ => le_trans
    · simp only [Bool.or_eq_true, Bool.not_eq_true', decide_eq_false_iff_not, not_lt]
      exact le_total
  have hnodup : r.names.Nodup := (List.mergeSort_perm _ _).nodup_iff.2 h.nodup_names
  refine (hle.and hnodup).imp fun ⟨hab, hne⟩ => lt_of_le_of_ne ?_ hne
  simpa only [Bool.not_eq_true', decide_eq_false_iff_not, not_lt] using hab

/-- What registering answers, and what it does to a registry. -/
structure Registers (r : Registry) : Prop where
  /-- A compiled grammar is refused only for the first of its names that is taken. -/
  refused : ∀ g e, (r.perform (.compiled g)).1 = .error e ↔
    ∃ key, e = .duplicateName key ∧ r.FirstTaken g key
  accepted : ∀ g, (r.perform (.compiled g)).1 = .ok g ↔ ∀ key, g.IsKey key → ¬ r.Taken key
  spec : ∀ spec, r.perform (.spec spec) =
    match spec.compile r.library with
    | .ok g => r.perform (.compiled g)
    | .error e => (.error e, r)
  /-- What is refused leaves the registry as it was. -/
  unchanged : ∀ call e, (r.perform call).1 = .error e → (r.perform call).2 = r
  /-- What is added is found under its keys, and all else as before. -/
  added : ∀ call g, (r.perform call).1 = .ok g →
    (r.perform call).2.grammars = r.grammars ++ [g] ∧
      ∀ language,
        (g.IsKey (Text.lowercase language) → (r.perform call).2.find? language = some g) ∧
          (¬ g.IsKey (Text.lowercase language) →
            (r.perform call).2.find? language = r.find? language)

theorem InStep.find?_push {r : Registry} (h : r.InStep) {g : Grammar}
    (free : ∀ key, g.IsKey key → ¬ r.Taken key) (language : String) :
    (g.IsKey (Text.lowercase language) → (r.push g).find? language = some g) ∧
      (¬ g.IsKey (Text.lowercase language) → (r.push g).find? language = r.find? language) := by
  have hpush := h.push free
  have hmem : ∀ g', g' ∈ (r.push g).grammars ↔ g' ∈ r.grammars ∨ g' = g := by simp [Registry.push]
  constructor
  · intro hkey
    exact hpush.find?_eq_some_iff.2 ⟨(hmem g).2 (.inr rfl), hkey⟩
  · intro hkey
    refine Option.ext fun g' => ?_
    rw [hpush.find?_eq_some_iff, h.find?_eq_some_iff, hmem]
    constructor
    · rintro ⟨hg' | rfl, hkey'⟩
      · exact ⟨hg', hkey'⟩
      · exact absurd hkey' hkey
    · rintro ⟨hg', hkey'⟩
      exact ⟨.inl hg', hkey'⟩

theorem InStep.registers {r : Registry} (h : r.InStep) : r.Registers where
  refused := by
    intro g e
    constructor
    · intro he
      rcases h.perform_compiled_cases g with ⟨key, hfirst, hrefused⟩ | ⟨-, hadded⟩
      · rw [hrefused] at he
        cases he
        exact ⟨key, rfl, hfirst⟩
      · rw [hadded] at he
        cases he
    · rintro ⟨key, rfl, hfirst⟩
      rw [perform_compiled, h.find?_isTaken_iff.2 hfirst]
  accepted := by
    intro g
    constructor
    · intro hg
      rcases h.perform_compiled_cases g with ⟨key, -, hrefused⟩ | ⟨free, -⟩
      · rw [hrefused] at hg
        cases hg
      · exact free
    · intro free
      rw [h.perform_of_free free]
  spec := r.perform_spec
  unchanged := by
    intro call e he
    rcases h.perform_cases call with ⟨e', hrefused⟩ | ⟨g, -, hadded⟩
    · rw [hrefused]
    · rw [hadded] at he
      cases he
  added := by
    intro call g hg
    rcases h.perform_cases call with ⟨e, hrefused⟩ | ⟨g', free, hadded⟩
    · rw [hrefused] at hg
      cases hg
    · rw [hadded] at hg ⊢
      cases hg
      exact ⟨rfl, h.find?_push free⟩

/-- Whatever has been registered, the index lists the keys of the grammars and leads to them, each
grammar is found by all its names however they are spelled, no two grammars share a key, and the
names are listed in order, each once. A grammar is refused just if one of its names is taken, and
then nothing is changed; else it is found under its keys, and all other languages as before. -/
theorem integrity_of_built {r : Registry} (built : r.Built) :
    r.InStep ∧
    (∀ g ∈ r.grammars, ∀ name ∈ g.name :: g.aliases, ∀ language,
      Text.lowercase language = Text.lowercase name → r.find? language = some g) ∧
    (∀ (place place' : Nat) (g g' : Grammar), r.grammars[place]? = some g →
      r.grammars[place']? = some g' → ∀ key, g.IsKey key → g'.IsKey key → place = place') ∧
    (r.names.Pairwise (· < ·) ∧ r.names.length = r.grammars.length ∧
      ∀ name, name ∈ r.names ↔ ∃ g ∈ r.grammars, g.name = name) ∧
    r.Registers := by
  have h := built.inStep
  refine ⟨h, ?_, fun _ _ _ _ hg hg' _ => h.place_eq hg hg', ⟨h.names_sorted, ?_, ?_⟩, h.registers⟩
  · intro g hg name hname language heq
    exact h.find?_eq_some_iff.2 ⟨hg, name, hname, heq.symm⟩
  · simp [names]
  · simp [names]

/-- A grammar whose last alias is taken is refused, and nothing of it is found. -/
theorem integrity_bars :
    let bars := (Registry.perform {} (.compiled .bars)).2
    let boxes : Grammar := { Grammar.bars with name := "boxes", aliases := ["box", "BARS"] }
    bars.Built ∧ bars.find? "Bars" = some .bars ∧
      (bars.perform (.compiled boxes)).1 = .error (.duplicateName "bars") ∧
      (bars.perform (.compiled boxes)).2 = bars := by
  intro bars boxes
  have built : bars.Built := (Built.empty .standard).perform (.compiled .bars)
  obtain ⟨-, found, -, -, registers⟩ := integrity_of_built built
  have hgrammars : bars.grammars = [.bars] := rfl
  have hrefused : (bars.perform (.compiled boxes)).1 = .error (.duplicateName "bars") := by
    refine (registers.refused boxes _).2 ⟨"bars", rfl, ["boxes", "box"], "BARS", [], rfl, ?_, ?_, ?_⟩
    · decide +kernel
    · exact ⟨.bars, by simp [hgrammars], "bars", List.mem_cons_self, by decide +kernel⟩
    · have hother : ∀ other ∈ ["boxes", "box"], Text.lowercase "bars" ≠ Text.lowercase other := by
        decide +kernel
      rintro other hmem ⟨g, hg, name, hname, hkey⟩
      obtain rfl := List.mem_singleton.1 (hgrammars ▸ hg)
      obtain rfl := List.mem_singleton.1 hname
      exact hother other hmem hkey
  exact ⟨built, found .bars (by simp [hgrammars]) "bars" List.mem_cons_self "Bars"
    (by decide +kernel), hrefused, registers.unchanged _ _ hrefused⟩

end Registry

end Highlighter
