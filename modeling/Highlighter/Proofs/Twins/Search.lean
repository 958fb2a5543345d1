import Highlighter.Grammar.Scanner
import Highlighter.Proofs.Search.Branches
import Highlighter.Regex.Sweep

/-!
Two searches side by side. A search looks at characters only through the sets and the conditions of
its expression. Two expressions of one shape, in two texts, find the same if the sets at one place
of the expression agree at each place of the texts, and the conditions do.

Both expressions are told as one whose sets have been exchanged, once by `f` and once by `g`.
-/

namespace Highlighter

namespace Regex

/-- The expression with its sets exchanged. -/
def mapSets (f : CharSet → CharSet) : Regex → Regex
  | empty => empty
  | char set => char (f set)
  | look anchor => look anchor
  | seq r s => seq (r.mapSets f) (s.mapSets f)
  | alt r s => alt (r.mapSets f) (s.mapSets f)
  | opt greedy body => opt greedy (body.mapSets f)
  | plus greedy body => plus greedy (body.mapSets f)
  | star greedy body => star greedy (body.mapSets f)
  | group name body => group name (body.mapSets f)

theorem mapSets_id (r : Regex) : r.mapSets id = r := by
  induction r <;> simp [mapSets, *]

section Shape

variable (f : CharSet → CharSet) (r : Regex)

@[simp] theorem parts_mapSets : (r.mapSets f).parts = r.parts := by
  induction r <;> simp [mapSets, parts, *]

@[simp] theorem nullable_mapSets : (r.mapSets f).nullable = r.nullable := by
  induction r <;> simp [mapSets, nullable, *]

@[simp] theorem looks_mapSets : (r.mapSets f).looks = r.looks := by
  induction r <;> simp [mapSets, looks, *]

@[simp] theorem isRestless_mapSets : (r.mapSets f).isRestless = r.isRestless := by
  induction r <;> simp [mapSets, isRestless, *]

@[simp] theorem looksAtWords_mapSets : (r.mapSets f).looksAtWords = r.looksAtWords := by
  induction r <;> simp [mapSets, looksAtWords, *]

end Shape

def Task.mapSets (f : CharSet → CharSet) : Task → Task
  | part r number => part (r.mapSets f) number
  | again greedy body number => again greedy (body.mapSets f) number

/-- The paths with their sets exchanged. -/
def mapPaths (f : CharSet → CharSet) (paths : List Path) : List Path :=
  paths.map (·.map (Task.mapSets f))

section Paths

variable (f : CharSet → CharSet)

@[simp] theorem mapPaths_nil : mapPaths f [] = [] := rfl

@[simp] theorem mapPaths_cons (path : Path) (paths : List Path) :
    mapPaths f (path :: paths) = path.map (Task.mapSets f) :: mapPaths f paths := rfl

@[simp] theorem mapPaths_append (paths others : List Path) :
    mapPaths f (paths ++ others) = mapPaths f paths ++ mapPaths f others := List.map_append

@[simp] theorem mapPaths_ways (greedy : Bool) (round leave : Path) :
    mapPaths f (ways greedy round leave) =
      ways greedy (round.map (Task.mapSets f)) (leave.map (Task.mapSets f)) := by
  cases greedy <;> rfl

theorem mapPaths_start (r : Regex) : mapPaths f [r.start] = [(r.mapSets f).start] := rfl

/-- Settling does not look at sets. -/
theorem settle_mapPaths (known : Anchor → Bool) (stays : Bool) (paths : List Path) (m : Marks) :
    settle known stays (mapPaths f paths) m = mapPaths f (settle known stays paths m) := by
  fun_induction settle known stays paths m with
  | case4 m greedy body number tasks rest free round ih =>
    rw [mapPaths_append, mapPaths_ways] at ih
    rw [← ih]
    simp [settle, Task.mapSets, free, round]
  | case9 m number tasks rest anchor free paths stops stay ih =>
    have hstops : mapPaths f stops = _ := ih.symm
    rw [mapPaths_cons, mapPaths_cons, hstops]
    cases hk : known anchor <;> simp [settle, Task.mapSets, mapSets, free, stay, paths, hk]
  | case10 m number tasks rest anchor free paths stops stay ih =>
    rw [← ih]
    cases hk : known anchor <;> simp [settle, Task.mapSets, mapSets, free, stay, paths, hk]
  | case15 m number tasks rest greedy body free round ih =>
    rw [mapPaths_append, mapPaths_ways] at ih
    rw [← ih]
    simp [settle, Task.mapSets, mapSets, free, round]
  | _ => simp_all [settle, Task.mapSets, mapSets]

theorem isOver_mapPaths (paths : List Path) : isOver (mapPaths f paths) = isOver paths := by
  simp [isOver, mapPaths, Function.comp_def]

theorem isEmpty_mapPaths (paths : List Path) : (mapPaths f paths).isEmpty = paths.isEmpty :=
  List.isEmpty_map

/-- Whether a path goes on behind a condition does not depend on sets. -/
theorem stopsAt_mapPaths (r : Regex) (h : Haystack) (p : Nat) (paths : List Path) :
    stopsAt (r.mapSets f) h p (mapPaths f paths) = mapPaths f (stopsAt r h p paths) := by
  unfold stopsAt
  simp only [settle_mapPaths, parts_mapSets]
  generalize settle (·.knownAt h p) true paths (.none r.parts) = first
  have hany : ∀ goesOn : Path → Bool, (∀ path, goesOn (path.map (Task.mapSets f)) = goesOn path) →
      (mapPaths f first).any goesOn = first.any goesOn := by
    intro goesOn hgoes
    rw [mapPaths, List.any_map]
    exact congrArg _ (funext hgoes)
  rw [hany]
  · split
    · rfl
    · rfl
  · intro path
    cases path with
    | nil => rfl
    | cons task tasks =>
      cases task with
      | again greedy body number => rfl
      | part r number => cases r <;> rfl

end Paths

end Regex

/-- Two texts with exchanges of sets that agree at every place. -/
structure Haystack.Alike (f g : Regex.CharSet → Regex.CharSet) (h h' : Haystack) : Prop where
  stop : h.stop = h'.stop
  hasAt : ∀ set i, (f set).hasAt h i = (g set).hasAt h' i
  holds : ∀ (anchor : Regex.Anchor) i, anchor.holds h i = anchor.holds h' i
  knownAt : ∀ (anchor : Regex.Anchor) i, anchor.knownAt h i = anchor.knownAt h' i
  wide : ∀ i, (h.char? i).any (0x80 ≤ ·.toNat) = (h'.char? i).any (0x80 ≤ ·.toNat)

/-- Texts that are the same as far as a search can see. -/
theorem Haystack.alike_of_char? {h h' : Haystack} (stop : h.stop = h'.stop)
    (same : ∀ i, h.char? i = h'.char? i) : Haystack.Alike id id h h' := by
  have hbefore : ∀ i, h.before? i = h'.before? i := by
    intro i
    unfold before?
    rw [same]
  have hholds := fun (anchor : Regex.Anchor) i => anchor.holds_congr stop same i
  exact {
    stop
    hasAt := fun set i => by simp only [Regex.CharSet.hasAt, same]
    holds := hholds
    knownAt := fun anchor i => by
      unfold Regex.Anchor.knownAt
      simp only [hholds, hbefore]
    wide := fun i => by rw [same] }

namespace Haystack.Alike

open Regex

variable {f g : CharSet → CharSet} {h h' : Haystack} (alike : Haystack.Alike f g h h')

include alike

/-- A path goes on behind a character in both texts or in neither. -/
theorem pass?_eq (p : Nat) (path : Path) :
    ∃ live : Option Path, pass? h p (path.map (Task.mapSets f)) = live.map (·.map (Task.mapSets f)) ∧
      pass? h' p (path.map (Task.mapSets g)) = live.map (·.map (Task.mapSets g)) := by
  cases path with
  | nil => exact ⟨none, rfl, rfl⟩
  | cons task tasks =>
    cases task with
    | again greedy body number => exact ⟨none, rfl, rfl⟩
    | part r number =>
      cases r with
      | char set =>
        have hat := alike.hasAt set p
        cases hs : (g set).hasAt h' p with
        | true => exact ⟨some tasks, by simp [pass?, Task.mapSets, mapSets, hat, hs]⟩
        | false => exact ⟨none, by simp [pass?, Task.mapSets, mapSets, hat, hs]⟩
      | _ => exact ⟨none, rfl, rfl⟩

theorem pass_eq (p : Nat) (paths : List Path) :
    ∃ live, pass h p (mapPaths f paths) = mapPaths f live ∧
      pass h' p (mapPaths g paths) = mapPaths g live := by
  induction paths with
  | nil => exact ⟨[], rfl, rfl⟩
  | cons path rest ih =>
    obtain ⟨live, hlive, hlive'⟩ := ih
    obtain ⟨first, hfirst, hfirst'⟩ := alike.pass?_eq p path
    cases hempty : path.isEmpty with
    | true => exact ⟨[], by simp [Regex.pass, hempty]⟩
    | false =>
      refine ⟨first.toList ++ live, ?_, ?_⟩ <;>
        rw [mapPaths_append, mapPaths_cons, pass_cons, List.isEmpty_map, hempty]
      · rw [hfirst, hlive]
        cases first <;> rfl
      · rw [hfirst', hlive']
        cases first <;> rfl

theorem endFrom?_eq (parts p : Nat) (paths : List Path) (best : Option Nat) :
    endFrom? h parts p (mapPaths f paths) best = endFrom? h' parts p (mapPaths g paths) best := by
  have hholds : (fun anchor : Anchor => anchor.holds h p) = (·.holds h' p) :=
    funext (alike.holds · p)
  rw [endFrom?.eq_def h, endFrom?.eq_def h']
  simp only [settle_mapPaths, isOver_mapPaths, ← hholds, ← alike.stop]
  obtain ⟨live, hlive, hlive'⟩ := alike.pass_eq p (settle (·.holds h p) false paths (.none parts))
  rw [hlive, hlive']
  simp only [isEmpty_mapPaths]
  split
  · rename_i hgoes
    exact endFrom?_eq parts (p + 1) live _
  · rfl
termination_by h.stop - p
decreasing_by omega

theorem endAt?_eq (r : Regex) (p : Nat) : (r.mapSets f).endAt? h p = (r.mapSets g).endAt? h' p := by
  unfold endAt?
  rw [← mapPaths_start, ← mapPaths_start, parts_mapSets, parts_mapSets]
  exact alike.endFrom?_eq r.parts p [r.start] none

theorem first?_eq {α : Type} (found? : Nat → Option α) (p : Nat) :
    h.first? found? p = h'.first? found? p := by
  rw [Haystack.first?.eq_def h, Haystack.first?.eq_def h', alike.stop]
  split
  · split
    · rfl
    · exact first?_eq found? (p + 1)
  · rfl
termination_by h.stop + 1 - p
decreasing_by
  rename_i hle _ _
  rw [← alike.stop] at hle
  omega

theorem find?_eq (r : Regex) (p : Nat) : (r.mapSets f).find? h p = (r.mapSets g).find? h' p := by
  unfold find?
  rw [funext (alike.endAt?_eq r), alike.first?_eq]

theorem stopsAt_eq (r : Regex) (p : Nat) (paths : List Path) :
    stopsAt r h p paths = stopsAt r h' p paths := by
  unfold stopsAt
  simp only [alike.holds, alike.knownAt]

theorem sweepFrom_eq (r : Regex) (ascii : Bool) (p : Nat) (paths : List Path)
    (found : Option Nat) :
    sweepFrom (r.mapSets f) h ascii p (mapPaths f paths) found =
      sweepFrom (r.mapSets g) h' ascii p (mapPaths g paths) found := by
  rw [sweepFrom.eq_def _ h, sweepFrom.eq_def _ h']
  have hpaths : ∀ f : CharSet → CharSet, (if found.isNone then
      mapPaths f paths ++ [(r.mapSets f).start] else mapPaths f paths) =
        mapPaths f (if found.isNone then paths ++ [r.start] else paths) := by
    intro f
    split
    · rw [mapPaths_append, mapPaths_start]
    · rfl
  simp only [hpaths, stopsAt_mapPaths, isOver_mapPaths, ← alike.stopsAt_eq, ← alike.wide,
    ← alike.stop]
  obtain ⟨live, hlive, hlive'⟩ := alike.pass_eq p
    (stopsAt r h p (if found.isNone then paths ++ [r.start] else paths))
  rw [hlive, hlive']
  simp only [isEmpty_mapPaths]
  by_cases hlt : p < h.stop
  · simp only [hlt, ↓reduceIte]
    rw [sweepFrom_eq r ascii (p + 1) live _]
  · simp only [hlt, ↓reduceIte]
termination_by h.stop - p

theorem sweep?_eq (r : Regex) (p : Nat) :
    (r.mapSets f).sweep? h p = (r.mapSets g).sweep? h' p := by
  have hwide : (h.before? p).any (0x80 ≤ ·.toNat) = (h'.before? p).any (0x80 ≤ ·.toNat) := by
    unfold before?
    split
    · rfl
    · exact alike.wide _
  unfold sweep?
  simp only [looksAtWords_mapSets, hwide]
  split
  · rfl
  · exact alike.sweepFrom_eq r _ p [] none

theorem findSwept?_eq (r : Regex) (p : Nat) :
    (r.mapSets f).findSwept? h p = (r.mapSets g).findSwept? h' p := by
  unfold findSwept?
  simp only [alike.find?_eq, alike.sweep?_eq, isRestless_mapSets, alike.stop]

end Haystack.Alike

namespace Scanner

/-- The scanner with the sets of its branches exchanged. -/
def mapSets (f : Regex.CharSet → Regex.CharSet) (s : Scanner) : Scanner :=
  ⟨s.branches.map fun (hit, branch) => (hit, branch.mapSets f)⟩

theorem mapSets_id (s : Scanner) : s.mapSets id = s := by
  simp [mapSets, Regex.mapSets_id]

variable {f g : Regex.CharSet → Regex.CharSet} {h h' : Haystack}

theorem find?_eq (alike : Haystack.Alike f g h h') (s : Scanner) (p : Nat) :
    (s.mapSets f).find? h p = (s.mapSets g).find? h' p := by
  have hat : (s.mapSets f).hitAt? h = (s.mapSets g).hitAt? h' := by
    funext q
    simp only [hitAt?, mapSets, List.findSome?_map, Function.comp_def, alike.endAt?_eq]
  unfold find?
  rw [hat, alike.first?_eq]

end Scanner

end Highlighter
