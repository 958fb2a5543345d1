import Highlighter.Proofs.Candidates
import Highlighter.Proofs.Caseless.Reading
import Highlighter.Proofs.Twins.Text

/-!
Searching texts that differ in the case of letters only. What disregards case finds the same in both,
and positions count as many bytes in the one as in the other.
-/

namespace Highlighter

namespace Text

/-- The one character is there just if the other is, and they differ in case at most. -/
def SameButCase (x y : Option Char) : Prop := x.map Char.toLower = y.map Char.toLower

namespace SameButCase

variable {x y : Option Char} (h : SameButCase x y)

include h

theorem any_eq {f : Char → Bool} (hf : ∀ c, f (otherCase c) = f c) : x.any f = y.any f := by
  unfold SameButCase at h
  cases x with
  | none =>
    cases y with
    | none => rfl
    | some d => cases h
  | some c =>
    cases y with
    | none => cases h
    | some d => exact congr_of_toLower_eq hf (Option.some.inj h)

theorem eq_some_iff {c : Char} (hc : otherCase c = c) : x = some c ↔ y = some c := by
  have hany : ∀ x : Option Char, x = some c ↔ x.any (· == c) = true := by
    intro x
    cases x <;> simp
  rw [hany, hany, h.any_eq (beq_otherCase hc)]

end SameButCase

end Text

namespace Regex

open Classical in
/-- The set if it disregards case, and nothing otherwise. -/
noncomputable def CharSet.orNone (set : CharSet) : CharSet :=
  if set.IgnoresCase then set else .none

theorem CharSet.ignoresCase_orNone (set : CharSet) : set.orNone.IgnoresCase := by
  unfold orNone
  split
  · assumption
  · exact ignoresCase_none

theorem IgnoresCase.mapSets_orNone {r : Regex} (h : r.IgnoresCase) :
    r.mapSets CharSet.orNone = r := by
  induction r with
  | empty | look => rfl
  | char set =>
    have hset : set.IgnoresCase := h
    rw [mapSets, CharSet.orNone, if_pos hset]
  | seq r s ihr ihs | alt r s ihr ihs => rw [mapSets, ihr h.1, ihs h.2]
  | opt greedy body ih | plus greedy body ih | star greedy body ih | group name body ih =>
    rw [mapSets, ih h]

end Regex

namespace Haystack

open Regex Text

variable {h h' : Haystack}

/-- Two texts of one length that differ in case only. -/
structure SameButCase (h h' : Haystack) : Prop where
  stop : h.stop = h'.stop
  char : ∀ i, Text.SameButCase (h.char? i) (h'.char? i)

namespace SameButCase

variable (same : h.SameButCase h')

include same

/-- Such texts are the same to sets that disregard case. -/
theorem alike : Haystack.Alike CharSet.orNone CharSet.orNone h h' := by
  have hline : ∀ c, c = '\n' ∨ c = '\r' → ∀ i, h.char? i = some c ↔ h'.char? i = some c := by
    intro c hc i
    refine (same.char i).eq_some_iff ?_
    rcases hc with rfl | rfl <;> decide
  have hholds := fun (anchor : Anchor) i => anchor.holds_congr_of_lines same.stop hline
    (fun i => (same.char i).any_eq isWord_otherCase) i
  have hbefore : ∀ i, (h.before? i == some '\n') = (h'.before? i == some '\n') := by
    intro i
    unfold before?
    split
    · rfl
    · rw [Bool.eq_iff_iff, beq_iff_eq, beq_iff_eq]
      exact hline _ (.inl rfl) _
  exact {
    stop := same.stop
    hasAt := fun set i => (same.char i).any_eq set.ignoresCase_orNone
    holds := hholds
    knownAt := fun anchor i => by
      unfold Anchor.knownAt
      simp only [hholds, hbefore]
    wide := fun i => (same.char i).any_eq isWide_otherCase }

variable {r : Regex} (hr : r.IgnoresCase)

include hr

theorem endAt?_eq (p : Nat) : r.endAt? h p = r.endAt? h' p := by
  have heq := same.alike.endAt?_eq r p
  rwa [hr.mapSets_orNone] at heq

theorem find?_eq (p : Nat) : r.find? h p = r.find? h' p := by
  have heq := same.alike.find?_eq r p
  rwa [hr.mapSets_orNone] at heq

theorem findSwept?_eq (p : Nat) : r.findSwept? h p = r.findSwept? h' p := by
  have heq := same.alike.findSwept?_eq r p
  rwa [hr.mapSets_orNone] at heq

end SameButCase

end Haystack

/-- A scanner for patterns that match letters in either case. -/
def Scanner.IgnoresCase (s : Scanner) : Prop :=
  ∃ alternatives, Scanner.build? alternatives = some s ∧ ∀ a ∈ alternatives, a.IgnoresCase

theorem Scanner.foundAt?_congr {alternatives : List Alternative}
    (hall : ∀ a ∈ alternatives, a.IgnoresCase) {h h' : Haystack} (same : h.SameButCase h') (p : Nat) :
    foundAt? alternatives h p = foundAt? alternatives h' p := by
  unfold foundAt?
  induction alternatives with
  | nil => rfl
  | cons a rest ih =>
    obtain ⟨ha, hrest⟩ := List.forall_mem_cons.1 hall
    rw [List.findSome?_cons, List.findSome?_cons, same.endAt?_eq ha.regex, ih hrest]

/-- A scanner finds the same, whatever the case of the letters in the text. -/
theorem Scanner.IgnoresCase.find?_eq {s : Scanner} (hs : s.IgnoresCase) {h h' : Haystack}
    (same : h.SameButCase h') (p : Nat) : s.find? h p = s.find? h' p := by
  obtain ⟨alternatives, hbuild, hall⟩ := hs
  have hwhole : ∀ a ∈ alternatives, a.IsWhole := fun a ha => (hall a ha).whole
  rw [find?_eq_first? hbuild hwhole, find?_eq_first? hbuild hwhole,
    funext (foundAt?_congr hall same), same.alike.first?_eq]

namespace Source

theorem byteOffsets_congr {chars chars' : Array Char}
    (h : chars.toList.map Char.utf8Size = chars'.toList.map Char.utf8Size) :
    byteOffsets chars = byteOffsets chars' := by
  have hmap : ∀ cs : List Char, cs.scanl (fun n c => n + c.utf8Size) 0 =
      (cs.map Char.utf8Size).scanl (· + ·) 0 := by
    intro cs
    rw [List.scanl_map]
  unfold byteOffsets
  rw [hmap, hmap, h]

end Source

namespace Scan.Pairing

variable {w : Pairing}

/-- Two texts that differ in the case of letters only. -/
def SameButCase (w : Pairing) : Prop :=
  w.left.chars.toList.map Char.toLower = w.right.chars.toList.map Char.toLower

namespace SameButCase

variable (same : w.SameButCase)

include same

theorem haystack (stop : Nat) :
    Haystack.SameButCase ⟨w.left.chars, stop⟩ ⟨w.right.chars, stop⟩ where
  stop := rfl
  char := by
    intro i
    unfold Haystack.char? Text.SameButCase
    split
    · have hi := congrArg (·[i]?) same
      simpa using hi
    · rfl

theorem finds_regex {r : Regex} (hr : r.IgnoresCase) : w.Finds r.find? r.find? :=
  fun stop _ p => (same.haystack stop).find?_eq hr p

theorem finds_word {r : Regex} (hr : r.IgnoresCase) : w.Finds r.findSwept? r.findSwept? :=
  fun stop _ p => (same.haystack stop).findSwept?_eq hr p

theorem finds_scanner {s : Scanner} (hs : s.IgnoresCase) : w.Finds s.find? s.find? :=
  fun stop _ p => hs.find?_eq (same.haystack stop) p

theorem lowercase_slice (a b : Nat) :
    Text.lowercase (w.left.slice a b) = Text.lowercase (w.right.slice a b) := by
  have hslice : ((w.left.chars.toList.extract a b).map Char.toLower) =
      (w.right.chars.toList.extract a b).map Char.toLower := by
    simp only [List.extract_eq_take_drop, List.map_take, List.map_drop]
    rw [same]
  refine Text.lowercase_congr (Text.asciiLowercase_eq_iff.2 ?_)
  simpa [Source.slice] using hslice

theorem byte_eq (p : Nat) : w.left.byte p = w.right.byte p := by
  have hsizes := Text.map_congr_of_toLower_eq Text.utf8Size_otherCase same
  unfold Source.byte
  rw [w.left.offsets_eq, w.right.offsets_eq, Source.byteOffsets_congr hsizes]

theorem size_eq : w.left.size = w.right.size := by
  have hlength := congrArg List.length same
  simpa [Source.size] using hlength

end SameButCase

end Scan.Pairing

end Highlighter
