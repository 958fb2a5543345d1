import Highlighter.Regex.Search

/-!
Searching one character after the other, with all paths kept side by side. What stands in
front of a position is known when the paths reach it, and what stands behind only with the next
character, so paths first stop at conditions on the latter and go on from there later. That makes
a difference only where such a condition stands in a repetition whose body may match nothing:
there the way from the condition leads back to the beginning of the body once more.
-/

namespace Highlighter.Regex

/-- Whether an expression has a condition in it. -/
def looks : Regex → Bool
  | look _ => true
  | empty | char _ => false
  | seq r s | alt r s => r.looks || s.looks
  | opt _ body | plus _ body | star _ body | group _ body => body.looks

/-- Whether a condition stands in a repetition whose body may match nothing. -/
def isRestless : Regex → Bool
  | plus _ body => body.nullable && body.looks || body.isRestless
  | opt _ body | star _ body | group _ body => body.isRestless
  | seq r s | alt r s => r.isRestless || s.isRestless
  | empty | char _ | look _ => false

/-- Whether a condition is one on words. -/
def Anchor.isOnWords : Anchor → Bool
  | textStart | textEnd | lineStart _ | lineEnd _ => false
  | _ => true

/-- Whether an expression has a condition on words in it. -/
def looksAtWords : Regex → Bool
  | look anchor => anchor.isOnWords
  | empty | char _ => false
  | seq r s | alt r s => r.looksAtWords || s.looksAtWords
  | opt _ body | plus _ body | star _ body | group _ body => body.looksAtWords

/-- Whether an anchor is seen to hold by what is in front of a position. -/
def Anchor.knownAt (anchor : Anchor) (h : Haystack) (p : Nat) : Bool :=
  match anchor with
  | textStart | lineStart false | wordStartHalf => anchor.holds h p
  | lineStart true => p == 0 || h.before? p == some '\n'
  | _ => false

/-- Where the paths at a position stop, once it is known what stands behind the position. Unless
that lets one of them go on, they stay where they stopped before. -/
def stopsAt (r : Regex) (h : Haystack) (p : Nat) (paths : List Path) : List Path :=
  let first := settle (·.knownAt h p) true paths (.none r.parts)
  let goesOn : Path → Bool
    | .part (look anchor) _ :: _ => anchor.holds h p && !anchor.knownAt h p
    | _ => false
  if first.any goesOn then settle (·.holds h p) true first (.none r.parts) else first

/-- The preferred end of the leftmost match. As long as there is none, a path begins at each
position. If `ascii`, the search is given up at a character that is not ASCII, up to the one that
follows the character behind the match. -/
def sweepFrom (r : Regex) (h : Haystack) (ascii : Bool) (p : Nat) (paths : List Path)
    (found : Option Nat) : Option Nat :=
  let stuck (p : Nat) : Bool := ascii && (h.char? p).any (0x80 ≤ ·.toNat)
  let paths := if found.isNone then paths ++ [r.start] else paths
  let stops := stopsAt r h p paths
  let ended := isOver stops
  let found := if ended then some p else found
  let live := pass h p stops
  if stuck p then none
  else if live.isEmpty && found.isSome then if ended && stuck (p + 1) then none else found
  else if p < h.stop then sweepFrom r h ascii (p + 1) live found
  else found
termination_by h.stop - p

/-- The end of the leftmost match from a position on, for an expression that is restless. -/
def sweep? (r : Regex) (h : Haystack) (p : Nat) : Option Nat :=
  let ascii := r.looksAtWords
  if ascii && (h.before? p).any (0x80 ≤ ·.toNat) then none
  else sweepFrom r h ascii p [] none

/-- The leftmost match that starts at `p` or later, as start and end, where the end is looked
for in one sweep if that is possible. -/
def findSwept? (r : Regex) (h : Haystack) (p : Nat) : Option (Nat × Nat) :=
  (r.find? h p).map fun (first, last) =>
    if r.isRestless then
      (first, ((r.sweep? h p).filter fun e => first ≤ e ∧ e ≤ h.stop).getD last)
    else (first, last)

theorem findSwept?_bounds {r : Regex} {h : Haystack} {p first last : Nat}
    (hf : r.findSwept? h p = some (first, last)) : p ≤ first ∧ first ≤ last ∧ last ≤ h.stop := by
  unfold findSwept? at hf
  obtain ⟨⟨start, stop⟩, hfind, heq⟩ := Option.map_eq_some_iff.1 hf
  have hbounds := find?_bounds hfind
  simp only at heq
  split at heq
  · obtain ⟨rfl, rfl⟩ := Prod.mk.inj heq
    cases hs : (r.sweep? h p).filter fun e => start ≤ e ∧ e ≤ h.stop with
    | none => exact hbounds
    | some e =>
      have hkept := (Option.filter_eq_some_iff.1 hs).2
      simp only [decide_eq_true_eq] at hkept
      simp only [Option.getD_some]
      omega
  · obtain ⟨rfl, rfl⟩ := Prod.mk.inj heq
    exact hbounds

end Highlighter.Regex
