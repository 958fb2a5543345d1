import Highlighter.Regex.Path

/-!
Where a regular expression matches. `Regex.endAt?` is the preferred end of a match that starts at
a given position, and `Regex.find?` the leftmost match. A search sees the text in front of it but
nothing behind the end of its region.
-/

namespace Highlighter.Regex

/-- The preferred end that some paths at `p` come to, where `best` is the latest end met, which
all paths left are preferred to. -/
def endFrom? (h : Haystack) (parts p : Nat) (paths : List Path) (best : Option Nat) : Option Nat :=
  let stops := settle (·.holds h p) false paths (.none parts)
  let best := if isOver stops then some p else best
  let live := pass h p stops
  if p < h.stop ∧ !live.isEmpty then endFrom? h parts (p + 1) live best else best
termination_by h.stop - p

/-- An end lies between the place that has been reached and the end of the region. -/
theorem endFrom?_bounds {h : Haystack} {parts p e : Nat} {paths : List Path} {best : Option Nat}
    (he : endFrom? h parts p paths best = some e) :
    best = some e ∨ p ≤ e ∧ e ≤ max p h.stop := by
  fun_induction endFrom? h parts p paths best with
  | case1 p paths best stops best' live hlive ih =>
    rcases ih he with hb | hb
    · simp only [best'] at hb
      split at hb
      · cases hb
        omega
      · exact .inl hb
    · omega
  | case2 p paths best stops best' live hlive =>
    simp only [best'] at he
    split at he
    · cases he
      omega
    · exact .inl he

/-- The preferred end of a match that starts at `p`. -/
def endAt? (r : Regex) (h : Haystack) (p : Nat) : Option Nat :=
  endFrom? h r.parts p [r.start] none

theorem endAt?_bounds {r : Regex} {h : Haystack} {p e : Nat} (he : r.endAt? h p = some e) :
    p ≤ e ∧ e ≤ max p h.stop := by
  rcases endFrom?_bounds he with hb | hb
  · cases hb
  · exact hb

/-- An expression that is one character matches that character and nothing else. -/
theorem endAt?_char (set : CharSet) (h : Haystack) (p : Nat) :
    (char set).endAt? h p = if set.hasAt h p then some (p + 1) else none := by
  have hstart : ∀ q,
      settle (·.holds h q) false [(char set).start] (.none 1) = [(char set).start] := by
    intro q
    simp [settle, start, Marks.none, Marks.isFree]
  have hend : ∀ q, settle (·.holds h q) false [[]] (.none 1) = [[]] := by
    intro q
    simp [settle]
  unfold endAt? parts
  rw [endFrom?, hstart]
  by_cases hat : set.hasAt h p
  · have hlt := CharSet.lt_stop_of_hasAt hat
    rw [endFrom?]
    simp [pass, pass?, start, isOver, hat, hlt, hend]
  · simp [pass, pass?, start, isOver, hat]

/-- The leftmost match that starts at `p` or later, as start and end. -/
def find? (r : Regex) (h : Haystack) (p : Nat) : Option (Nat × Nat) := h.first? (r.endAt? h) p

theorem find?_bounds {r : Regex} {h : Haystack} {p first last : Nat}
    (hf : r.find? h p = some (first, last)) : p ≤ first ∧ first ≤ last ∧ last ≤ h.stop := by
  obtain ⟨hle, hstop, hend, _⟩ := Haystack.first?_eq_some hf
  have hbounds := endAt?_bounds hend
  omega

end Highlighter.Regex
