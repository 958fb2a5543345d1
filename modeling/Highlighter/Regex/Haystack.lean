import Highlighter.Regex.Basic

/-!
The text that a regular expression is searched in, and where its conditions hold. A search
sees the text in front of it but nothing behind the end of its region.
-/

namespace Highlighter

/-- A text that ends, as far as a search can see, at `stop`. -/
structure Haystack where
  chars : Array Char
  stop : Nat

/-- The character at a position inside the region. -/
def Haystack.char? (h : Haystack) (i : Nat) : Option Char :=
  if i < h.stop then h.chars[i]? else none

/-- The character in front of a position. -/
def Haystack.before? (h : Haystack) (i : Nat) : Option Char :=
  if i = 0 then none else h.char? (i - 1)

/-- The first position from `p` on where something is found, and what is found there. -/
def Haystack.first? {α : Type} (h : Haystack) (found? : Nat → Option α) (p : Nat) :
    Option (Nat × α) :=
  if p ≤ h.stop then
    match found? p with
    | some a => some (p, a)
    | none => h.first? found? (p + 1)
  else none
termination_by h.stop + 1 - p

/-- What is found is the first there is. -/
theorem Haystack.first?_eq_some {α : Type} {h : Haystack} {found? : Nat → Option α} {p q : Nat}
    {a : α} (hf : h.first? found? p = some (q, a)) :
    p ≤ q ∧ q ≤ h.stop ∧ found? q = some a ∧ ∀ r, p ≤ r → r < q → found? r = none := by
  fun_induction h.first? found? p with
  | case1 p hp b hb =>
    cases hf
    exact ⟨Nat.le_refl _, hp, hb, fun r h1 h2 => absurd h2 (by omega)⟩
  | case2 p hp hn ih =>
    obtain ⟨hle, hstop, hfound, hbefore⟩ := ih hf
    refine ⟨by omega, hstop, hfound, fun r h1 h2 => ?_⟩
    by_cases hr : r = p
    · exact hr ▸ hn
    · exact hbefore r (by omega) h2
  | case3 p hp => cases hf

/-- Where some characters end that stand at a position, if they stand there. -/
def Haystack.spelled? (h : Haystack) (p : Nat) : List Char → Option Nat
  | [] => some p
  | c :: cs => if h.char? p = some c then h.spelled? (p + 1) cs else none

theorem Haystack.lt_stop_of_char? {h : Haystack} {i : Nat} {c : Char} (hc : h.char? i = some c) :
    i < h.stop := by
  unfold char? at hc
  split at hc
  · assumption
  · cases hc

/-- The characters spelled stand behind the position one after the other. -/
theorem Haystack.spelled?_eq_some {h : Haystack} {p q : Nat} {cs : List Char}
    (hs : h.spelled? p cs = some q) : q = p + cs.length ∧ (p ≤ h.stop → q ≤ h.stop) := by
  induction cs generalizing p with
  | nil =>
    cases hs
    exact ⟨rfl, id⟩
  | cons c cs ih =>
    simp only [spelled?] at hs
    split at hs
    · rename_i hc
      obtain ⟨hq, hle⟩ := ih hs
      refine ⟨?_, fun _ => hle (lt_stop_of_char? hc)⟩
      rw [hq, List.length_cons]
      omega
    · cases hs

namespace Regex

/-- Whether there are characters of words in front of a position and behind it. -/
private def wordSides (h : Haystack) (i : Nat) : Bool × Bool :=
  ((h.before? i).any Text.isWord, (h.char? i).any Text.isWord)

/-- Whether an anchor holds at a position. -/
def Anchor.holds (anchor : Anchor) (h : Haystack) (i : Nat) : Bool :=
  let before := h.before? i
  let after := h.char? i
  let sides := wordSides h i
  match anchor with
  | textStart => i == 0
  | textEnd => i == h.stop
  | lineStart false => i == 0 || before == some '\n'
  | lineStart true =>
    i == 0 || before == some '\n' || before == some '\r' && after != some '\n'
  | lineEnd false => i == h.stop || after == some '\n'
  | lineEnd true =>
    i == h.stop || after == some '\r' || after == some '\n' && before != some '\r'
  | wordEdge => sides.1 != sides.2
  | notWordEdge => sides.1 == sides.2
  | wordStart => !sides.1 && sides.2
  | wordEnd => sides.1 && !sides.2
  | wordStartHalf => !sides.1
  | wordEndHalf => !sides.2

/-- Anchors look at nothing but the ends of lines and the characters of words. -/
theorem Anchor.holds_congr_of_lines {h h' : Haystack} (stop : h.stop = h'.stop)
    (line : ∀ c, c = '\n' ∨ c = '\r' → ∀ i, h.char? i = some c ↔ h'.char? i = some c)
    (word : ∀ i, (h.char? i).any Text.isWord = (h'.char? i).any Text.isWord)
    (anchor : Anchor) (i : Nat) : anchor.holds h i = anchor.holds h' i := by
  have hafter : ∀ c, c = '\n' ∨ c = '\r' → (h.char? i == some c) = (h'.char? i == some c) := by
    intro c hc
    rw [Bool.eq_iff_iff, beq_iff_eq, beq_iff_eq]
    exact line c hc i
  have hbefore : ∀ c, c = '\n' ∨ c = '\r' →
      (h.before? i == some c) = (h'.before? i == some c) := by
    intro c hc
    unfold Haystack.before?
    split
    · rfl
    · rw [Bool.eq_iff_iff, beq_iff_eq, beq_iff_eq]
      exact line c hc (i - 1)
  have hsides : wordSides h i = wordSides h' i := by
    unfold wordSides Haystack.before?
    rw [word]
    split
    · rfl
    · rw [word]
  unfold holds
  simp only [bne, hsides, stop, hafter _ (.inl rfl), hafter _ (.inr rfl), hbefore _ (.inl rfl),
    hbefore _ (.inr rfl)]

/-- Texts that a search cannot tell apart have the same anchors. -/
theorem Anchor.holds_congr {h h' : Haystack} (stop : h.stop = h'.stop)
    (same : ∀ i, h.char? i = h'.char? i) (anchor : Anchor) (i : Nat) :
    anchor.holds h i = anchor.holds h' i :=
  anchor.holds_congr_of_lines stop (fun _ _ i => by rw [same]) (fun i => by rw [same]) i

/-- Whether a set has the character at a position. -/
def CharSet.hasAt (set : CharSet) (h : Haystack) (i : Nat) : Bool := (h.char? i).any set.has

theorem CharSet.lt_stop_of_hasAt {set : CharSet} {h : Haystack} {i : Nat}
    (hat : set.hasAt h i = true) : i < h.stop := by
  unfold hasAt at hat
  cases hc : h.char? i with
  | none => simp [hc] at hat
  | some c => exact Haystack.lt_stop_of_char? hc

end Regex

end Highlighter
