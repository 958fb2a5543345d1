import Highlighter.Proofs.Search.Branches

/-!
Characters one after the other. A sequence of sets of characters matches where the text goes on with
a character of each set in turn, and nowhere else.
-/

namespace Highlighter

/-- Where characters of some sets end that stand at a position one after the other, if they do. -/
def Haystack.passed? (h : Haystack) (p : Nat) : List Regex.CharSet → Option Nat
  | [] => some p
  | set :: sets => if set.hasAt h p then h.passed? (p + 1) sets else none

namespace Regex

theorem CharSet.hasAt_one {c : Char} {h : Haystack} {p : Nat} :
    (CharSet.one c).hasAt h p = true ↔ h.char? p = some c := by
  unfold hasAt
  cases h.char? p <;> simp [has]

/-- Sets of one character each are passed where those characters are spelled. -/
theorem passed?_map_one (h : Haystack) (p : Nat) (cs : List Char) :
    h.passed? p (cs.map .one) = h.spelled? p cs := by
  induction cs generalizing p with
  | nil => rfl
  | cons c cs ih =>
    simp only [List.map_cons, Haystack.passed?, Haystack.spelled?, CharSet.hasAt_one, ih]

theorem parts_sequence_chars (sets : List CharSet) :
    (sequence (sets.map char)).parts = sets.length := by
  induction sets with
  | nil => rfl
  | cons set sets ih =>
    cases sets with
    | nil => rfl
    | cons set' sets =>
      rw [List.map_cons, List.map_cons, sequence, parts, ← List.map_cons, ih, parts]
      · exact Nat.add_comm ..
      · rintro ⟨⟩

/-- A path at its end has come to where it stands. -/
theorem endFrom?_ended (h : Haystack) (parts p : Nat) (best : Option Nat) :
    endFrom? h parts p [[]] best = some p := by
  rw [endFrom?_eq, settle_ended]
  simp [isOver, pass, endFrom?_nil]

/-- A path that asks for a character goes on behind it. -/
theorem endFrom?_char (h : Haystack) {parts p number : Nat} (hn : number < parts) (set : CharSet)
    (tasks : Path) : endFrom? h parts p [.part (char set) number :: tasks] none =
      if set.hasAt h p then endFrom? h parts (p + 1) [tasks] none else none := by
  have hfree : (Marks.none parts).isFree number = true := by simpa [Marks.isFree_none] using hn
  have hsettle : settle (·.holds h p) false [.part (char set) number :: tasks] (.none parts) =
      [.part (char set) number :: tasks] := by
    rw [settle_stop rfl hfree, settle_nil]
  rw [endFrom?_eq, hsettle]
  cases hat : set.hasAt h p with
  | false => simp [isOver, pass?, hat, pass, endFrom?_nil]
  | true => simp [isOver, pass?, hat, pass, CharSet.lt_stop_of_hasAt hat]

theorem endFrom?_sequence_chars (h : Haystack) (sets : List CharSet) {parts p number : Nat}
    (hn : number + sets.length ≤ parts) :
    endFrom? h parts p [[.part (sequence (sets.map char)) number]] none = h.passed? p sets := by
  induction sets generalizing p number with
  | nil =>
    have hempty : ∀ m, settle (·.holds h p) false [[.part empty number]] m =
        settle (·.holds h p) false [[]] m := fun m => @settle_go _ [.part empty number] _ [] m rfl
    exact (endFrom?_congr (hempty _) none).trans (endFrom?_ended h parts p none)
  | cons set sets ih =>
    rw [List.length_cons] at hn
    cases sets with
    | nil =>
      rw [Haystack.passed?, Haystack.passed?, ← endFrom?_ended h parts (p + 1) none]
      exact endFrom?_char h (by omega) set []
    | cons set' sets =>
      let rest := sequence ((set' :: sets).map char)
      have hsplit : ∀ m, settle (·.holds h p) false [[.part (seq (char set) rest) number]] m =
          settle (·.holds h p) false [[.part (char set) number, .part rest (number + 1)]] m :=
        fun m => @settle_go _ [.part (seq (char set) rest) number] _ [] m rfl
      change endFrom? h parts p [[.part (seq (char set) rest) number]] none = _
      rw [endFrom?_congr (hsplit _), endFrom?_char h (by omega), ih (by omega)]
      rfl

/-- Characters one after the other match where each set in turn has the next character. -/
theorem endAt?_sequence_chars (sets : List CharSet) (h : Haystack) (p : Nat) :
    (sequence (sets.map char)).endAt? h p = h.passed? p sets := by
  refine endFrom?_sequence_chars h sets (Nat.le_of_eq ?_)
  rw [parts_sequence_chars, Nat.zero_add]

/-- One character behind another. -/
theorem endAt?_chars (a b : CharSet) (h : Haystack) (p : Nat) :
    (seq (char a) (char b)).endAt? h p =
      if a.hasAt h p && b.hasAt h (p + 1) then some (p + 2) else none := by
  refine (endAt?_sequence_chars [a, b] h p).trans ?_
  simp only [Haystack.passed?]
  cases a.hasAt h p <;> rfl

end Regex

end Highlighter
