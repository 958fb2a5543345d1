/-!
A text to be highlighted. Positions inside the program count characters, positions in
its answers count bytes; `Source.byte` goes from the one to the other.
-/

namespace Highlighter

/-- The byte offset of each character and, last, of the end. -/
def byteOffsets (chars : Array Char) : Array Nat :=
  (chars.toList.scanl (fun n c => n + c.utf8Size) 0).toArray

/-- The characters of a text with their byte offsets. -/
structure Source where
  chars : Array Char
  offsets : Array Nat
  offsets_eq : offsets = byteOffsets chars

namespace Source

def ofString (s : String) : Source :=
  let chars := s.toList.toArray
  ⟨chars, byteOffsets chars, rfl⟩

/-- The number of characters. -/
def size (s : Source) : Nat := s.chars.size

/-- The byte offset of a character position. -/
def byte (s : Source) (i : Nat) : Nat := (s.offsets[i]?).getD 0

/-- The text between two character positions. -/
def slice (s : Source) (start stop : Nat) : String :=
  String.ofList (s.chars.extract start stop).toList

private theorem foldl_utf8Size (cs : List Char) (n : Nat) :
    cs.foldl (fun n c => n + c.utf8Size) n = n + (String.ofList cs).utf8ByteSize := by
  induction cs generalizing n with
  | nil => simp
  | cons c cs ih =>
    rw [List.foldl_cons, ih, String.ofList_cons, String.utf8ByteSize_append,
      String.utf8ByteSize_singleton, Nat.add_assoc]

/-- The byte offset of a position is the size of the text in front of it. -/
theorem byte_eq (s : Source) {i : Nat} (h : i ≤ s.size) :
    s.byte i = (s.slice 0 i).utf8ByteSize := by
  have hlen : i ≤ s.chars.toList.length := h
  have hoffset : s.offsets[i]? = some ((s.chars.toList.take i).foldl (· + ·.utf8Size) 0) := by
    rw [s.offsets_eq, byteOffsets, List.getElem?_toArray, List.getElem?_scanl, if_pos hlen]
  simp [byte, slice, hoffset, foldl_utf8Size]

theorem slice_append (s : Source) {a b c : Nat} (hab : a ≤ b) (hbc : b ≤ c) :
    s.slice a b ++ s.slice b c = s.slice a c := by
  unfold slice
  rw [← String.ofList_append, ← Array.toList_append]
  simp [Array.extract_append_extract, hab, hbc]

theorem slice_self (s : Source) (a : Nat) : s.slice a a = "" := by
  simp [slice]

theorem slice_all (text : String) : (ofString text).slice 0 (ofString text).size = text := by
  simp [slice, size, ofString]

theorem byte_lt_byte (s : Source) {i j : Nat} (hij : i < j) (hj : j ≤ s.size) :
    s.byte i < s.byte j := by
  have hne : s.slice i j ≠ "" := by
    have hlen : (s.chars.extract i j).size = j - i := by
      rw [Array.size_extract]
      unfold size at hj
      omega
    intro h
    have hnil : (s.chars.extract i j).toList = [] := String.ofList_eq_empty_iff.1 h
    have hzero : (s.chars.extract i j).size = 0 := by
      rw [← Array.length_toList, hnil, List.length_nil]
    omega
  have hpos : 0 < (s.slice i j).utf8ByteSize :=
    Nat.pos_of_ne_zero fun h => hne (String.utf8ByteSize_eq_zero_iff.1 h)
  rw [s.byte_eq hj, s.byte_eq (by omega), ← s.slice_append (Nat.zero_le i) (Nat.le_of_lt hij),
    String.utf8ByteSize_append]
  omega

end Source

end Highlighter
