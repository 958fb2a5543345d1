import Highlighter.Grammar.Compile

/-!
Keyword lists that can be read. The words of a list are not empty, and an entry can be read when it is
not empty and has no weight.
-/

namespace Highlighter

namespace Text

/-- How `words` goes back over a text: the characters of the word it is in, and the words behind. -/
def backOver (c : Char) (acc : List Char × List String) : List Char × List String :=
  if isSpace c then ([], if acc.1.isEmpty then acc.2 else String.ofList acc.1 :: acc.2)
  else (c :: acc.1, acc.2)

/-- A text that is not empty and whose characters are among some characters. -/
def Within (cs : List Char) (w : String) : Prop := w.isEmpty = false ∧ ∀ c ∈ w.toList, c ∈ cs

theorem within_cut {cs : List Char} {acc : List Char × List String}
    (hword : ∀ c ∈ acc.1, c ∈ cs) (hwords : ∀ w ∈ acc.2, Within cs w) :
    ∀ w ∈ if acc.1.isEmpty then acc.2 else String.ofList acc.1 :: acc.2, Within cs w := by
  split
  · exact hwords
  · rename_i hne
    refine List.forall_mem_cons.2 ⟨⟨?_, ?_⟩, hwords⟩
    · simpa [String.isEmpty_iff] using hne
    · simpa using hword

theorem within_backOver (cs : List Char) :
    (∀ c ∈ (cs.foldr backOver ([], [])).1, c ∈ cs) ∧
      ∀ w ∈ (cs.foldr backOver ([], [])).2, Within cs w := by
  induction cs with
  | nil => exact ⟨nofun, nofun⟩
  | cons c cs ih =>
    have hword : ∀ d ∈ (cs.foldr backOver ([], [])).1, d ∈ c :: cs :=
      fun d hd => List.mem_cons_of_mem c (ih.1 d hd)
    have hwords : ∀ w ∈ (cs.foldr backOver ([], [])).2, Within (c :: cs) w :=
      fun w hw => ⟨(ih.2 w hw).1, fun d hd => List.mem_cons_of_mem c ((ih.2 w hw).2 d hd)⟩
    rw [List.foldr_cons]
    unfold backOver
    split
    · exact ⟨nofun, within_cut hword hwords⟩
    · exact ⟨List.forall_mem_cons.2 ⟨List.mem_cons_self .., hword⟩, hwords⟩

/-- A word is not empty, and its characters stand in the text. -/
theorem within_of_mem_words {s w : String} (h : w ∈ words s) : Within s.toList w := by
  obtain ⟨hword, hwords⟩ := within_backOver s.toList
  exact within_cut hword hwords w h

end Text

/-- A walk is not stopped just if no step of it is. -/
theorem exists_mapM_iff {ε α β : Type} {f : α → Except ε β} {as : List α} :
    (∃ bs, as.mapM f = .ok bs) ↔ ∀ a ∈ as, ∃ b, f a = .ok b := by
  induction as with
  | nil => exact ⟨fun _ => nofun, fun _ => ⟨[], rfl⟩⟩
  | cons a as ih =>
    rw [List.forall_mem_cons, ← ih, List.mapM_cons]
    constructor
    · rintro ⟨bs, h⟩
      obtain ⟨b, hb, h⟩ := Compile.bind_eq_ok h
      obtain ⟨rest, hrest, -⟩ := Compile.bind_eq_ok h
      exact ⟨⟨b, hb⟩, rest, hrest⟩
    · rintro ⟨⟨b, hb⟩, rest, hrest⟩
      exact ⟨b :: rest, by rw [hb, hrest]; rfl⟩

theorem exists_bind_pure_iff {ε α β : Type} {x : Except ε α} {f : α → β} :
    (∃ b, (do return f (← x)) = Except.ok b) ↔ ∃ a, x = .ok a := by
  cases x with
  | error e => exact ⟨nofun, nofun⟩
  | ok a => exact ⟨fun _ => ⟨a, rfl⟩, fun _ => ⟨f a, rfl⟩⟩

namespace Keyword

/-- A weight as it is written: a number below 2^32 in decimal digits, with or without a plus sign. -/
def IsWeight (s : String) : Prop :=
  ∃ digits : List Char, (s.toList = digits ∨ s.toList = '+' :: digits) ∧ digits ≠ [] ∧
    (∀ c ∈ digits, c.isDigit = true) ∧ Nat.ofDigitChars 10 digits 0 < UInt32.size

/-- An entry of a keyword list that can be read: a word, or a word, a bar and a weight. -/
def IsEntry (entry : String) : Prop :=
  ∃ word : String, word ≠ "" ∧ '|' ∉ word.toList ∧
    (entry = word ∨ ∃ weight, IsWeight weight ∧ entry = word ++ "|" ++ weight)

/-- A weight as it is written, and the number that it is. -/
def Weighs (s : String) (n : Nat) : Prop :=
  ∃ digits : List Char, (s.toList = digits ∨ s.toList = '+' :: digits) ∧ digits ≠ [] ∧
    (∀ c ∈ digits, c.isDigit = true) ∧ Nat.ofDigitChars 10 digits 0 = n ∧ n < UInt32.size

theorem isWeight_iff {s : String} : IsWeight s ↔ ∃ n, Weighs s n := by
  constructor
  · rintro ⟨digits, hs, hne, hdigits, hlt⟩
    exact ⟨_, digits, hs, hne, hdigits, rfl, hlt⟩
  · rintro ⟨_, digits, hs, hne, hdigits, rfl, hlt⟩
    exact ⟨digits, hs, hne, hdigits, hlt⟩

theorem weight?_eq_some_iff {s : String} {n : Nat} : weight? s = some n ↔ Weighs s n := by
  have hread : ∀ digits : List Char, (if (!digits.isEmpty && digits.all Char.isDigit &&
      decide (Nat.ofDigitChars 10 digits 0 < UInt32.size)) = true
      then some (Nat.ofDigitChars 10 digits 0) else none) = some n ↔
        digits ≠ [] ∧ (∀ c ∈ digits, c.isDigit = true) ∧
          Nat.ofDigitChars 10 digits 0 = n ∧ n < UInt32.size := by
    intro digits
    rw [Option.ite_none_right_eq_some]
    simp only [Bool.and_eq_true, Bool.not_eq_true', List.isEmpty_eq_false_iff, List.all_eq_true,
      decide_eq_true_eq, Option.some.injEq, and_assoc]
    constructor
    · rintro ⟨hne, hdigits, hlt, rfl⟩
      exact ⟨hne, hdigits, rfl, hlt⟩
    · rintro ⟨hne, hdigits, rfl, hlt⟩
      exact ⟨hne, hdigits, hlt, rfl⟩
  unfold weight? Weighs
  split
  · rename_i rest hplus
    refine (hread rest).trans ⟨fun h => ⟨rest, .inr hplus, h⟩, ?_⟩
    rintro ⟨digits, rfl | hdigits, h⟩
    · have hdigit := h.2.1 '+' (hplus ▸ List.mem_cons_self)
      exact absurd hdigit (by decide)
    · cases hplus.symm.trans hdigits
      exact h
  · rename_i cs hplus
    refine (hread s.toList).trans ⟨fun h => ⟨s.toList, .inl rfl, h⟩, ?_⟩
    rintro ⟨digits, rfl | hdigits, h⟩
    · exact h
    · exact absurd hdigits (hplus digits)

theorem isSome_weight?_iff {s : String} : (weight? s).isSome = true ↔ IsWeight s := by
  simp only [Option.isSome_iff_exists, weight?_eq_some_iff, isWeight_iff]

section Entry

variable (caseless : Bool) (kind : Kind) {word : String} (hbar : '|' ∉ word.toList)

include hbar

theorem readEntry?_word : readEntry? caseless kind word = if word = "" then none else
    some (normalize caseless word, ⟨kind, defaultRelevance (normalize caseless word)⟩) := by
  have hall : ∀ c ∈ word.toList, (c != '|') = true :=
    fun c hc => bne_iff_ne.2 fun heq => hbar (heq ▸ hc)
  have htake : word.toList.takeWhile (· != '|') = word.toList := by
    rw [← List.append_nil word.toList, List.takeWhile_append_of_pos hall, List.takeWhile_nil]
  have hdrop : word.toList.dropWhile (· != '|') = [] := by
    rw [← List.append_nil word.toList, List.dropWhile_append_of_pos hall, List.dropWhile_nil]
  simp [ readEntry?, htake, hdrop]

theorem readEntry?_weighted (weight : String) :
    readEntry? caseless kind (word ++ "|" ++ weight) = if word = "" then none else
      (weight? weight).map fun n => (normalize caseless word, ⟨kind, n⟩) := by
  have hall : ∀ c ∈ word.toList, (c != '|') = true :=
    fun c hc => bne_iff_ne.2 fun heq => hbar (heq ▸ hc)
  have hentry : (word ++ "|" ++ weight).toList = word.toList ++ '|' :: weight.toList := by
    simp [String.toList_append]
  have htake : (word.toList ++ '|' :: weight.toList).takeWhile (· != '|') = word.toList := by
    rw [List.takeWhile_append_of_pos hall]
    simp
  have hdrop : (word.toList ++ '|' :: weight.toList).dropWhile (· != '|') =
      '|' :: weight.toList := by
    rw [List.dropWhile_append_of_pos hall]
    simp
  unfold readEntry?
  simp only [hentry, htake, hdrop, String.ofList_toList, String.isEmpty_iff]

end Entry

/-- The word of an entry is what stands in front of its first bar, and its weight all that stands
behind that. An entry without a bar has no weight. -/
def Parts (entry word : String) : Option String → Prop
  | none => '|' ∉ word.toList ∧ entry = word
  | some weight => '|' ∉ word.toList ∧ entry = word ++ "|" ++ weight

theorem exists_parts (entry : String) : ∃ word weight?, Parts entry word weight? := by
  by_cases hbar : '|' ∈ entry.toList
  · obtain ⟨word, weight, hsplit, hword⟩ := List.eq_append_cons_of_mem hbar
    refine ⟨String.ofList word, some (String.ofList weight), by rwa [String.toList_ofList], ?_⟩
    apply String.toList_injective
    simp [hsplit]
  · exact ⟨entry, none, hbar, rfl⟩

theorem isSome_readEntry?_iff {caseless : Bool} {kind : Kind} {entry : String} :
    ( readEntry? caseless kind entry).isSome = true ↔ IsEntry entry := by
  constructor
  · intro h
    obtain ⟨word, weight?, hparts⟩ := exists_parts entry
    cases weight? with
    | none =>
      obtain ⟨hbar, rfl⟩ := hparts
      rw [readEntry?_word caseless kind hbar] at h
      exact ⟨entry, by rintro rfl; simp at h, hbar, .inl rfl⟩
    | some weight =>
      obtain ⟨hbar, rfl⟩ := hparts
      rw [readEntry?_weighted caseless kind hbar] at h
      split at h
      · cases h
      · rename_i hne
        rw [Option.isSome_map, isSome_weight?_iff] at h
        exact ⟨word, hne, hbar, .inr ⟨weight, h, rfl⟩⟩
  · rintro ⟨word, hne, hbar, rfl | ⟨weight, hweight, rfl⟩⟩
    · rw [readEntry?_word caseless kind hbar, if_neg hne, Option.isSome_some]
    · rw [readEntry?_weighted caseless kind hbar, if_neg hne, Option.isSome_map]
      exact isSome_weight?_iff.2 hweight

end Keyword

theorem KeywordTable.caseless_of_ofLists {lists : List (Kind × WordList)} {caseless : Bool}
    {table : KeywordTable} (h : ofLists lists caseless = .ok table) : table.caseless = caseless := by
  obtain ⟨read, -, h⟩ := Compile.bind_eq_ok h
  cases h
  rfl

/-- Keyword lists can be read just if each of their entries can be. -/
theorem KeywordTable.exists_ofLists_iff {lists : List (Kind × WordList)} {caseless : Bool} :
    (∃ table, ofLists lists caseless = .ok table) ↔
      ∀ item ∈ lists, ∀ entry ∈ item.2.entries, Keyword.IsEntry entry := by
  unfold ofLists
  rw [exists_bind_pure_iff, exists_mapM_iff]
  simp only [List.mem_flatMap, List.mem_map]
  constructor
  · intro h item hitem entry hentry
    obtain ⟨read, hread⟩ := h (item.1, entry) ⟨item, hitem, entry, hentry, rfl⟩
    split at hread
    · rename_i found
      exact Keyword.isSome_readEntry?_iff.1 (Option.isSome_of_eq_some found)
    · cases hread
  · rintro h _ ⟨item, hitem, entry, hentry, rfl⟩
    obtain ⟨read, hread⟩ := Option.isSome_iff_exists.1
      ((@Keyword.isSome_readEntry?_iff caseless item.1 entry).2 (h item hitem entry hentry))
    exact ⟨read, by simp only [hread]⟩

/-- Keyword lists can be read if no entry is empty or has a weight. -/
theorem KeywordTable.exists_ofLists {lists : List (Kind × WordList)} (caseless : Bool)
    (h : ∀ item ∈ lists, ∀ entry ∈ item.2.entries, entry.isEmpty = false ∧ '|' ∉ entry.toList) :
    ∃ table, ofLists lists caseless = .ok table :=
  exists_ofLists_iff.2 fun item hitem entry hentry => by
    obtain ⟨hne, hbar⟩ := h item hitem entry hentry
    exact ⟨entry, by simpa using hne, hbar, .inl rfl⟩

end Highlighter
