import Highlighter.Proofs.Keywords
import Highlighter.Proofs.Lowercase

/-!
What an entry of a keyword list says: a word, and how much the word tells about the language. Texts in
a list have the entries of one text in which they stand one after the other.
-/

namespace Highlighter

namespace Text

theorem words_eq (s : String) : words s = (backOver ' ' (s.toList.foldr backOver ([], []))).2 := rfl

theorem backOver_append (c : Char) (word : List Char) (words behind : List String) :
    backOver c (word, words ++ behind) =
      ((backOver c (word, words)).1, (backOver c (word, words)).2 ++ behind) := by
  unfold backOver
  split
  · split <;> rfl
  · rfl

/-- Words behind a text stay behind its words. -/
theorem foldr_backOver (cs : List Char) (behind : List String) :
    cs.foldr backOver ([], behind) = ((cs.foldr backOver ([], [])).1,
      (cs.foldr backOver ([], [])).2 ++ behind) := by
  induction cs with
  | nil => rfl
  | cons c cs ih => rw [List.foldr_cons, ih, backOver_append, List.foldr_cons]

/-- Where a blank stands in a text, no word goes on. -/
theorem words_append_blank (s t : String) : words (s ++ " " ++ t) = words s ++ words t := by
  have hsplit : (s ++ " " ++ t).toList = s.toList ++ ' ' :: t.toList := by
    simp [String.toList_append]
  have hblank : backOver ' ' (t.toList.foldr backOver ([], [])) = ([], words t) := rfl
  rw [words_eq (s ++ " " ++ t), hsplit, List.foldr_append, List.foldr_cons, hblank, foldr_backOver,
    backOver_append, words_eq s]

theorem words_intercalate (texts : List String) :
    words (" ".intercalate texts) = texts.flatMap words := by
  induction texts with
  | nil => rfl
  | cons first rest ih =>
    cases rest with
    | nil => rw [String.intercalate_singleton, List.flatMap_singleton]
    | cons second rest =>
      rw [String.intercalate_cons_cons, words_append_blank, ih, ← List.flatMap_cons]

end Text

/-- The keywords of a list of texts, written as one text. -/
def WordList.inOneText : WordList → WordList
  | .text words => .text words
  | .list words => .text (" ".intercalate words)

theorem WordList.entries_inOneText (list : WordList) : list.inOneText.entries = list.entries := by
  cases list with
  | text words => rfl
  | list words => exact Text.words_intercalate words

namespace Keyword

/-- An entry that cannot be read: its word is empty, or its weight is not a number below 2^32. -/
def Malformed (entry : String) : Prop :=
  ∃ word weight?, Parts entry word weight? ∧
    (word = "" ∨ ∃ weight, weight? = some weight ∧ ∀ n, ¬ Weighs weight n)

/-- What an entry says: a word, spelled as it is there, and its relevance, which is the weight if the
entry has one. If it has none, a word that is common in any case tells nothing, and others 1. -/
def Says (entry word : String) (relevance : Nat) : Prop :=
  word ≠ "" ∧
    ((∃ weight, Parts entry word (some weight) ∧ Weighs weight relevance) ∨
      Parts entry word none ∧ relevance = if Text.lowercase word ∈ commonWords then 0 else 1)

variable {caseless : Bool} {kind : Kind} {entry : String}

/-- The form of a word is as common as the word. -/
theorem defaultRelevance_normalize (caseless : Bool) (word : String) :
    defaultRelevance (normalize caseless word) =
      if Text.lowercase word ∈ commonWords then 0 else 1 := by
  unfold defaultRelevance normalize
  cases caseless with
  | false => simp
  | true => simp [Text.lowercase_lowercase]

theorem readEntry?_eq_some_iff {item : String × Entry} :
    readEntry? caseless kind entry = some item ↔ ∃ word relevance, Says entry word relevance ∧
      item = (normalize caseless word, ⟨kind, relevance⟩) := by
  constructor
  · intro h
    obtain ⟨word, weight?, hparts⟩ := exists_parts entry
    cases weight? with
    | none =>
      obtain ⟨hbar, rfl⟩ := hparts
      rw [readEntry?_word caseless kind hbar, Option.ite_none_left_eq_some,
        defaultRelevance_normalize] at h
      obtain ⟨hne, hitem⟩ := h
      exact ⟨entry, _, ⟨hne, .inr ⟨⟨hbar, rfl⟩, rfl⟩⟩, (Option.some.inj hitem).symm⟩
    | some weight =>
      obtain ⟨hbar, rfl⟩ := hparts
      rw [readEntry?_weighted caseless kind hbar, Option.ite_none_left_eq_some,
        Option.map_eq_some_iff] at h
      obtain ⟨hne, n, hweight, rfl⟩ := h
      exact ⟨word, n, ⟨hne, .inl ⟨weight, ⟨hbar, rfl⟩, weight?_eq_some_iff.1 hweight⟩⟩, rfl⟩
  · rintro ⟨word, relevance, ⟨hne, ⟨weight, ⟨hbar, rfl⟩, hweight⟩ | ⟨⟨hbar, rfl⟩, rfl⟩⟩, rfl⟩
    · rw [readEntry?_weighted caseless kind hbar, if_neg hne, weight?_eq_some_iff.2 hweight,
        Option.map_some]
    · rw [readEntry?_word caseless kind hbar, if_neg hne, defaultRelevance_normalize]

theorem readEntry?_eq_none_iff : readEntry? caseless kind entry = none ↔ Malformed entry := by
  constructor
  · intro h
    obtain ⟨word, weight?, hparts⟩ := exists_parts entry
    by_cases hne : word = ""
    · exact ⟨word, weight?, hparts, .inl hne⟩
    refine ⟨word, weight?, hparts, .inr ?_⟩
    cases weight? with
    | none =>
      obtain ⟨hbar, rfl⟩ := hparts
      rw [readEntry?_word caseless kind hbar, if_neg hne] at h
      cases h
    | some weight =>
      obtain ⟨hbar, rfl⟩ := hparts
      rw [readEntry?_weighted caseless kind hbar, if_neg hne, Option.map_eq_none_iff] at h
      refine ⟨weight, rfl, fun n hweight => ?_⟩
      cases h.symm.trans (weight?_eq_some_iff.2 hweight)
  · rintro ⟨word, weight?, hparts, hfault⟩
    cases weight? with
    | none =>
      obtain ⟨hbar, rfl⟩ := hparts
      rcases hfault with rfl | ⟨weight, hnone, -⟩
      · rw [readEntry?_word caseless kind hbar, if_pos rfl]
      · cases hnone
    | some weight =>
      obtain ⟨hbar, rfl⟩ := hparts
      rw [readEntry?_weighted caseless kind hbar]
      rcases hfault with rfl | ⟨_, heq, hweight⟩
      · rw [if_pos rfl]
      · cases heq
        have hnone : weight? weight = none :=
          Option.eq_none_iff_forall_not_mem.2 fun n hn => hweight n (weight?_eq_some_iff.1 hn)
        rw [hnone, Option.map_none, ite_self]

theorem not_malformed_iff : ¬ Malformed entry ↔ IsEntry entry := by
  rw [← @readEntry?_eq_none_iff false .plain, ← @isSome_readEntry?_iff false .plain,
    Option.isSome_iff_ne_none]

end Keyword

end Highlighter
