import Highlighter.Proofs.Reading.Choices
import Highlighter.Proofs.Reading.Words
import Highlighter.Proofs.Search.Characters
import Mathlib.Data.Set.List

/-!
What the words of a fragment match where case matters. A word is a sequence of certain characters, and
a choice between words has nothing to take out in front; where all words are single characters it is a
set of them. Either way the first word matches that the text goes on with.
-/

namespace Highlighter.Regex

namespace CharSet

theorem has_ofList (cs : List Char) (c : Char) : (ofList cs).has c = cs.contains c := by
  induction cs with
  | nil => rfl
  | cons d cs ih => exact (congrArg (c == d || ·) ih).trans List.contains_cons.symm

theorem eq_nil_of_ofList {cs : List Char} (h : ofList cs = none) : cs = [] := by
  cases cs with
  | nil => rfl
  | cons c cs => cases h

end CharSet

/-- A list of characters that is spelled like a single one has no other. -/
theorem eq_of_onlyChar?_ofList {cs : List Char} {d : Char}
    (h : onlyChar? (CharSet.ofList cs) = some d) : d ∈ cs ∧ ∀ c ∈ cs, c = d := by
  induction cs with
  | nil => cases h
  | cons c cs ih =>
    change onlyChar? (.union (.one c) (.ofList cs)) = some d at h
    rw [onlyChar?] at h
    split at h
    · rename_i hsame
      obtain ⟨hmem, hall⟩ := ih h
      rw [h] at hsame
      obtain rfl : c = d := by simpa [onlyChar?, CharSet.none] using hsame
      exact ⟨List.mem_cons_self .., List.forall_mem_cons.2 ⟨rfl, hall⟩⟩
    · split at h
      · rename_i hnone
        cases h
        rw [CharSet.eq_nil_of_ofList hnone]
        exact ⟨List.mem_singleton_self _, fun _ => List.eq_of_mem_singleton⟩
      · cases h

theorem has_tidied_ofList (cs : List Char) (c : Char) :
    (tidied (.ofList cs)).has c = cs.contains c := by
  unfold tidied
  split
  · rename_i d honly
    obtain ⟨hmem, hall⟩ := eq_of_onlyChar?_ofList honly
    rw [Bool.eq_iff_iff, CharSet.has, beq_iff_eq, List.contains_iff_mem]
    exact ⟨fun h => h ▸ hmem, hall c⟩
  · exact CharSet.has_ofList cs c

/-- What is joined to a set are sets. -/
theorem exists_char_of_unionOf? {rs : List Regex} {set : CharSet} (h : unionOf? rs = some set) :
    ∀ r ∈ rs, ∃ s, r = char s := by
  unfold unionOf? at h
  split at h
  · clear * - h
    induction rs generalizing set with
    | nil => exact fun r hr => nomatch hr
    | cons r rs ih =>
      rw [List.foldr_cons] at h
      split at h
      · rename_i s t hrest
        exact List.forall_mem_cons.2 ⟨⟨s, rfl⟩, ih hrest⟩
      · cases h
  · cases h

/-- The expression of a word: its characters one after the other. -/
def word (cs : List Char) : Regex := sequence (cs.map fun c => char (.one c))

theorem eq_singleton_of_word {cs : List Char} {set : CharSet} (h : word cs = char set) :
    ∃ c, cs = [c] := by
  match cs with
  | [] => cases h
  | [c] => exact ⟨c, rfl⟩
  | c :: c' :: cs => cases h

theorem endAt?_word (cs : List Char) (h : Haystack) (p : Nat) :
    (word cs).endAt? h p = h.spelled? p cs := by
  rw [← passed?_map_one, ← endAt?_sequence_chars, List.map_map]
  rfl

theorem branches_word (cs : List Char) : (word cs).branches = [word cs] := by
  match cs with
  | [] => rfl
  | [c] => rfl
  | c :: c' :: cs => rfl

theorem pieces_word (cs : List Char) : (word cs).pieces = cs.map fun c => char (.one c) := by
  induction cs with
  | nil => rfl
  | cons c cs ih =>
    cases cs with
    | nil => rfl
    | cons c' cs => exact congrArg (char (.one c) :: ·) ih

/-- The characters of a word are one run. -/
theorem length_runs_word (cs : List Char) : (word cs).runs.length ≤ 1 := by
  have hchain : ∀ cs : List Char, (cs.map fun c => char (.one c)).IsChain
      fun a b => (a.isLetter && b.isLetter) = true := by
    intro cs
    refine List.Pairwise.isChain (List.pairwise_map.2 ?_)
    exact List.pairwise_of_forall fun _ _ => rfl
  rw [runs, pieces_word]
  cases cs with
  | nil => exact Nat.zero_le _
  | cons c cs =>
    rw [List.splitBy_of_isChain (by simp) (hchain (c :: cs))]
    exact Nat.le_refl _

theorem flatMap_branches_words (css : List (List Char)) :
    (css.map word).flatMap branches = css.map word := by
  induction css with
  | nil => rfl
  | cons cs css ih => rw [List.map_cons, List.flatMap_cons, ih, branches_word, List.singleton_append]

/-- Words have nothing taken out in front of them. -/
theorem factored_words (css : List (List Char)) :
    factored (css.map word) = choiceOf (css.map word) := by
  unfold factored
  simp only [flatMap_branches_words]
  split
  · rename_i first second others heq
    have hfirst : first.length ≤ 1 := by
      have hmem : first ∈ (css.map word).map runs := heq ▸ List.mem_cons_self ..
      obtain ⟨r, hr, rfl⟩ := List.mem_map.1 hmem
      obtain ⟨cs, -, rfl⟩ := List.mem_map.1 hr
      exact length_runs_word cs
    rw [if_pos]
    simp [hfirst]
  · rfl

theorem endAt?_choice_words {css : List (List Char)} (hne : css ≠ []) (h : Haystack) (p : Nat) :
    (choice (css.map word)).endAt? h p = css.findSome? (h.spelled? p) := by
  rw [endAt?_eq_findSome?, branches_choice (by simpa using hne), List.findSome?_map]
  · exact congrArg (css.findSome? ·) (funext fun cs => endAt?_word cs h p)
  · intro last hlast
    obtain ⟨cs, -, rfl⟩ := List.mem_map.1 (List.mem_of_mem_getLast? hlast)
    exact branches_word cs

/-- A set of characters matches where one of them stands. -/
theorem endAt?_tidied_ofList (cs : List Char) (h : Haystack) (p : Nat) :
    (char (tidied (.ofList cs))).endAt? h p = cs.findSome? fun c => h.spelled? p [c] := by
  have hfirst : cs.findSome? (fun c => h.spelled? p [c]) =
      if (h.char? p).any cs.contains then some (p + 1) else none := by
    induction cs with
    | nil => cases h.char? p <;> rfl
    | cons c cs ih =>
      rw [List.findSome?_cons, ih]
      cases hc : h.char? p with
      | none => simp [Haystack.spelled?, hc]
      | some d => by_cases hd : d = c <;> simp [Haystack.spelled?, hc, hd]
  have hat : (tidied (.ofList cs)).hasAt h p = (h.char? p).any cs.contains :=
    congrArg (fun has => (h.char? p).any has) (funext (has_tidied_ofList cs))
  rw [endAt?_char, hat, hfirst]

theorem unionOf?_letters (cs : List Char) :
    unionOf? (cs.map fun c => char (.one c)) = some (.ofList cs) := by
  have hall : (cs.map fun c => char (.one c)).all isLetter = true := by
    simp [isLetter, onlyChar?]
  unfold unionOf?
  rw [if_pos (by rw [hall, Bool.true_or])]
  induction cs with
  | nil => rfl
  | cons c cs ih =>
    rw [List.map_cons, List.foldr_cons, ih (by simp [isLetter, onlyChar?])]
    rfl

/-- The first word matches that the text goes on with. -/
theorem endAt?_factored_words {css : List (List Char)} (hne : css ≠ []) (h : Haystack) (p : Nat) :
    (factored (css.map word)).endAt? h p = css.findSome? (h.spelled? p) := by
  rw [factored_words, choiceOf]
  split
  · rename_i set hset
    split
    · exact endAt?_choice_words hne h p
    -- All words are single characters, and the choice is a set of them.
    · obtain ⟨cs, rfl⟩ : ∃ cs : List Char, css = cs.map ([·]) := by
        have hsingle : css ∈ Set.range (List.map fun c : Char => [c]) := by
          rw [Set.range_list_map]
          intro cs hcs
          obtain ⟨s, hs⟩ := exists_char_of_unionOf? hset _ (List.mem_map_of_mem hcs)
          obtain ⟨c, rfl⟩ := eq_singleton_of_word hs
          exact ⟨c, rfl⟩
        exact hsingle.imp fun _ => Eq.symm
      have hletters : (cs.map ([·])).map word = cs.map fun c => char (.one c) := by
        rw [List.map_map]
        rfl
      rw [hletters, unionOf?_letters] at hset
      cases hset
      rw [endAt?_tidied_ofList, List.findSome?_map]
      rfl
  · exact endAt?_choice_words hne h p

end Highlighter.Regex
