import Highlighter.Proofs.Caseless.Letters
import Highlighter.Proofs.Reading.Choices

/-!
Expressions that disregard case. An expression looks at characters through its sets alone, so it
disregards case where none of them tells the two cases of a letter apart. Repetitions and choices
are put together from the sets of their parts, and these stay so.
-/

namespace Highlighter.Regex

namespace CharSet

/-- A set that has a letter in both cases or in neither. -/
def IgnoresCase (set : CharSet) : Prop := ∀ c, set.has (Text.otherCase c) = set.has c

theorem ignoresCase_none : IgnoresCase .none := fun _ => rfl

theorem ignoresCase_all : IgnoresCase .all := fun _ => rfl

theorem ignoresCase_word : IgnoresCase .word := Text.isWord_otherCase

theorem ignoresCase_digit : IgnoresCase .digit := Text.isDecimal_otherCase

theorem ignoresCase_space : IgnoresCase .space := Text.isSpace_otherCase

theorem ignoresCase_one {d : Char} (h : Text.otherCase d = d) : IgnoresCase (.one d) :=
  Text.beq_otherCase h

/-- What has been closed under case disregards it. -/
theorem ignoresCase_caseless (set : CharSet) : IgnoresCase (.caseless set) :=
  fun c => set.has_caseless_eq (Text.fold_otherCase c)

theorem IgnoresCase.compl {set : CharSet} (h : set.IgnoresCase) : IgnoresCase (.compl set) := by
  intro c
  rw [has, has, h]

theorem IgnoresCase.union {set set' : CharSet} (h : set.IgnoresCase) (h' : set'.IgnoresCase) :
    IgnoresCase (.union set set') := by
  intro c
  rw [has, has, h, h']

/-- What is spelled like a single character that has a case has that character in one case. -/
theorem has_of_onlyChar? {set : CharSet} {c : Char} (honly : onlyChar? set = some c)
    (hcase : Text.otherCase c ≠ c) :
    set.has c = true ∧ set.has (Text.otherCase c) = false := by
  induction set with
  | one d =>
    cases honly
    exact ⟨beq_self_eq_true _, beq_false_of_ne hcase⟩
  | union set set' ih ih' =>
    rw [onlyChar?] at honly
    split at honly
    · rename_i hset
      obtain ⟨hhas, hother⟩ := ih' honly
      refine ⟨by simp [has, hhas], ?_⟩
      rcases hset with rfl | hsame
      · exact hother
      · simp [has, hother, (ih (hsame.trans honly)).2]
    · split at honly
      · rename_i hset'
        obtain ⟨hhas, hother⟩ := ih honly
        exact ⟨by simp [has, hhas], by simp [has, hother, hset', none]⟩
      · cases honly
  | caseless set ih =>
    rw [onlyChar?] at honly
    obtain ⟨-, hmates⟩ := Option.filter_eq_some_iff.1 honly
    exact absurd (of_decide_eq_true hmates) (Nat.not_le.2 (length_caseMates_otherCase c hcase))
  | _ => cases honly

theorem IgnoresCase.tidied {set : CharSet} (h : set.IgnoresCase) :
    IgnoresCase (Regex.tidied set) := by
  unfold Regex.tidied
  split
  · rename_i c honly
    by_cases hcase : Text.otherCase c = c
    · exact ignoresCase_one hcase
    · obtain ⟨hhas, hother⟩ := has_of_onlyChar? honly hcase
      rw [h, hhas] at hother
      cases hother
  · exact h

end CharSet

/-- An expression whose sets all disregard case. -/
def IgnoresCase : Regex → Prop
  | empty | look _ => True
  | char set => set.IgnoresCase
  | seq r s | alt r s => r.IgnoresCase ∧ s.IgnoresCase
  | opt _ body | plus _ body | star _ body | group _ body => body.IgnoresCase

section Build

variable {r : Regex} {rs : List Regex}

theorem ignoresCase_sequence (h : ∀ r ∈ rs, r.IgnoresCase) : (sequence rs).IgnoresCase := by
  fun_induction sequence rs with
  | case1 => trivial
  | case2 r => exact h r (List.mem_singleton_self _)
  | case3 r rs hne ih =>
    obtain ⟨hr, hrs⟩ := List.forall_mem_cons.1 h
    exact ⟨hr, ih hrs⟩

theorem ignoresCase_choice (h : ∀ r ∈ rs, r.IgnoresCase) : (choice rs).IgnoresCase := by
  fun_induction choice rs with
  | case1 => exact CharSet.ignoresCase_none
  | case2 r => exact h r (List.mem_singleton_self _)
  | case3 r rs hne ih =>
    obtain ⟨hr, hrs⟩ := List.forall_mem_cons.1 h
    exact ⟨hr, ih hrs⟩

namespace IgnoresCase

theorem times (h : r.IgnoresCase) (n : Nat) : (r.times n).IgnoresCase :=
  ignoresCase_sequence fun _ hs => List.eq_of_mem_replicate hs ▸ h

theorem upTo (greedy : Bool) (h : r.IgnoresCase) (n : Nat) : (r.upTo greedy n).IgnoresCase := by
  fun_induction Regex.upTo greedy r n with
  | case1 => trivial
  | case2 => exact h
  | case3 n hne ih => exact ⟨h, ih⟩

theorem anyNumber (greedy : Bool) (h : r.IgnoresCase) : (r.anyNumber greedy).IgnoresCase := by
  unfold Regex.anyNumber
  split <;> exact h

/-- A repetition disregards case if its body does. -/
theorem bounded (greedy : Bool) (h : r.IgnoresCase) (low : Nat) (high : Option Nat) :
    (r.bounded greedy low high).IgnoresCase := by
  unfold Regex.bounded
  split
  · split
    · trivial
    · split <;> exact h
  · split
    · split
      · exact h.times _
      · split
        · exact h.upTo _ _
        · exact ⟨h.times _, h.upTo _ _⟩
    · split
      · exact h.anyNumber _
      · split
        · exact h
        · exact ⟨h.times _, h⟩

theorem branches (h : r.IgnoresCase) : ∀ s ∈ r.branches, s.IgnoresCase := by
  induction r with
  | alt r s ihr ihs => exact List.forall_mem_cons.2 ⟨h.1, ihs h.2⟩
  | _ => exact List.forall_mem_singleton.2 h

theorem pieces (h : r.IgnoresCase) : ∀ s ∈ r.pieces, s.IgnoresCase := by
  induction r with
  | seq r s ihr ihs => exact List.forall_mem_append.2 ⟨ihr h.1, ihs h.2⟩
  | empty => exact fun _ hs => nomatch hs
  | _ => exact List.forall_mem_singleton.2 h

theorem runs (h : r.IgnoresCase) : ∀ run ∈ r.runs, ∀ s ∈ run, s.IgnoresCase := by
  intro run hrun s hs
  have hmem : s ∈ r.runs.flatten := List.mem_flatten_of_mem hrun hs
  rw [Regex.runs, List.flatten_splitBy] at hmem
  exact h.pieces s hmem

end IgnoresCase

theorem ignoresCase_unionOf? {set : CharSet} (h : ∀ r ∈ rs, r.IgnoresCase)
    (hset : unionOf? rs = some set) : set.IgnoresCase := by
  have hjoin : ∀ set, rs.foldr joinSet (some .none) = some set → set.IgnoresCase := by
    clear hset
    induction rs with
    | nil =>
      intro set hset
      cases hset
      exact CharSet.ignoresCase_none
    | cons r rs ih =>
      obtain ⟨hr, hrs⟩ := List.forall_mem_cons.1 h
      intro set hset
      rw [List.foldr_cons] at hset
      unfold joinSet at hset
      split at hset
      · rename_i s t ht
        cases hset
        exact hr.union (ih hrs t ht)
      · cases hset
  rw [unionOf?_eq] at hset
  split at hset
  · exact hjoin set hset
  · cases hset

theorem ignoresCase_choiceOf (h : ∀ r ∈ rs, r.IgnoresCase) : (choiceOf rs).IgnoresCase := by
  unfold choiceOf
  split
  · rename_i set hset
    split
    · exact ignoresCase_choice h
    · exact (ignoresCase_unionOf? h hset).tidied
  · exact ignoresCase_choice h

/-- A choice disregards case if its branches do: what they begin with is taken from the first, and
what is left of them is a part of each. -/
theorem ignoresCase_factored (h : ∀ r ∈ rs, r.IgnoresCase) : (factored rs).IgnoresCase := by
  have hbranches : ∀ r ∈ rs.flatMap branches, r.IgnoresCase := by
    intro r hr
    obtain ⟨s, hs, hr⟩ := List.mem_flatMap.1 hr
    exact (h s hs).branches r hr
  unfold factored
  generalize rs.flatMap branches = rs at hbranches
  have hruns : ∀ parts ∈ rs.map runs, ∀ run ∈ parts, ∀ s ∈ run, s.IgnoresCase := by
    intro parts hmem
    obtain ⟨r, hr, rfl⟩ := List.mem_map.1 hmem
    exact (hbranches r hr).runs
  dsimp only
  split
  · rename_i first second others heq
    rw [heq] at hruns
    split
    · exact ignoresCase_choiceOf hbranches
    · refine ignoresCase_sequence fun r hr => ?_
      rcases List.mem_append.1 hr with hr | hr
      · obtain ⟨run, hrun, hr⟩ := List.mem_flatten.1 hr
        exact hruns first (List.mem_cons_self ..) run (mem_of_mem_foldl_commonRuns hrun) r hr
      · rw [List.mem_singleton.1 hr]
        refine ignoresCase_choiceOf fun r hr => ?_
        obtain ⟨rest, hrest, hr⟩ := List.mem_flatMap.1 hr
        obtain ⟨parts, hmem, rfl⟩ := List.mem_map.1 hrest
        refine IgnoresCase.branches (ignoresCase_sequence fun s hs => ?_) r hr
        obtain ⟨run, hrun, hs⟩ := List.mem_flatten.1 hs
        exact hruns parts hmem run (List.mem_of_mem_drop hrun) s hs
  · exact ignoresCase_choiceOf hbranches

end Build

end Highlighter.Regex
