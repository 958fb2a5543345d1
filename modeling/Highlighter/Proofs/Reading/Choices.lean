import Highlighter.Regex.Factor
import Mathlib.Data.List.SplitBy

/-!
Choices that have been put together. What is taken out in front of the branches is a part of each,
and never captures, so a choice between groups keeps them as its branches. A choice that has been put
together is left as it is when it is put together again.
-/

namespace Highlighter.Regex

/-- Whether the expression is a group. -/
def isGroup : Regex → Bool
  | group .. => true
  | _ => false

theorem branches_of_isGroup {r : Regex} (h : r.isGroup = true) : r.branches = [r] := by
  cases r with
  | group name body => rfl
  | _ => cases h

theorem runs_of_isGroup {r : Regex} (h : r.isGroup = true) : r.runs = [[r]] := by
  cases r with
  | group name body => rfl
  | _ => cases h

theorem flatMap_branches_of_isGroup {rs : List Regex} (h : ∀ r ∈ rs, r.isGroup = true) :
    rs.flatMap branches = rs := by
  induction rs with
  | nil => rfl
  | cons r rs ih =>
    rw [List.flatMap_cons, branches_of_isGroup (h r (List.mem_cons_self ..)),
      ih fun r hr => h r (List.mem_cons_of_mem _ hr)]
    rfl

theorem branches_choice_of_isGroup {rs : List Regex} (hne : rs ≠ [])
    (h : ∀ r ∈ rs, r.isGroup = true) : (choice rs).branches = rs := by
  induction rs with
  | nil => exact absurd rfl hne
  | cons r rs ih =>
    have hr := h r (List.mem_cons_self ..)
    cases rs with
    | nil => exact branches_of_isGroup hr
    | cons r' rs =>
      rw [choice, branches, ih (List.cons_ne_nil _ _) fun r hr => h r (List.mem_cons_of_mem _ hr)]
      intro hnil
      cases hnil

theorem choiceOf_of_isGroup {rs : List Regex} (hne : rs ≠ []) (h : ∀ r ∈ rs, r.isGroup = true) :
    choiceOf rs = choice rs := by
  have hunion : unionOf? rs = none := by
    cases rs with
    | nil => exact absurd rfl hne
    | cons r rs =>
      cases r with
      | group name body => simp [unionOf?]
      | _ => cases h _ (List.mem_cons_self ..)
  rw [choiceOf, hunion]

/-- A choice between groups keeps them as its branches: what captures is not taken out in front. -/
theorem branches_factored_of_isGroup {rs : List Regex} (hne : rs ≠ [])
    (h : ∀ r ∈ rs, r.isGroup = true) : (factored rs).branches = rs := by
  have hchoice := branches_choice_of_isGroup hne h
  unfold factored
  rw [flatMap_branches_of_isGroup h]
  cases rs with
  | nil => exact absurd rfl hne
  | cons r rs =>
    have hruns := runs_of_isGroup (h r (List.mem_cons_self ..))
    cases rs with
    | nil => simp only [List.map_cons, List.map_nil, choiceOf_of_isGroup hne h, hchoice]
    | cons r' rs =>
      simp only [List.map_cons, List.any_cons, hruns, List.length_singleton, Nat.le_refl,
        decide_true, Bool.true_or, Bool.or_true, ↓reduceIte, choiceOf_of_isGroup hne h, hchoice]

theorem mem_of_mem_commonRuns {xs ys : List (List Regex)} {run : List Regex}
    (h : run ∈ commonRuns xs ys) : run ∈ xs := by
  fun_induction commonRuns xs ys with
  | case1 x xs y ys hsame ih =>
    rcases List.mem_cons.1 h with rfl | h
    · exact List.mem_cons_self ..
    · exact List.mem_cons_of_mem _ (ih h)
  | case2 => cases h
  | case3 => cases h

theorem mem_of_mem_foldl_commonRuns {xs : List (List Regex)} {others : List (List (List Regex))}
    {run : List Regex} (h : run ∈ others.foldl commonRuns xs) : run ∈ xs := by
  induction others generalizing xs with
  | nil => exact h
  | cons ys others ih => exact mem_of_mem_commonRuns (ih h)

/-- No branch of a choice is a choice at its end. -/
theorem branches_of_mem_getLast? {r last : Regex} (h : last ∈ r.branches.getLast?) :
    last.branches = [last] := by
  induction r with
  | alt r s _ ih =>
    rw [branches, List.getLast?_cons, Option.mem_some_iff] at h
    cases hs : s.branches.getLast? with
    | none => cases s <;> simp [branches] at hs
    | some last' =>
      rw [hs, Option.getD_some] at h
      subst h
      exact ih hs
  | _ =>
    cases h
    rfl

theorem branches_of_mem_getLast?_flatMap {rs : List Regex} {last : Regex}
    (h : last ∈ (rs.flatMap branches).getLast?) : last.branches = [last] := by
  induction rs with
  | nil => cases h
  | cons r rs ih =>
    rw [List.flatMap_cons, List.getLast?_append] at h
    cases hrs : (rs.flatMap branches).getLast? with
    | none =>
      rw [hrs, Option.none_or] at h
      exact branches_of_mem_getLast? h
    | some last' =>
      rw [hrs, Option.some_or] at h
      cases h
      exact ih hrs

theorem branches_choice {rs : List Regex} (hne : rs ≠ [])
    (hlast : ∀ last ∈ rs.getLast?, last.branches = [last]) : (choice rs).branches = rs := by
  induction rs with
  | nil => exact absurd rfl hne
  | cons r rs ih =>
    cases rs with
    | nil => exact hlast r rfl
    | cons r' rs =>
      have hrest : (choice (r' :: rs)).branches = r' :: rs := by
        refine ih (List.cons_ne_nil _ _) fun last h => hlast last ?_
        rwa [List.getLast?_cons_cons]
      rw [choice, branches, hrest]
      rintro ⟨⟩

/-- A single branch is a choice by itself. -/
theorem factored_singleton {r : Regex} (h : r.branches = [r]) : factored [r] = r := by
  have hone : choiceOf [r] = r := by
    unfold choiceOf
    split <;> rfl
  simp [factored, h, hone]

theorem factored_congr {rs rs' : List Regex} (h : rs.flatMap branches = rs'.flatMap branches) :
    factored rs = factored rs' := by
  unfold factored
  rw [h]

theorem choiceOf_eq (rs : List Regex) :
    choiceOf rs = choice rs ∨ ∃ set, choiceOf rs = char set := by
  unfold choiceOf
  split
  · split
    · exact .inl rfl
    · exact .inr ⟨_, rfl⟩
  · exact .inl rfl

theorem factored_of_eq_choiceOf {rs : List Regex}
    (h : factored rs = choiceOf (rs.flatMap branches)) : factored [factored rs] = factored rs := by
  rcases choiceOf_eq (rs.flatMap branches) with hchoice | ⟨set, hset⟩
  · rw [hchoice] at h
    cases hnil : rs.flatMap branches with
    | nil =>
      rw [h, hnil]
      exact factored_singleton rfl
    | cons r rest =>
      refine factored_congr ?_
      rw [h, List.flatMap_singleton]
      exact branches_choice (by simp [hnil]) fun last => branches_of_mem_getLast?_flatMap
  · rw [h, hset]
    exact factored_singleton rfl

/-- A choice that has been put together is left as it is. -/
theorem factored_factored (rs : List Regex) : factored [factored rs] = factored rs := by
  by_cases hplain : factored rs = choiceOf (rs.flatMap branches)
  · exact factored_of_eq_choiceOf hplain
  · refine factored_singleton ?_
    unfold factored at hplain ⊢
    dsimp only at hplain ⊢
    split
    · rename_i first second others heq
      rw [heq] at hplain
      dsimp only at hplain
      split
      · rename_i hbare
        rw [if_pos hbare] at hplain
        exact absurd rfl hplain
      -- What stands in front of the branches is not empty, so the choice is not all there is.
      · rename_i hshared
        cases hruns : (second :: others).foldl commonRuns first with
        | nil => simp [hruns] at hshared
        | cons run shared =>
          have hmem : run ∈ first := mem_of_mem_foldl_commonRuns (hruns ▸ List.mem_cons_self ..)
          have hfirst : first ∈ (rs.flatMap branches).map runs := heq ▸ List.mem_cons_self ..
          obtain ⟨r, -, rfl⟩ := List.mem_map.1 hfirst
          cases run with
          | nil => exact absurd hmem (List.nil_notMem_splitBy _ _)
          | cons a run =>
            simp only [List.flatten_cons, List.cons_append]
            rw [sequence]
            · rfl
            · simp
    · rename_i hshort
      split at hplain
      · rename_i first second others heq
        exact absurd heq (hshort first second others)
      · exact absurd rfl hplain

end Highlighter.Regex
