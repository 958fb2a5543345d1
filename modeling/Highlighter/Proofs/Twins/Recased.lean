import Highlighter.Proofs.Twins.Search
import Highlighter.Text.Letters
import Mathlib.Data.List.SplitBy

/-!
Letters in the other case. Where case is disregarded, a letter of a pattern may be written in either
case: the sets that it is read as hold the same characters, and choices are put together alike.
-/

namespace Highlighter

namespace Text

/-- An ASCII letter in the other case. -/
def otherCase (c : Char) : Char := if c.isLower then c.toUpper else c.toLower

theorem otherCase_of_wide {c : Char} (h : 128 ≤ c.toNat) : otherCase c = c := by
  rw [otherCase, isLower_of_wide h, if_neg Bool.false_ne_true,
    toLower_of_not_isUpper (isUpper_of_wide h)]

/-- What holds of the characters below 128 and of all others holds of all. -/
theorem forall_char {P : Char → Prop} (hascii : ∀ n < 128, P (Char.ofNat n))
    (hwide : ∀ c : Char, 128 ≤ c.toNat → P c) (c : Char) : P c := by
  by_cases hlt : c.toNat < 128
  · simpa using hascii c.toNat hlt
  · exact hwide c (Nat.le_of_not_lt hlt)

theorem otherCase_otherCase : ∀ c : Char, otherCase (otherCase c) = c :=
  forall_char (by decide +kernel) fun c h => by rw [otherCase_of_wide h, otherCase_of_wide h]

theorem otherCase_ofNat {n : Nat} (h : 128 ≤ n) : otherCase (Char.ofNat n) = Char.ofNat n := by
  by_cases hvalid : n.isValidChar
  · refine otherCase_of_wide ?_
    rwa [Char.ofNat, dif_pos hvalid]
  · rw [Char.ofNat, dif_neg hvalid]
    decide

/-- Folding leaves no capital among the ASCII letters. -/
theorem isUpper_fold : ∀ c : Char, (fold c).isUpper = false := by
  have htargets : ∀ r ∈ folding, 97 ≤ r.target := by decide +kernel
  have hofNat : ∀ n, 97 ≤ n → (Char.ofNat n).isUpper = false := by
    intro n hn
    by_cases hvalid : n.isValidChar
    · have hval : (Char.ofNat n).val.toNat = n := by
        rw [Char.ofNat, dif_pos hvalid]
        rfl
      refine decide_eq_false fun hupper => absurd hupper.2 ?_
      rw [UInt32.le_iff_toNat_le, hval, Nat.not_le]
      exact Nat.lt_of_lt_of_le (by decide) hn
    · rw [Char.ofNat, dif_neg hvalid]
      decide
  refine forall_char (by decide +kernel) fun c hwide => ?_
  rw [fold, if_neg (Nat.not_lt.2 hwide)]
  split
  · rename_i r hr
    exact hofNat _ (Nat.le_trans (htargets r (List.mem_of_find?_eq_some hr)) (Nat.le_add_right ..))
  · have := hofNat c.toNat (Nat.le_trans (by decide) hwide)
    rwa [Char.ofNat_toNat] at this

theorem otherCase_mem_folded {c d : Char} (hd : d.isUpper = false) (h : c ∈ folded d) :
    otherCase c ∈ folded d := by
  have hsources : ∀ r ∈ folding, 128 ≤ r.first ∨ r.last < r.first + (128 - r.target) := by
    decide +kernel
  have hletters : ∀ n < 128, (Char.ofNat n).isUpper = false → ∀ c ∈ folded (Char.ofNat n),
      otherCase c ∈ folded (Char.ofNat n) := by
    have hall : (List.range 128).all (fun n => (Char.ofNat n).isUpper ||
        (folded (Char.ofNat n)).all fun c => (folded (Char.ofNat n)).contains (otherCase c)) =
          true := by decide +kernel
    intro n hn hupper c hc
    have hn := List.all_eq_true.1 hall n (List.mem_range.2 hn)
    rw [hupper, Bool.false_or, List.all_eq_true] at hn
    simpa using hn c hc
  by_cases hlt : d.toNat < 128
  · have := hletters d.toNat hlt
    rw [Char.ofNat_toNat] at this
    exact this hd c h
  · have hwide := Nat.le_of_not_lt hlt
    suffices otherCase c = c by rwa [this]
    have hne : ∀ a : Char, a.toNat < 128 → (d == a) = false := by
      intro a ha
      rw [beq_eq_false_iff_ne]
      rintro rfl
      exact hlt ha
    unfold folded at h
    rw [hne 'k' (by decide), hne 's' (by decide), if_neg hlt] at h
    rcases List.mem_cons.1 h with rfl | h
    · exact otherCase_of_wide hwide
    · obtain ⟨r, hr, hsource⟩ := List.mem_filterMap.1 h
      obtain ⟨n, hn, rfl⟩ := Option.map_eq_some_iff.1 hsource
      unfold Run.source? at hn
      dsimp only at hn
      split at hn
      · rename_i hmoves
        cases hn
        simp only [Run.moves, Bool.and_eq_true, decide_eq_true_eq] at hmoves
        rcases hsources r hr with hfirst | hlast
        · exact otherCase_ofNat (Nat.le_trans hfirst (Nat.le_add_right ..))
        · omega
      · cases hn

/-- Among the mates of a character, case does not matter. -/
theorem otherCase_mem_caseMates (c d : Char) : otherCase c ∈ caseMates d ↔ c ∈ caseMates d := by
  have hmem : ∀ c, c ∈ caseMates d → otherCase c ∈ caseMates d :=
    fun c => otherCase_mem_folded (isUpper_fold d)
  refine ⟨fun h => ?_, hmem c⟩
  have := hmem _ h
  rwa [otherCase_otherCase] at this

end Text

namespace Regex

namespace CharSet

/-- The set with the letters in the other case, where it is closed under case. -/
def recased : CharSet → CharSet
  | caseless (one c) => caseless (one (Text.otherCase c))
  | union s t => union s.recased t.recased
  | s => s

theorem recased_recased (s : CharSet) : s.recased.recased = s := by
  fun_induction recased s with
  | case1 c => rw [recased, Text.otherCase_otherCase]
  | case2 s t ihs iht => rw [recased, ihs, iht]
  | case3 s hone hunion =>
    rw [recased]
    · exact hone
    · exact hunion

theorem recased_inj {s t : CharSet} : s.recased = t.recased ↔ s = t :=
  ⟨fun h => by rw [← s.recased_recased, h, t.recased_recased], congrArg _⟩

theorem has_recased (s : CharSet) (c : Char) : s.recased.has c = s.has c := by
  fun_induction recased s with
  | case1 d =>
    have hmem : ∀ d : Char, (caseless (one d)).has c = decide (d ∈ Text.caseMates c) := by
      intro d
      rw [Bool.eq_iff_iff]
      simp [has]
    rw [hmem, hmem]
    simp only [Text.otherCase_mem_caseMates]
  | case2 s t ihs iht => simp only [has, ihs, iht]
  | case3 s hone hunion => rfl

end CharSet

theorem length_caseMates_otherCase : ∀ c : Char, Text.otherCase c ≠ c →
    1 < (Text.caseMates c).length := by
  have hascii : ∀ n < 128, Text.otherCase (Char.ofNat n) ≠ Char.ofNat n →
      1 < (Text.caseMates (Char.ofNat n)).length := by decide +kernel
  exact Text.forall_char hascii fun c hwide hne => absurd (Text.otherCase_of_wide hwide) hne

theorem onlyChar?_recased (s : CharSet) : onlyChar? s.recased = onlyChar? s := by
  fun_induction CharSet.recased s with
  | case1 c =>
    by_cases hsame : Text.otherCase c = c
    · rw [hsame]
    · have hother : Text.otherCase (Text.otherCase c) ≠ Text.otherCase c := by
        rw [Text.otherCase_otherCase]
        exact fun h => hsame h.symm
      have hc := length_caseMates_otherCase c hsame
      have hc' := length_caseMates_otherCase _ hother
      simp [onlyChar?, Option.filter_some, Nat.not_le.2 hc, Nat.not_le.2 hc']
  | case2 s t ihs iht =>
    have hnone : ∀ s : CharSet, s.recased = .none ↔ s = .none := fun s => s.recased_inj (t := .none)
    simp only [onlyChar?, hnone, ihs, iht]
  | case3 s hone hunion => rfl

theorem recased_tidied (s : CharSet) : tidied s.recased = (tidied s).recased := by
  unfold tidied
  rw [onlyChar?_recased]
  split <;> rfl

/-- The expression with its letters in the other case, where case is disregarded. -/
def recased (r : Regex) : Regex := r.mapSets CharSet.recased

theorem recased_recased (r : Regex) : r.recased.recased = r := by
  unfold recased
  induction r <;> simp [mapSets, CharSet.recased_recased, *]

theorem recased_inj {r s : Regex} : r.recased = s.recased ↔ r = s :=
  ⟨fun h => by rw [← r.recased_recased, h, s.recased_recased], congrArg _⟩

/-- An expression finds the same with its letters in the other case. -/
theorem endAt?_recased (r : Regex) (h : Haystack) (p : Nat) : r.recased.endAt? h p = r.endAt? h p := by
  have halike : Haystack.Alike CharSet.recased id h h :=
    { Haystack.alike_of_char? rfl (fun _ => rfl) with
      hasAt := fun set i => by simp only [CharSet.hasAt, funext set.has_recased, id] }
  rw [recased, halike.endAt?_eq r p, mapSets_id]

section Shape

variable (r : Regex) (rs : List Regex)

theorem recased_sequence : sequence (rs.map recased) = (sequence rs).recased := by
  fun_induction sequence rs with
  | case1 => rfl
  | case2 r => rfl
  | case3 r rs hne ih =>
    rw [List.map_cons, sequence, ih]
    · rfl
    · simpa using hne

theorem recased_choice : choice (rs.map recased) = (choice rs).recased := by
  fun_induction choice rs with
  | case1 => rfl
  | case2 r => rfl
  | case3 r rs hne ih =>
    rw [List.map_cons, choice, ih]
    · rfl
    · simpa using hne

theorem branches_recased : r.recased.branches = r.branches.map recased := by
  unfold recased
  induction r <;> simp_all [branches, mapSets]

theorem pieces_recased : r.recased.pieces = r.pieces.map recased := by
  unfold recased
  induction r <;> simp_all [pieces, mapSets]

@[simp] theorem isLetter_recased : r.recased.isLetter = r.isLetter := by
  cases r <;> simp [recased, mapSets, isLetter, onlyChar?_recased]

@[simp] theorem captures_recased : r.recased.captures = r.captures := by
  unfold recased
  induction r <;> simp [mapSets, captures, *]

theorem splitBy_loop_recased {R : Regex → Regex → Bool}
    (h : ∀ a b : Regex, R a.recased b.recased = R a b) (rs : List Regex) (r : Regex)
    (group : List Regex) (groups : List (List Regex)) :
    List.splitBy.loop R (rs.map recased) r.recased (group.map recased)
        (groups.map (·.map recased)) =
      (List.splitBy.loop R rs r group groups).map (·.map recased) := by
  induction rs generalizing r group groups with
  | nil => simp [List.splitBy.loop]
  | cons s rs ih =>
    rw [List.map_cons, List.splitBy.loop, List.splitBy.loop, h]
    cases R r s
    · have := ih s [] ((r :: group).reverse :: groups)
      simpa using this
    · exact ih s (r :: group) groups

theorem runs_recased : r.recased.runs = r.runs.map (·.map recased) := by
  unfold runs
  rw [pieces_recased]
  cases r.pieces with
  | nil => rfl
  | cons s rs => exact splitBy_loop_recased (by simp) rs s [] []

theorem commonRuns_recased (xs ys : List (List Regex)) :
    commonRuns (xs.map (·.map recased)) (ys.map (·.map recased)) =
      (commonRuns xs ys).map (·.map recased) := by
  have hsame : ∀ {x y : List Regex}, x.map recased = y.map recased ↔ x = y := by
    intro x y
    exact List.map_inj_right fun _ _ => recased_inj.1
  induction xs generalizing ys with
  | nil => rfl
  | cons x xs ih =>
    cases ys with
    | nil => rfl
    | cons y ys =>
      have hany : (x.map recased).any captures = x.any captures := by
        simp [List.any_map, Function.comp_def]
      simp only [List.map_cons, commonRuns, hsame, hany, ih]
      split <;> rfl

/-- One more branch of a choice between sets. -/
def joinSet : Regex → Option CharSet → Option CharSet
  | char s, some t => some (.union s t)
  | _, _ => none

theorem unionOf?_eq : unionOf? rs =
    if rs.all isLetter || !rs.any isLetter then rs.foldr joinSet (some .none) else none := rfl

theorem unionOf?_recased : unionOf? (rs.map recased) = (unionOf? rs).map CharSet.recased := by
  have hjoin : ∀ rs : List Regex, (rs.map recased).foldr joinSet (some .none) =
      (rs.foldr joinSet (some .none)).map CharSet.recased := by
    intro rs
    induction rs with
    | nil => rfl
    | cons r rs ih =>
      rw [List.map_cons, List.foldr_cons, List.foldr_cons, ih]
      cases r <;> cases rs.foldr joinSet (some .none) <;> rfl
  rw [unionOf?_eq, unionOf?_eq]
  simp only [List.all_map, List.any_map, Function.comp_def, isLetter_recased]
  split
  · exact hjoin rs
  · rfl

theorem choiceOf_recased : choiceOf (rs.map recased) = (choiceOf rs).recased := by
  unfold choiceOf
  rw [unionOf?_recased, List.length_map, recased_choice]
  cases unionOf? rs with
  | none => rfl
  | some set =>
    simp only [Option.map_some, recased_tidied]
    split <;> rfl

theorem foldl_commonRuns_recased (xs : List (List Regex)) (others : List (List (List Regex))) :
    (others.map (·.map (·.map recased))).foldl commonRuns (xs.map (·.map recased)) =
      (others.foldl commonRuns xs).map (·.map recased) := by
  induction others generalizing xs with
  | nil => rfl
  | cons ys others ih => rw [List.map_cons, List.foldl_cons, commonRuns_recased, ih, List.foldl_cons]

/-- A choice between two branches or more, as it is put together once the runs of its branches and
what they begin with are known. -/
def choiceBehind (rs : List Regex) (runs : List (List (List Regex))) (shared : List (List Regex)) :
    Regex :=
  if shared.isEmpty || runs.any (fun runs => runs.length ≤ 1) then choiceOf rs
  else
    let rests := runs.map fun runs => sequence (runs.drop shared.length).flatten
    sequence (shared.flatten ++ [choiceOf (rests.flatMap branches)])

theorem flatMap_branches_recased :
    (rs.map recased).flatMap branches = (rs.flatMap branches).map recased := by
  simp only [List.flatMap_map, List.map_flatMap, branches_recased]

theorem choiceBehind_recased (runs : List (List (List Regex))) (shared : List (List Regex)) :
    choiceBehind (rs.map recased) (runs.map (·.map (·.map recased))) (shared.map (·.map recased)) =
      (choiceBehind rs runs shared).recased := by
  have hrests : (runs.map (·.map (·.map recased))).map
        (fun runs => sequence (runs.drop (shared.map (·.map recased)).length).flatten) =
      (runs.map fun runs => sequence (runs.drop shared.length).flatten).map recased := by
    simp only [List.map_map, Function.comp_def, List.length_map, ← List.map_drop,
      ← List.map_flatten, recased_sequence]
  have hall : ∀ rests : List Regex, (shared.map (·.map recased)).flatten ++
      [choiceOf ((rests.map recased).flatMap branches)] =
        (shared.flatten ++ [choiceOf (rests.flatMap branches)]).map recased := by
    intro rests
    rw [flatMap_branches_recased, choiceOf_recased, ← List.map_flatten, List.map_append]
    rfl
  unfold choiceBehind
  simp only [List.isEmpty_map, List.any_map, Function.comp_def, List.length_map]
  split
  · exact choiceOf_recased rs
  · rw [List.length_map] at hrests
    rw [hrests, hall, recased_sequence]

/-- Choices are put together alike whatever the case of their letters. -/
theorem factored_recased : factored (rs.map recased) = (factored rs).recased := by
  have hruns : ∀ rs : List Regex,
      (rs.map recased).map runs = (rs.map runs).map (·.map (·.map recased)) := by
    intro rs
    simp only [List.map_map, Function.comp_def, runs_recased]
  unfold factored
  rw [flatMap_branches_recased]
  generalize rs.flatMap branches = rs
  simp only [hruns]
  match rs.map runs with
  | [] => exact choiceOf_recased rs
  | [_] => exact choiceOf_recased rs
  | first :: second :: others =>
    have hshared := foldl_commonRuns_recased first (second :: others)
    have hchoice := choiceBehind_recased rs (first :: second :: others)
      ((second :: others).foldl commonRuns first)
    rw [← hshared] at hchoice
    exact hchoice

end Shape

end Regex

end Highlighter
