import Highlighter.Proofs.Search.Moves

/-!
A choice is searched branch by branch. The search keeps the paths of all branches side by side and
has them share one array of marks. The branches number their parts apart, so none takes up what
another needs; and the paths of a branch stand in front of those of the branches after it, so they
are given up as soon as the branch comes to an end.
-/

namespace Highlighter.Regex

namespace Task

/-- The same task, its parts numbered from further on. -/
def shift (k : Nat) : Task → Task
  | part r number => part r (number + k)
  | again greedy body number => again greedy body (number + k)

/-- Whether all parts that a task takes up have numbers below a bound. -/
def Fits (n : Nat) : Task → Prop
  | part r number => number + r.parts ≤ n
  | again _ body number => number + body.parts + 1 ≤ n

@[simp] theorem fits_part (n : Nat) (r : Regex) (number : Nat) :
    (part r number).Fits n ↔ number + r.parts ≤ n := Iff.rfl

@[simp] theorem fits_again (n : Nat) (greedy : Bool) (body : Regex) (number : Nat) :
    (again greedy body number).Fits n ↔ number + body.parts + 1 ≤ n := Iff.rfl

end Task

/-- The same paths, their parts numbered from further on. -/
def shiftAll (k : Nat) (paths : List Path) : List Path := paths.map (·.map (Task.shift k))

/-- Whether all parts on some paths have numbers below a bound. -/
def AllFit (n : Nat) (paths : List Path) : Prop := ∀ path ∈ paths, ∀ task ∈ path, task.Fits n

@[simp] theorem shiftAll_nil (k : Nat) : shiftAll k [] = [] := rfl

@[simp] theorem shiftAll_cons (k : Nat) (path : Path) (paths : List Path) :
    shiftAll k (path :: paths) = path.map (Task.shift k) :: shiftAll k paths := rfl

@[simp] theorem shiftAll_append (k : Nat) (paths others : List Path) :
    shiftAll k (paths ++ others) = shiftAll k paths ++ shiftAll k others := List.map_append

@[simp] theorem shiftAll_ways (k : Nat) (greedy : Bool) (round leave : Path) :
    shiftAll k (ways greedy round leave) =
      ways greedy (round.map (Task.shift k)) (leave.map (Task.shift k)) := by
  cases greedy <;> rfl

@[simp] theorem allFit_nil (n : Nat) : AllFit n [] := by simp [AllFit]

@[simp] theorem allFit_cons (n : Nat) (path : Path) (paths : List Path) :
    AllFit n (path :: paths) ↔ (∀ task ∈ path, task.Fits n) ∧ AllFit n paths := by
  simp [AllFit]

@[simp] theorem allFit_append (n : Nat) (paths others : List Path) :
    AllFit n (paths ++ others) ↔ AllFit n paths ∧ AllFit n others := by
  simp [AllFit, or_imp, forall_and]

@[simp] theorem allFit_ways (n : Nat) (greedy : Bool) (round leave : Path) :
    AllFit n (ways greedy round leave) ↔
      (∀ task ∈ round, task.Fits n) ∧ ∀ task ∈ leave, task.Fits n := by
  cases greedy <;> simp [ways, and_comm]

@[simp] theorem isOver_nil : isOver [] = false := rfl

@[simp] theorem isOver_cons (path : Path) (paths : List Path) :
    isOver (path :: paths) = (path.isEmpty || isOver paths) := rfl

theorem isOver_append (paths others : List Path) :
    isOver (paths ++ others) = (isOver paths || isOver others) := List.any_append

theorem isOver_shiftAll (k : Nat) (paths : List Path) : isOver (shiftAll k paths) = isOver paths := by
  induction paths with
  | nil => rfl
  | cons path paths ih => simp [ih]

namespace Marks

/-- The parts numbered from `k` on are as free under `m` as the first `n` parts are under `m'`. -/
def Sees (m : Marks) (k n : Nat) (m' : Marks) : Prop :=
  ∀ i, i < n → m.isFree (i + k) = m'.isFree i

theorem isFree_mark (m : Marks) (i j : Nat) :
    (m.mark i).isFree j = (m.isFree j && i != j) := by
  simp only [isFree, mark, Array.getElem?_setIfInBounds]
  by_cases h : i = j
  · subst h
    by_cases hi : i < m.taken.size <;> simp [hi]
  · simp [h]

theorem isFree_none {n i : Nat} : (none n).isFree i = decide (i < n) := by
  by_cases h : i < n <;> simp [isFree, none, h]

theorem Sees.mark {m m' : Marks} {k n : Nat} (h : m.Sees k n m') (i : Nat) :
    (m.mark (i + k)).Sees k n (m'.mark i) := by
  intro j hj
  have hne : (i + k != j + k) = (i != j) := by
    rw [Bool.eq_iff_iff]
    simp
  rw [isFree_mark, isFree_mark, h j hj, hne]

/-- The parts outside a stretch of numbers are as free under `m` as under `m'`. -/
def Keeps (m : Marks) (k n : Nat) (m' : Marks) : Prop :=
  ∀ i, i < k ∨ k + n ≤ i → m.isFree i = m'.isFree i

theorem Keeps.mark {m m' : Marks} {k n i : Nat} (h : m.Keeps k n (m'.mark (i + k))) (hi : i < n) :
    m.Keeps k n m' := by
  intro j hj
  rw [h j hj, isFree_mark]
  have : i + k ≠ j := by omega
  simp [this]

end Marks

/-- The same move of the same path, its parts numbered from further on. -/
def Move.shift (k : Nat) : Move → Move
  | ended => ended
  | stop number => stop (number + k)
  | go paths => go (shiftAll k paths)
  | take number paths => take (number + k) (shiftAll k paths)

theorem move_shift (known : Anchor → Bool) (k : Nat) (path : Path) :
    move known (path.map (Task.shift k)) = (move known path).shift k := by
  cases path with
  | nil => rfl
  | cons task tasks =>
    cases task with
    | again greedy body number =>
      simp [move, Move.shift, Task.shift, Nat.add_right_comm]
    | part r number =>
      cases r with
      | look anchor => cases hk : known anchor <;> simp [move, moveInto, Move.shift, Task.shift, hk]
      | _ => simp [move, moveInto, Move.shift, Task.shift, Nat.add_right_comm]

/-- A move takes up a part below the bound, and leads to paths below it. -/
theorem fits_move {known : Anchor → Bool} {n : Nat} {path : Path}
    (h : ∀ task ∈ path, task.Fits n) :
    (∀ number, (move known path).number? = some number → number < n) ∧
      (∀ paths, move known path = .go paths → AllFit n paths) ∧
      ∀ number paths, move known path = .take number paths → AllFit n paths := by
  cases path with
  | nil => simp [move, Move.number?]
  | cons task tasks =>
    obtain ⟨htask, htasks⟩ := List.forall_mem_cons.1 h
    cases task with
    | again greedy body number =>
      rw [Task.fits_again] at htask
      simp only [move, Move.number?, Option.some.injEq, reduceCtorEq, Move.take.injEq]
      grind [allFit_ways, Task.fits_part, Task.fits_again]
    | part r number =>
      rw [Task.fits_part] at htask
      cases r with
      | empty => simpa [move, moveInto, Move.number?] using htasks
      | char set =>
        rw [parts] at htask
        simpa [move, moveInto, Move.number?] using (by omega : number < n)
      | look anchor =>
        rw [parts] at htask
        cases hk : known anchor <;> simp [move, moveInto, Move.number?, hk] <;> grind
      | _ =>
        rw [parts] at htask
        simp [move, moveInto, Move.number?]
        grind

open Marks in
/-- Paths settled side by side with others come to what they come to alone. The others are given
up if one of them is at its end, and otherwise find their own parts as free as they were. -/
theorem settle_beside (known : Anchor → Bool) {paths : List Path} {m' : Marks} {n : Nat}
    (hfit : AllFit n paths) (k : Nat) (others : List Path) {m : Marks} (hm : m.Sees k n m') :
    ∃ rest : Marks, rest.Keeps k n m ∧
      settle known false (shiftAll k paths ++ others) m =
        shiftAll k (settle known false paths m') ++
          if isOver (settle known false paths m') then [] else settle known false others rest := by
  induction paths, m' using settle_induction known generalizing m with
  | nil m' => exact ⟨m, fun _ _ => rfl, by simp⟩
  | ended rest m' => exact ⟨m, fun _ _ => rfl, by simp⟩
  | stop path number rest m' hmove free ih =>
    obtain ⟨hpath, hrest⟩ := (allFit_cons n path rest).1 hfit
    have hlt := (fits_move hpath).1 number (by rw [hmove, Move.number?])
    have hmove' : move known (path.map (Task.shift k)) = .stop (number + k) := by
      rw [move_shift, hmove, Move.shift]
    obtain ⟨marks, hkeeps, heq⟩ := ih hrest (hm.mark number)
    refine ⟨marks, hkeeps.mark hlt, ?_⟩
    have hne : path.isEmpty = false := by
      cases path with
      | nil => cases hmove
      | cons => rfl
    rw [settle_stop hmove free, shiftAll_cons, List.cons_append,
      settle_stop hmove' ((hm number hlt).trans free), heq]
    simp [hne]
  | go path paths rest m' hmove ih =>
    obtain ⟨hpath, hrest⟩ := (allFit_cons n path rest).1 hfit
    have hmove' : move known (path.map (Task.shift k)) = .go (shiftAll k paths) := by
      rw [move_shift, hmove, Move.shift]
    obtain ⟨marks, hkeeps, heq⟩ :=
      ih ((allFit_append n paths rest).2 ⟨(fits_move hpath).2.1 paths hmove, hrest⟩) hm
    refine ⟨marks, hkeeps, ?_⟩
    rw [settle_go hmove, shiftAll_cons, List.cons_append, settle_go hmove', ← heq]
    simp
  | take path number paths rest m' hmove free ih =>
    obtain ⟨hpath, hrest⟩ := (allFit_cons n path rest).1 hfit
    have hlt := (fits_move hpath).1 number (by rw [hmove, Move.number?])
    have hmove' : move known (path.map (Task.shift k)) = .take (number + k) (shiftAll k paths) := by
      rw [move_shift, hmove, Move.shift]
    obtain ⟨marks, hkeeps, heq⟩ :=
      ih ((allFit_append n paths rest).2 ⟨(fits_move hpath).2.2 number paths hmove, hrest⟩)
        (hm.mark number)
    refine ⟨marks, hkeeps.mark hlt, ?_⟩
    rw [settle_take hmove free, shiftAll_cons, List.cons_append,
      settle_take hmove' ((hm number hlt).trans free), ← heq]
    simp
  | taken path number rest m' hmove taken ih =>
    obtain ⟨hpath, hrest⟩ := (allFit_cons n path rest).1 hfit
    have hlt := (fits_move hpath).1 number hmove
    have hmove' : (move known (path.map (Task.shift k))).number? = some (number + k) := by
      rw [move_shift]
      cases hm : move known path <;> simp_all [Move.number?, Move.shift]
    obtain ⟨marks, hkeeps, heq⟩ := ih hrest hm
    refine ⟨marks, hkeeps, ?_⟩
    rw [settle_taken hmove taken, shiftAll_cons, List.cons_append,
      settle_taken hmove' ((hm number hlt).trans taken), heq]

theorem Marks.sees_none {k n parts : Nat} (h : k + n ≤ parts) : (none parts).Sees k n (none n) := by
  intro i hi
  have hlt : i + k < parts := by omega
  simp [isFree_none, hi, hlt]

theorem settle_shiftAll {known : Anchor → Bool} {paths : List Path} {m m' : Marks} {n k : Nat}
    (hfit : AllFit n paths) (hm : m.Sees k n m') :
    settle known false (shiftAll k paths) m = shiftAll k (settle known false paths m') := by
  obtain ⟨rest, -, heq⟩ := settle_beside known hfit k [] hm
  simpa using heq

theorem allFit_settle {known : Anchor → Bool} {paths : List Path} {m : Marks} {n : Nat}
    (hfit : AllFit n paths) : AllFit n (settle known false paths m) := by
  induction paths, m using settle_induction known with
  | nil m => simp
  | ended rest m => simp
  | stop path number rest m hmove free ih =>
    rw [allFit_cons] at hfit
    rw [settle_stop hmove free, allFit_cons]
    exact ⟨hfit.1, ih hfit.2⟩
  | go path paths rest m hmove ih =>
    rw [allFit_cons] at hfit
    rw [settle_go hmove]
    exact ih ((allFit_append n paths rest).2 ⟨(fits_move hfit.1).2.1 paths hmove, hfit.2⟩)
  | take path number paths rest m hmove free ih =>
    rw [allFit_cons] at hfit
    rw [settle_take hmove free]
    exact ih ((allFit_append n paths rest).2 ⟨(fits_move hfit.1).2.2 number paths hmove, hfit.2⟩)
  | taken path number rest m hmove taken ih =>
    rw [allFit_cons] at hfit
    rw [settle_taken hmove taken]
    exact ih hfit.2

theorem pass?_eq_some {h : Haystack} {p : Nat} {path tasks : Path}
    (hp : pass? h p path = some tasks) :
    ∃ set number, path = .part (.char set) number :: tasks ∧ set.hasAt h p = true := by
  unfold pass? at hp
  split at hp
  · rename_i set number tasks'
    split at hp
    · rename_i hat
      cases hp
      exact ⟨set, number, rfl, hat⟩
    · cases hp
  · cases hp

theorem allFit_pass {paths : List Path} {n : Nat} (hfit : AllFit n paths) (h : Haystack) (p : Nat) :
    AllFit n (pass h p paths) := by
  intro tasks htasks task htask
  obtain ⟨path, hpath, hpass⟩ := List.mem_filterMap.1 htasks
  obtain ⟨set, number, rfl, -⟩ := pass?_eq_some hpass
  exact hfit _ (List.takeWhile_subset _ hpath) task (List.mem_cons_of_mem _ htask)

theorem pass_cons (h : Haystack) (p : Nat) (path : Path) (paths : List Path) :
    pass h p (path :: paths) =
      if path.isEmpty then [] else (pass? h p path).toList ++ pass h p paths := by
  unfold pass
  cases path with
  | nil => rfl
  | cons task tasks => cases hp : pass? h p (task :: tasks) <;> simp [hp]

theorem pass?_shift (h : Haystack) (p k : Nat) (path : Path) :
    pass? h p (path.map (Task.shift k)) = (pass? h p path).map (·.map (Task.shift k)) := by
  cases path with
  | nil => rfl
  | cons task tasks =>
    cases task with
    | again greedy body number => rfl
    | part r number =>
      cases r with
      | char set => cases hat : set.hasAt h p <;> simp [pass?, Task.shift, hat]
      | _ => rfl

theorem pass_shiftAll (h : Haystack) (p k : Nat) (paths : List Path) :
    pass h p (shiftAll k paths) = shiftAll k (pass h p paths) := by
  induction paths with
  | nil => rfl
  | cons path paths ih =>
    rw [shiftAll_cons, pass_cons, pass_cons, ih, pass?_shift]
    cases path with
    | nil => rfl
    | cons task tasks => cases pass? h p (task :: tasks) <;> rfl

theorem pass_append (h : Haystack) (p : Nat) (paths others : List Path) :
    pass h p (paths ++ others) =
      pass h p paths ++ if isOver paths then [] else pass h p others := by
  induction paths with
  | nil => rfl
  | cons path paths ih =>
    rw [List.cons_append, pass_cons, pass_cons, ih, isOver_cons]
    cases path with
    | nil => rfl
    | cons task tasks => simp

theorem endFrom?_shiftAll {h : Haystack} {n k parts p : Nat} {paths : List Path}
    {best : Option Nat} (hfit : AllFit n paths) (hk : k + n ≤ parts) :
    endFrom? h parts p (shiftAll k paths) best = endFrom? h n p paths best := by
  fun_induction endFrom? h n p paths best with
  | case1 p paths best stops best' live hlive ih =>
    rw [endFrom?, settle_shiftAll hfit (Marks.sees_none hk), isOver_shiftAll, pass_shiftAll]
    have hlive' : p < h.stop ∧ (!(shiftAll k live).isEmpty) = true := by
      simpa [shiftAll] using hlive
    exact (if_pos hlive').trans (ih (allFit_pass (allFit_settle hfit) h p))
  | case2 p paths best stops best' live hlive =>
    rw [endFrom?, settle_shiftAll hfit (Marks.sees_none hk), isOver_shiftAll, pass_shiftAll]
    have hlive' : ¬(p < h.stop ∧ (!(shiftAll k live).isEmpty) = true) := by
      simpa [shiftAll] using hlive
    exact if_neg hlive'

/-- With no paths left, the latest end is the end. -/
theorem endFrom?_nil (h : Haystack) (parts p : Nat) (best : Option Nat) :
    endFrom? h parts p [] best = best := by
  rw [endFrom?]
  simp [pass]

theorem isSome_endFrom? (h : Haystack) (parts p : Nat) (paths : List Path) {best : Option Nat}
    (hb : best.isSome) : (endFrom? h parts p paths best).isSome := by
  fun_induction endFrom? h parts p paths best with
  | case1 p paths best stops best' live hlive ih =>
    apply ih
    simp only [best']
    split
    · rfl
    · exact hb
  | case2 p paths best stops best' live hlive =>
    simp only [best']
    split
    · rfl
    · exact hb

/-- One position further. Without paths, or at the end of the region, nothing changes any more. -/
theorem endFrom?_eq (h : Haystack) (parts p : Nat) (paths : List Path) (best : Option Nat) :
    endFrom? h parts p paths best =
      let stops := settle (·.holds h p) false paths (.none parts)
      let best := if isOver stops then some p else best
      if p < h.stop then endFrom? h parts (p + 1) (pass h p stops) best else best := by
  rw [endFrom?]
  by_cases hp : p < h.stop
  · cases hl : pass h p (settle (·.holds h p) false paths (.none parts)) with
    | nil => simp [hp, hl, endFrom?_nil]
    | cons path paths => simp [hp, hl]
  · simp [hp]

theorem settle_append {known : Anchor → Bool} {paths others : List Path} {a b k l : Nat}
    {m ma mb : Marks} (ha : AllFit a paths) (hb : AllFit b others) (hk : k + a ≤ l)
    (hma : m.Sees k a ma) (hmb : m.Sees l b mb) :
    settle known false (shiftAll k paths ++ shiftAll l others) m =
      shiftAll k (settle known false paths ma) ++
        if isOver (settle known false paths ma) then []
        else shiftAll l (settle known false others mb) := by
  obtain ⟨rest, hkeeps, heq⟩ := settle_beside known ha k (shiftAll l others) hma
  have hrest : rest.Sees l b mb := by
    intro i hi
    rw [hkeeps (i + l) (.inr (by omega)), hmb i hi]
  rw [heq, settle_shiftAll hb hrest]

/-- Paths side by side come to the end that the first ones come to, or else to that of the others. -/
theorem endFrom?_append {h : Haystack} {a b k l parts p : Nat} {paths others : List Path}
    {best : Option Nat} (ha : AllFit a paths) (hb : AllFit b others) (hk : k + a ≤ l)
    (hl : l + b ≤ parts) :
    endFrom? h parts p (shiftAll k paths ++ shiftAll l others) best =
      (endFrom? h a p paths none).or (endFrom? h b p others best) := by
  induction hd : h.stop - p generalizing p paths others best with
  | zero =>
    have hp : ¬p < h.stop := by omega
    rw [endFrom?_eq, endFrom?_eq h a, endFrom?_eq h b,
      settle_append ha hb hk (Marks.sees_none (by omega)) (Marks.sees_none hl)]
    cases hover : isOver (settle (·.holds h p) false paths (.none a)) <;>
      simp [hp, hover, isOver_append, isOver_shiftAll]
  | succ d ih =>
    have hp : p < h.stop := by omega
    rw [endFrom?_eq, endFrom?_eq h a, endFrom?_eq h b,
      settle_append ha hb hk (Marks.sees_none (by omega)) (Marks.sees_none hl)]
    have hfita : AllFit a (pass h p (settle (·.holds h p) false paths (.none a))) :=
      allFit_pass (allFit_settle ha) h p
    have hfitb : AllFit b (pass h p (settle (·.holds h p) false others (.none b))) :=
      allFit_pass (allFit_settle hb) h p
    generalize settle (·.holds h p) false paths (.none a) = stops at hfita ⊢
    generalize settle (·.holds h p) false others (.none b) = others at hfitb ⊢
    cases hover : isOver stops with
    | true =>
      -- The first ones are at an end, and the others are given up.
      have hsome : (endFrom? h a (p + 1) (pass h p stops) (some p)).isSome :=
        isSome_endFrom? h a (p + 1) (pass h p stops) rfl
      obtain ⟨e, he⟩ := Option.isSome_iff_exists.1 hsome
      simp [hp, hover, isOver_shiftAll, pass_shiftAll,
        endFrom?_shiftAll hfita (show k + a ≤ parts by omega), he]
    | false =>
      simp [hp, hover, isOver_append, isOver_shiftAll, pass_append, pass_shiftAll,
        ih hfita hfitb (show h.stop - (p + 1) = d by omega)]

theorem allFit_start (r : Regex) : AllFit r.parts [r.start] := by
  simp [start]

theorem shiftAll_start (r : Regex) (k : Nat) : shiftAll k [r.start] = [[.part r k]] := by
  simp [start, Task.shift]

/-- Searches from the start of two expressions come to one end if they settle alike there. -/
theorem endFrom?_congr {h : Haystack} {parts p : Nat} {paths paths' : List Path}
    (hs : settle (·.holds h p) false paths (.none parts) =
      settle (·.holds h p) false paths' (.none parts)) (best : Option Nat) :
    endFrom? h parts p paths best = endFrom? h parts p paths' best := by
  rw [endFrom?_eq, endFrom?_eq h parts p paths', hs]

/-- A group matches where its body does. -/
theorem endAt?_group (name : Option String) (body : Regex) (h : Haystack) (p : Nat) :
    (group name body).endAt? h p = body.endAt? h p :=
  endFrom?_congr (@settle_go _ (group name body).start _ [] _ rfl) none

/-- A choice matches where its first branch does, or else where its second does. -/
theorem endAt?_alt (r s : Regex) (h : Haystack) (p : Nat) :
    (alt r s).endAt? h p = (r.endAt? h p).or (s.endAt? h p) := by
  have hsees : ∀ {k n}, 1 ≤ k → k + n ≤ (alt r s).parts →
      ((Marks.none (alt r s).parts).mark 0).Sees k n (.none n) := by
    intro k n hk hn i hi
    have hlt : i + k < (alt r s).parts := by omega
    have hne : (0 != i + k) = true := by
      rw [bne_iff_ne]
      omega
    simp [Marks.isFree_mark, Marks.isFree_none, hi, hlt, hne]
  have hparts : (alt r s).parts = r.parts + s.parts + 1 := rfl
  have hfree : (Marks.none (alt r s).parts).isFree 0 = true := by
    simp [Marks.isFree_none, hparts]
  have hsettle : settle (·.holds h p) false [(alt r s).start] (.none (alt r s).parts) =
      settle (·.holds h p) false (shiftAll 1 [r.start] ++ shiftAll (1 + r.parts) [s.start])
        (.none (alt r s).parts) := by
    rw [shiftAll_start, shiftAll_start, @settle_take _ (alt r s).start _ [] _ _ rfl hfree,
      Nat.zero_add, List.append_nil, ← shiftAll_start r 1, ← shiftAll_start s (1 + r.parts)]
    change settle _ false (shiftAll 1 [r.start] ++ shiftAll (1 + r.parts) [s.start]) _ = _
    rw [settle_append (allFit_start r) (allFit_start s) (Nat.le_refl _)
        (hsees (Nat.le_refl _) (by omega)) (hsees (by omega) (by omega)),
      settle_append (allFit_start r) (allFit_start s) (Nat.le_refl _)
        (Marks.sees_none (by omega)) (Marks.sees_none (by omega))]
  exact (endFrom?_congr hsettle none).trans
    (endFrom?_append (allFit_start r) (allFit_start s) (Nat.le_refl _) (by omega))

/-- A choice matches where the first of its branches does that matches. -/
theorem endAt?_eq_findSome? (r : Regex) (h : Haystack) (p : Nat) :
    r.endAt? h p = r.branches.findSome? (·.endAt? h p) := by
  induction r with
  | alt r s _ ih =>
    rw [endAt?_alt, branches, List.findSome?_cons, ih]
    cases r.endAt? h p <;> rfl
  | _ => simp [branches]

end Highlighter.Regex
