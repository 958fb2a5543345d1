import Highlighter.Regex.Search

/-!
What settling paths does with the first of them, said once. A path is at its end, or it stops at a
character, or other paths take its place. What holds of settling is shown move by move from here.
-/

namespace Highlighter.Regex

/-- What becomes of a path while it is settled. -/
inductive Move
  /-- It is at its end. -/
  | ended
  /-- It needs a character, the part with a number. -/
  | stop (number : Nat)
  /-- Paths take its place. -/
  | go (paths : List Path)
  /-- Paths take its place, unless the part with a number has been taken up. -/
  | take (number : Nat) (paths : List Path)

/-- The part that a move takes up. -/
def Move.number? : Move → Option Nat
  | stop number | take number _ => some number
  | ended | go _ => none

/-- What becomes of a path that has an expression in front of it. -/
def moveInto (known : Anchor → Bool) (number : Nat) (tasks : Path) : Regex → Move
  | empty => .go [tasks]
  | char _ => .stop number
  | look anchor => .take number (if known anchor then [tasks] else [])
  | seq r s => .go [.part r number :: .part s (number + r.parts) :: tasks]
  | alt r s =>
    .take number [.part r (number + 1) :: tasks, .part s (number + 1 + r.parts) :: tasks]
  | opt greedy body => .take number (ways greedy (.part body (number + 1) :: tasks) tasks)
  | plus greedy body => .go [.part body (number + 1) :: .again greedy body number :: tasks]
  | star greedy body => .go [.again greedy body number :: tasks]
  | group _ body => .go [.part body number :: tasks]

/-- What becomes of a path where some conditions are known to hold. -/
def move (known : Anchor → Bool) : Path → Move
  | [] => .ended
  | .again greedy body number :: tasks =>
    .take number
      (ways greedy (.part body (number + 1) :: .again greedy body number :: tasks) tasks)
  | .part r number :: tasks => moveInto known number tasks r

section Settle

variable {known : Anchor → Bool} {path : Path} {paths rest : List Path} {m : Marks} {number : Nat}

@[simp] theorem settle_nil : settle known false [] m = [] := by
  rw [settle]

@[simp] theorem settle_ended : settle known false ([] :: rest) m = [[]] := by
  simp [settle]

theorem settle_stop (h : move known path = .stop number) (free : m.isFree number = true) :
    settle known false (path :: rest) m = path :: settle known false rest (m.mark number) := by
  cases path with
  | nil => cases h
  | cons task tasks =>
    cases task with
    | again greedy body number => cases h
    | part r number =>
      cases r with
      | char set =>
        cases h
        simp [settle, free]
      | _ => cases h

theorem settle_go (h : move known path = .go paths) :
    settle known false (path :: rest) m = settle known false (paths ++ rest) m := by
  cases path with
  | nil => cases h
  | cons task tasks =>
    cases task with
    | again greedy body number => cases h
    | part r number => cases r <;> cases h <;> rw [settle] <;> rfl

theorem settle_take (h : move known path = .take number paths) (free : m.isFree number = true) :
    settle known false (path :: rest) m = settle known false (paths ++ rest) (m.mark number) := by
  cases path with
  | nil => cases h
  | cons task tasks =>
    cases task with
    | again greedy body number =>
      cases h
      simp [settle, free]
    | part r number =>
      cases r with
      | look anchor =>
        cases h
        cases hk : known anchor <;> simp [settle, free, hk]
      | alt r s | opt greedy body =>
        cases h
        simp [settle, free]
      | _ => cases h

theorem settle_taken (h : (move known path).number? = some number)
    (taken : m.isFree number = false) :
    settle known false (path :: rest) m = settle known false rest m := by
  cases path with
  | nil => cases h
  | cons task tasks =>
    cases task with
    | again greedy body number =>
      cases h
      simp [settle, taken]
    | part r number =>
      cases r with
      | char set | look anchor | alt r s | opt greedy body =>
        cases h
        simp [settle, taken]
      | _ => cases h

end Settle

/-- What holds of paths and marks follows from what holds after one move of the first path. -/
theorem settle_induction (known : Anchor → Bool) {motive : List Path → Marks → Prop}
    (nil : ∀ m, motive [] m) (ended : ∀ rest m, motive ([] :: rest) m)
    (stop : ∀ path number rest m, move known path = .stop number → m.isFree number = true →
      motive rest (m.mark number) → motive (path :: rest) m)
    (go : ∀ path paths rest m, move known path = .go paths → motive (paths ++ rest) m →
      motive (path :: rest) m)
    (take : ∀ path number paths rest m, move known path = .take number paths →
      m.isFree number = true → motive (paths ++ rest) (m.mark number) → motive (path :: rest) m)
    (taken : ∀ path number rest m, (move known path).number? = some number →
      m.isFree number = false → motive rest m → motive (path :: rest) m)
    (paths : List Path) (m : Marks) : motive paths m := by
  induction paths, m using settle.induct known false with
  | case1 m => exact nil m
  | case2 m rest h => cases h
  | case3 m rest h => exact ended rest m
  | case4 m greedy body number tasks rest free round ih => exact take _ number _ rest m rfl free ih
  | case5 m greedy body number tasks rest free ih =>
    exact taken _ number rest m rfl (Bool.eq_false_iff.2 free) ih
  | case6 m number tasks rest ih => exact go _ _ rest m rfl ih
  | case7 m number tasks rest set free ih => exact stop _ number rest m rfl free ih
  | case8 m number tasks rest set free ih =>
    exact taken _ number rest m rfl (Bool.eq_false_iff.2 free) ih
  | case9 m number tasks rest anchor free paths h => cases h
  | case10 m number tasks rest anchor free paths h ih =>
    refine take _ number _ rest m rfl free ?_
    cases hk : known anchor <;> simpa [paths, hk] using ih
  | case11 m number tasks rest anchor free ih =>
    exact taken _ number rest m rfl (Bool.eq_false_iff.2 free) ih
  | case12 m number tasks rest r s ih => exact go _ _ rest m rfl ih
  | case13 m number tasks rest r s free ih => exact take _ number _ rest m rfl free ih
  | case14 m number tasks rest r s free ih =>
    exact taken _ number rest m rfl (Bool.eq_false_iff.2 free) ih
  | case15 m number tasks rest greedy body free round ih =>
    exact take _ number _ rest m rfl free ih
  | case16 m number tasks rest greedy body free ih =>
    exact taken _ number rest m rfl (Bool.eq_false_iff.2 free) ih
  | case17 m number tasks rest greedy body ih => exact go _ _ rest m rfl ih
  | case18 m number tasks rest greedy body ih => exact go _ _ rest m rfl ih
  | case19 m number tasks rest name body ih => exact go _ _ rest m rfl ih

end Highlighter.Regex
