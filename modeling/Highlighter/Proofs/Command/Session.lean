import Highlighter.Command.Run

/-!
A run without its log. What is logged never decides what is done, so what a part of a run gives, if
it does not go wrong, can be told without it.
-/

namespace Highlighter

namespace Command

namespace Session

variable {α β ε : Type} {x : Session Id α} {y : Option α}

/-- What is given, whatever has been logged before, or nothing if something goes wrong. -/
def Gives (x : Session Id α) (y : Option α) : Prop :=
  ∀ records, (x.run.run records).run.1.toOption = y

theorem gives_pure (a : α) : Gives (pure a) (some a) := fun _ => rfl

theorem gives_throw (message : String) : Gives (throw message : Session Id α) none := fun _ => rfl

theorem gives_require (describe : ε → String) (r : Except ε α) :
    Gives (require describe r) r.toOption := by
  cases r with
  | ok a => exact gives_pure a
  | error e => exact gives_throw _

theorem run_bind (x : Session Id α) (f : α → Session Id β) (records : List Record) :
    ((x >>= f).run.run records).run = match (x.run.run records).run with
      | (.ok a, after) => ((f a).run.run after).run
      | (.error e, after) => (.error e, after) := by
  rw [ExceptT.run_bind, StateT.run_bind, Id.run_bind]
  rcases (x.run.run records).run with ⟨_ | a, after⟩ <;> rfl

theorem Gives.bind (h : Gives x y) {f : α → Session Id β} {g : α → Option β}
    (hf : ∀ a, Gives (f a) (g a)) : Gives (x >>= f) (y.bind g) := by
  intro records
  have hx := h records
  rw [run_bind]
  rcases hrun : (x.run.run records).run with ⟨_ | a, after⟩
  · rw [hrun] at hx
    cases hx
    rfl
  · rw [hrun] at hx
    cases hx
    exact hf a after

/-- Logging goes by unnoticed. -/
theorem Gives.behind_log {f : Unit → Session Id α} (h : Gives (f ()) y) (records : List Record) :
    Gives (log records >>= f) y := fun before => h (before ++ records)

/-- So does looking at what is around the command. -/
theorem Gives.behind_lift {a : Id α} {f : α → Session Id β} {z : Option β} (h : Gives (f a.run) z) :
    Gives ((liftM a : Session Id α) >>= f) z := h

theorem Gives.map (h : Gives x y) (f : α → β) : Gives (x >>= fun a => pure (f a)) (y.map f) := by
  rw [Option.map_eq_bind]
  exact h.bind fun a => gives_pure (f a)

theorem gives_foldlM {f : β → α → Session Id β} {g : β → α → Option β}
    (h : ∀ b a, Gives (f b a) (g b a)) (xs : List α) (b : β) :
    Gives (xs.foldlM f b) (xs.foldlM g b) := by
  induction xs generalizing b with
  | nil => exact gives_pure b
  | cons a xs ih =>
    rw [List.foldlM_cons, List.foldlM_cons]
    exact (h b a).bind ih

/-- A loop that is never left early goes on from what each round gives. -/
theorem gives_forIn {f : α → β → Session Id (ForInStep β)} {g : β → α → Option β}
    (h : ∀ b a, Gives (f a b) ((g b a).map .yield)) (xs : List α) (b : β) :
    Gives (forIn xs b f) (xs.foldlM g b) := by
  induction xs generalizing b with
  | nil => exact gives_pure b
  | cons a xs ih =>
    rw [List.forIn_cons, List.foldlM_cons]
    have hround := (h b a).bind (f := fun r => match r with
      | .done b => pure b
      | .yield b => forIn xs b f) (g := fun r => match r with
      | .done b => some b
      | .yield b => xs.foldlM g b) fun
        | .done b => gives_pure b
        | .yield b => ih b
    rwa [Option.bind_map] at hround

end Session

end Command

end Highlighter
