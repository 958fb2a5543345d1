import Highlighter.Highlighting

/-!
Token by token or all at once. The tokens that one call after the other gives are those that are
given at once, in the same order and with the same outcome, and then there are no more.
-/

namespace Highlighter

namespace Scan.State

variable {ctx : Context} {s t : State} {span : Span}

theorem drain_of_done (inside : Embedding ctx → Inner) (found : Array Span)
    (hdone : s.done = true) :
    s.drain ctx inside found = (found ++ s.emitter.ready.toArray, s.emptied) := by
  rw [drain]
  simp [hdone]

theorem drain_of_going (inside : Embedding ctx → Inner) (found : Array Span)
    (going : s.done = false) :
    s.drain ctx inside found =
      (s.emptied.step ctx inside).drain ctx inside (found ++ s.emitter.ready.toArray) := by
  rw [drain]
  simp [going]

/-- What has been found before stays in front. -/
theorem drain_append (inside : Embedding ctx → Inner) (before found : Array Span) (s : State) :
    s.drain ctx inside (before ++ found) =
      (before ++ (s.drain ctx inside found).1, (s.drain ctx inside found).2) := by
  fun_induction s.drain ctx inside found with
  | case1 found s found' hdone =>
    rw [drain_of_done inside _ hdone, Array.append_assoc]
  | case2 found s found' hdone ih =>
    rw [drain_of_going inside _ (Bool.eq_false_iff.2 hdone), Array.append_assoc]
    exact ih

theorem drain_of_pop {emitter : Emitter} (popped : s.emitter.pop? = some (span, emitter))
    (inside : Embedding ctx → Inner) :
    s.drain ctx inside #[] =
      (#[span] ++ (State.drain ctx inside #[] { s with emitter }).1,
        (State.drain ctx inside #[] { s with emitter }).2) := by
  unfold Emitter.pop? at popped
  split at popped
  · rename_i ready hready
    cases popped
    let t : State := { s with emitter := { s.emitter with ready } }
    have hfront : #[] ++ (span :: ready).toArray = #[span] ++ (#[] ++ ready.toArray) := by simp
    change _ = (#[span] ++ (t.drain ctx inside #[]).1, (t.drain ctx inside #[]).2)
    cases hdone : s.done with
    | true =>
      rw [drain_of_done inside _ hdone, hready, hfront, drain_of_done (s := t) inside _ hdone]
      rfl
    | false =>
      rw [drain_of_going inside _ hdone, hready, hfront, drain_append,
        drain_of_going (s := t) inside _ hdone]
      rfl
  · cases popped

theorem emptied_of_pop (popped : s.emitter.pop? = none) :
    s.emitter.ready = [] ∧ s.emptied = s := by
  unfold Emitter.pop? at popped
  split at popped
  · cases popped
  · rename_i hready
    refine ⟨hready, ?_⟩
    unfold emptied
    rw [← hready]

/-- With no span ready, a step leaves what is to be drained. -/
theorem drain_takeStep (popped : s.emitter.pop? = none) (going : s.done = false) :
    s.drain ctx ctx.inside #[] = (s.takeStep ctx).drain ctx ctx.inside #[] := by
  obtain ⟨hready, hempty⟩ := emptied_of_pop popped
  rw [drain_of_going ctx.inside _ going, hready, hempty]
  rfl

theorem drain_of_next_some (h : s.next ctx = (some span, t)) :
    s.drain ctx ctx.inside #[] =
      (#[span] ++ (t.drain ctx ctx.inside #[]).1, (t.drain ctx ctx.inside #[]).2) := by
  fun_induction s.next ctx with
  | case1 s span emitter popped =>
    cases h
    exact drain_of_pop popped ctx.inside
  | case2 => cases h
  | case3 s popped going ih =>
    rw [drain_takeStep popped (Bool.eq_false_iff.2 going)]
    exact ih h

/-- When there is no span any more the region is done, and it stays so. -/
theorem drain_of_next_none (h : s.next ctx = (none, t)) :
    t.done = true ∧ s.drain ctx ctx.inside #[] = (#[], t) ∧
      t.drain ctx ctx.inside #[] = (#[], t) := by
  fun_induction s.next ctx with
  | case1 => cases h
  | case2 s popped hdone =>
    cases h
    obtain ⟨hready, hempty⟩ := emptied_of_pop popped
    have hdrain : t.drain ctx ctx.inside #[] = (#[], t) := by
      rw [drain_of_done ctx.inside _ hdone, hready, hempty]
      rfl
    exact ⟨hdone, hdrain, hdrain⟩
  | case3 s popped going ih =>
    rw [drain_takeStep popped (Bool.eq_false_iff.2 going)]
    exact ih h

end Scan.State

namespace Highlighting

/-- The highlighting when the next token has been asked for some number of times. -/
def after (h : Highlighting) : Nat → Highlighting
  | 0 => h
  | n + 1 => h.next.2.after n

/-- What is left is the next token and what is left behind it. -/
theorem rest_eq (h : Highlighting) :
    h.rest = (h.next.1.toList ++ h.next.2.rest.1, h.next.2.rest.2) := by
  unfold next rest
  rcases hnext : h.state.next h.ctx with ⟨_ | span, t⟩
  · obtain ⟨-, hdrain, hrest⟩ := Scan.State.drain_of_next_none hnext
    simp [hdrain, hrest]
  · have hdrain := Scan.State.drain_of_next_some hnext
    simp [hdrain]

theorem rest_of_next_none {h : Highlighting} (hn : h.next.1 = none) :
    h.rest.1 = [] ∧ h.next.2.state.done = true := by
  unfold next rest at *
  rcases hnext : h.state.next h.ctx with ⟨_ | span, t⟩
  · obtain ⟨hdone, hdrain, -⟩ := Scan.State.drain_of_next_none hnext
    simp [hdrain, hdone]
  · simp [hnext] at hn

/-- Asked for one after the other, the tokens are those that are given at once, and then none. -/
theorem next_after (h : Highlighting) (n : Nat) : (h.after n).next.1 = h.rest.1[n]? := by
  induction n generalizing h with
  | zero =>
    cases hn : h.next.1 with
    | none => simp [after, hn, (rest_of_next_none hn).1]
    | some token => simp [after, hn, rest_eq h]
  | succ n ih =>
    rw [after, ih, rest_eq h]
    cases hn : h.next.1 with
    | none =>
      have hrest : h.next.2.rest.1 = [] := by
        have hall := (rest_of_next_none hn).1
        rw [rest_eq h] at hall
        exact (List.append_eq_nil_iff.1 hall).2
      simp [hrest]
    | some token => simp

/-- However many tokens have been asked for, the final state is the same. -/
theorem rest_after (h : Highlighting) (n : Nat) : (h.after n).rest.2 = h.rest.2 := by
  induction n generalizing h with
  | zero => rfl
  | succ n ih => rw [after, ih, rest_eq h]

end Highlighting

end Highlighter
