import Highlighter.Proofs.Lazy.Growing
import Highlighter.Proofs.Scopes.Ends

/-!
Highlighting that is cut off anywhere and then gone on with at once. After any number of calls for the
next token the rest is what was still to come, with the outcome of the whole. The outcome never goes
back on the way there, and behind the last token nothing changes any more.
-/

namespace Highlighter

namespace Scan

/-- When there is no span any more, asking again gives none and changes nothing. -/
theorem State.next_of_next_none {ctx : Context} {s t : State} (h : s.next ctx = (none, t)) :
    t.next ctx = (none, t) := by
  fun_induction s.next ctx with
  | case1 => cases h
  | case2 s popped hdone =>
    cases h
    rw [State.next]
    simp [popped, hdone]
  | case3 s popped going ih => exact ih h

/-- Something is left open only in a region that is done. -/
theorem Reached.done_of_incomplete {top ctx : Context} {first : Nat} {s : State}
    (h : Reached top ctx first s) (left : s.outcome.incomplete = true) : s.done = true := by
  induction h with
  | start => cases left
  | take reached popped ih => exact ih left
  | @step ctx first s reached going ih =>
    rw [State.incomplete_takeStep going, Bool.or_eq_true] at left
    rcases left with before | now
    · rw [going] at ih
      cases ih before
    · exact (Bool.and_eq_true_iff.1 now).1
  | embed => cases left

variable {grammar : Grammar} {language? : String → Option Grammar} {maxDepth : Nat} {text : String}

/-- A region that is done has been searched to its end. -/
theorem Reached.cursor_of_done {ctx : Context} {first : Nat} {s : State}
    (h : Reached (Highlighting.start grammar language? maxDepth text).ctx ctx first s)
    (hdone : s.done = true) : s.cursor = ctx.stop := by
  obtain ⟨middle, -, covers⟩ := h.placed.covers
  have hgap := covers.gap_le_cursor
  rw [(covers.ended hdone).1] at hgap
  exact Nat.le_antisymm covers.cursor_le_stop hgap

end Scan

namespace Highlighting

/-- The tokens that this many calls for the next token give. -/
def given (h : Highlighting) : Nat → List Token
  | 0 => []
  | n + 1 => h.next.1.toList ++ h.next.2.given n

theorem after_add (h : Highlighting) (k n : Nat) : h.after (k + n) = (h.after k).after n := by
  induction k generalizing h with
  | zero => rw [Nat.zero_add, after]
  | succ k ih => rw [Nat.add_right_comm, after, after, ih]

theorem after_succ (h : Highlighting) (k : Nat) : h.after (k + 1) = (h.after k).next.2 :=
  h.after_add k 1

theorem ctx_after (h : Highlighting) (k : Nat) : (h.after k).ctx = h.ctx := by
  induction k with
  | zero => rfl
  | succ k ih =>
    rw [after_succ]
    exact ih

/-- What has been given and what is left are what there was at first. -/
theorem given_append_rest (h : Highlighting) (k : Nat) :
    h.given k ++ (h.after k).rest.1 = h.rest.1 := by
  induction k generalizing h with
  | zero => rfl
  | succ k ih =>
    rw [given, after, List.append_assoc, ih]
    exact (congrArg Prod.fst (rest_eq h)).symm

theorem reached_after (h : Highlighting) (hstart : h.state = Scan.State.start 0) (k : Nat) :
    Scan.Reached h.ctx h.ctx 0 (h.after k).state := by
  induction k with
  | zero =>
    rw [after, hstart]
    exact .start
  | succ k ih =>
    have hnext := ih.next
    rw [after_succ]
    rwa [← ctx_after h k] at hnext ⊢

/-- Calls for the next token do not take the outcome back. -/
theorem grows_after (h : Highlighting) (n : Nat) : h.outcome.GrowsTo (h.after n).outcome := by
  induction n generalizing h with
  | zero => exact .refl _
  | succ n ih => exact (Scan.State.grows_next h.ctx h.state).trans (ih h.next.2)

/-- Without a next token, the highlighting stands where every further call leaves it. -/
theorem after_of_next_none {h : Highlighting} (hn : h.next.1 = none) (n : Nat) :
    h.after (n + 1) = h.next.2 ∧ h.next.2.next.1 = none := by
  have hnext : h.next.2.next = (none, h.next.2) := by
    unfold next at *
    rcases hstep : h.state.next h.ctx with ⟨span, t⟩
    rw [hstep] at hn
    obtain rfl := Option.map_eq_none_iff.1 hn
    simp only [Scan.State.next_of_next_none hstep, Option.map_none]
  refine ⟨?_, congrArg Prod.fst hnext⟩
  induction n with
  | zero => rfl
  | succ n ih => rw [after_succ, ih, hnext]

/-- Without a next token, what has come about is the final outcome. -/
theorem outcome_of_next_none {h : Highlighting} (hn : h.next.1 = none) :
    h.next.2.outcome = h.rest.2.outcome := by
  unfold next rest outcome at *
  rcases hnext : h.state.next h.ctx with ⟨_ | span, t⟩
  · obtain ⟨-, hdrain, -⟩ := Scan.State.drain_of_next_none hnext
    simp only [hdrain]
  · simp [hnext] at hn

/-- Going on token by token agrees with going on at once. -/
structure AgreesAtOnce (h : Highlighting) (text : String) (whole : Highlight) : Prop where
  /-- Cut off after any number of calls and gone on with at once, the tokens are those of the
  whole. -/
  tokens : ∀ k, h.given k ++ (h.after k).toHighlight.tokens = whole.tokens
  /-- Beside the tokens what is gone on with at once comes to what the whole comes to. -/
  language : ∀ k, (h.after k).toHighlight.language = whole.language
  outcome : ∀ k, (h.after k).toHighlight.outcome = whole.outcome
  /-- From call to call the outcome never goes back, and it never is beyond that of the whole. -/
  grows : ∀ k n, (h.after k).outcome.GrowsTo (h.after (k + n)).outcome
  grows_whole : ∀ k, (h.after k).outcome.GrowsTo whole.outcome
  /-- Something is left open only when the text has been searched to its end. -/
  incomplete : ∀ k, (h.after k).outcome.incomplete = true →
    (h.after k).state.done = true ∧ (h.after k).state.cursor = (Source.ofString text).size
  /-- After a call that gives no token, no further call gives one, and the outcome stays as it is:
  that of the whole. -/
  ended : ∀ k n, (h.after k).next.1 = none →
    (h.after (k + n)).next.1 = none ∧ (h.after (k + n)).next.2.outcome = whole.outcome

end Highlighting

/-- Highlighting that is cut off after any number of tokens agrees with highlighting at once, in every
grammar, with every way to find embedded languages, at every depth cap and for every text. -/
theorem highlight_agreesAtOnce (grammar : Grammar) (language? : String → Option Grammar)
    (maxDepth : Nat) (text : String) :
    (Highlighting.start grammar language? maxDepth text).AgreesAtOnce text
      (grammar.highlight text language? maxDepth) := by
  let h := Highlighting.start grammar language? maxDepth text
  have hreached := h.reached_after rfl
  have houtcome : ∀ k, (h.after k).toHighlight.outcome = h.toHighlight.outcome :=
    fun k => congrArg Highlighting.outcome (h.rest_after k)
  have hended : ∀ k n, (h.after k).next.1 = none → (h.after (k + n)).next.1 = none := by
    intro k n hnone
    cases n with
    | zero => exact hnone
    | succ n =>
      obtain ⟨hsame, hagain⟩ := Highlighting.after_of_next_none hnone n
      rw [h.after_add, hsame]
      exact hagain
  exact {
    tokens := h.given_append_rest
    language k := congrArg (·.grammar.name) (h.ctx_after k)
    outcome := houtcome
    grows k n := by
      rw [h.after_add]
      exact (h.after k).grows_after n
    grows_whole k := by
      -- After as many calls as there are tokens the outcome is that of the whole.
      have hnone : (h.after (k + h.rest.1.length)).next.1 = none := by
        rw [h.next_after]
        exact List.getElem?_eq_none (Nat.le_add_left ..)
      have hgrows := (h.after k).grows_after (h.rest.1.length + 1)
      rw [← h.after_add, ← Nat.add_assoc, h.after_succ] at hgrows
      exact hgrows.trans (.of_eq ((Highlighting.outcome_of_next_none hnone).trans (houtcome _)))
    incomplete k hleft := by
      have hdone := (hreached k).done_of_incomplete hleft
      exact ⟨hdone, (hreached k).cursor_of_done hdone⟩
    ended k n hnone := by
      have hnone' := hended k n hnone
      exact ⟨hnone', (Highlighting.outcome_of_next_none hnone').trans (houtcome (k + n))⟩ }

end Highlighter
