import Highlighter.Proofs.Draining
import Highlighter.Proofs.Reached

/-!
Highlighting ends. Every piece of work leads to less work: a step to a state with less in front of
it, an embedded region to fewer levels below it, and a match of a word to a shorter rest of the
gap. So no run goes on for ever, be the languages embedded in each other as they may.
-/

namespace Highlighter

namespace Scan

/-- A piece of work: a state to go on from, or words to be searched from a position to the end of a
gap. -/
inductive Work
  | state (ctx : Context) (s : State)
  | words (grammar : Grammar) (source : Source) (stop position : Nat)

/-- The work that a piece of work leads to: what its next step is made of, and what comes behind
that. -/
inductive Leads : Work → Work → Prop
  | step {ctx : Context} {s : State} (going : s.done = false) :
      Leads (.state ctx s) (.state ctx (s.takeStep ctx))
  | embed {ctx : Context} {s : State} {e : Embedding ctx} (going : s.done = false)
      (embeds : s.Embeds ctx e) : Leads (.state ctx s) (.state e.context (.start e.start))
  | collect {ctx : Context} {s : State} {position : Nat} (going : s.done = false)
      (collects : s.CollectsTo ctx position) :
      Leads (.state ctx s) (.words ctx.grammar ctx.source position s.gap)
  | word {grammar : Grammar} {source : Source} {stop position first last : Nat}
      (going : position < stop)
      (found : grammar.word.findSwept? ⟨source.chars, stop⟩ position = some (first, last)) :
      Leads (.words grammar source stop position)
        (.words grammar source stop (State.pastWord first last))

/-- What is left of a piece of work: the levels below it, and on its own level what is ahead. -/
def Work.left : Work → Nat × Nat × Nat × Nat
  | .state ctx s => (ctx.cap - ctx.base + 1, s.ahead ctx)
  | .words _ _ stop position => (0, 0, stop - position, 0)

theorem Leads.left_lt {w v : Work} (h : Leads w v) :
    Prod.Lex (· < ·) (Prod.Lex (· < ·) (Prod.Lex (· < ·) (· < ·))) v.left w.left := by
  cases h with
  | step going => exact .right _ (State.step_ahead_lt _ _ going)
  | @embed ctx s e going embeds =>
    have hbase := e.lt_base
    have hcap := e.base_lt_cap
    refine .left _ _ ?_
    simp only [Embedding.context]
    omega
  | collect going collects => exact .left _ _ (Nat.succ_pos _)
  | word going found =>
    have hpast := State.lt_pastWord found
    exact .right _ (.right _ (.left _ _ (by omega)))

/-- No piece of work leads to work without end. -/
theorem wellFounded_leads : WellFounded fun v w => Leads w v := by
  have hlex := (Prod.lex Nat.lt_wfRel
    (Prod.lex Nat.lt_wfRel (Prod.lex Nat.lt_wfRel Nat.lt_wfRel))).wf
  exact Subrelation.wf (fun h => h.left_lt) (InvImage.wf Work.left hlex)

end Scan

/-- Highlighting ends. Each step in a region ends the region or leaves less of it, what a step is
made of leads to no endless work, and after some number of calls there are no more tokens. -/
theorem highlighting_ends (h : Highlighting) :
    (∀ (ctx : Scan.Context) (s : Scan.State), (s.takeStep ctx).done = true ∨
      Prod.Lex (· < ·) (· < ·) ((s.takeStep ctx).left ctx.stop) (s.left ctx.stop)) ∧
    (WellFounded fun v w => Scan.Leads w v) ∧
    ∃ n, ∀ m, n ≤ m → (h.after m).next.1 = none ∧ (h.after m).next.2.state.done = true := by
  refine ⟨fun ctx s => Scan.State.step_progress ctx ctx.inside s, Scan.wellFounded_leads,
    h.rest.1.length, fun m hm => ?_⟩
  have hnone : (h.after m).next.1 = none := by
    rw [Highlighting.next_after]
    exact List.getElem?_eq_none hm
  exact ⟨hnone, (Highlighting.rest_of_next_none hnone).2⟩

end Highlighter
