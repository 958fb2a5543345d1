import Highlighter.Proofs.Embedding.Isolated

/-!
An outcome never goes back. Each action adds to the score or leaves it, and sets a flag or leaves it,
and so does a step, and so does a call for the next token.
-/

namespace Highlighter

/-- From one outcome on to another: the score has not fallen, and no flag has been taken back. -/
structure Outcome.GrowsTo (o o' : Outcome) : Prop where
  relevance : o.relevance ≤ o'.relevance
  incomplete : o.incomplete = true → o'.incomplete = true
  illegal : o.illegal = true → o'.illegal = true
  depthLimited : o.depthLimited = true → o'.depthLimited = true

namespace Outcome

variable {o o' o'' : Outcome}

theorem GrowsTo.refl (o : Outcome) : o.GrowsTo o := ⟨Nat.le_refl _, id, id, id⟩

theorem GrowsTo.trans (h : o.GrowsTo o') (h' : o'.GrowsTo o'') : o.GrowsTo o'' where
  relevance := Nat.le_trans h.relevance h'.relevance
  incomplete := h'.incomplete ∘ h.incomplete
  illegal := h'.illegal ∘ h.illegal
  depthLimited := h'.depthLimited ∘ h.depthLimited

theorem GrowsTo.of_eq (h : o = o') : o.GrowsTo o' := h ▸ .refl o

end Outcome

namespace Scan.State

/-- From one state on to another: the outcome has not gone back. -/
def GrowsTo (s t : State) : Prop := s.outcome.GrowsTo t.outcome

variable {ctx : Context} {s t : State}

theorem grows_addRelevance (s : State) (n : Nat) : s.GrowsTo (s.addRelevance n) :=
  ⟨Nat.le_add_right .., id, id, id⟩

theorem grows_limitDepth (s : State) : s.GrowsTo s.limitDepth :=
  ⟨Nat.le_refl _, id, id, fun _ => rfl⟩

theorem grows_recordIf (s : State) (happened : Bool) (e : Event) :
    s.GrowsTo (s.recordIf happened e) := by
  cases happened <;> exact .refl _

section Collecting

theorem grows_countKeyword (s : State) (key : String) (relevance : Nat) :
    s.GrowsTo (s.countKeyword key relevance) := by
  unfold countKeyword
  simp only
  split
  · exact grows_addRelevance { s with hits := key :: s.hits } relevance
  · exact .refl _

theorem grows_flushGap (ctx : Context) (s : State) (position : Nat) :
    s.GrowsTo (s.flushGap ctx position) := by
  obtain ⟨t, plain, ht, -, hflush⟩ := exists_flushGap (P := fun t _ => s.GrowsTo t) ctx s position
    (fun _ t plain first last entry h _ _ _ _ =>
      h.trans (grows_countKeyword ((t.text .plain plain first).atom entry.kind first last) _ _))
    (.refl _)
  rw [hflush]
  exact ht

end Collecting

section Acting

theorem grows_finish (ctx : Context) (s : State) : s.GrowsTo (s.finish ctx) := by
  have hgap := grows_flushGap ctx s ctx.stop
  unfold finish
  split
  · exact .refl _
  · refine hgap.trans ?_
    simp only
    split
    · exact .refl _
    · exact ⟨Nat.le_refl _, fun _ => rfl, id, id⟩

theorem grows_skipChar (ctx : Context) (s : State) (position : Nat) :
    s.GrowsTo (s.skipChar ctx position) := by
  unfold skipChar
  split
  · exact .refl _
  · exact grows_finish ctx s

theorem grows_closeScope (ctx : Context) (s : State) (start stop : Nat) :
    s.GrowsTo (s.closeScope ctx start stop) := by
  refine (grows_flushGap ctx s start).trans (.of_eq ?_)
  unfold closeScope
  simp only
  split
  · rfl
  · rename_i frame stack hs
    cases frame.rule.closingOutside <;> cases frame.rule.kind.isSome <;> rfl

theorem grows_markIllegal (ctx : Context) (s : State) (start stop : Nat) :
    s.GrowsTo (s.markIllegal ctx start stop) := by
  unfold markIllegal
  split
  · exact grows_skipChar ctx s start
  · have hrecord := grows_recordIf s (!s.outcome.illegal) (.metIllegal ctx.grammar.name
      (ctx.source.slice start stop) (ctx.source.byte start))
    refine (hrecord.trans (grows_flushGap ctx _ start)).trans ?_
    exact ⟨Nat.le_refl _, id, fun _ => rfl, id⟩

theorem grows_adopt (s : State) (kind : Kind) (inner : Inner) : s.GrowsTo (s.adopt kind inner) := by
  unfold GrowsTo
  rw [(outcome_adopt s kind inner).1]
  exact ⟨Nat.le_add_right .., id, id, fun h => by simp [h]⟩

theorem grows_takeSingle (s : State) (rule : Rule) (start stop : Nat) :
    s.GrowsTo (s.takeSingle rule start stop) := by
  unfold takeSingle
  cases rule.kind <;> exact .refl _

theorem grows_arrive (ctx : Context) (s : State) (rule : Rule) (start : Nat) :
    s.GrowsTo (s.arrive ctx rule start) :=
  (grows_flushGap ctx s start).trans (grows_addRelevance _ _)

theorem grows_refuse (ctx : Context) (s : State) (start stop : Nat) :
    s.GrowsTo (s.refuse ctx start stop) :=
  (grows_recordIf s _ _).trans (grows_limitDepth _)

end Acting

theorem CollectsBody.grows {inside : Embedding ctx → Inner} {kind : Kind} {language : String}
    {start stop : Nat} (collects : CollectsBody ctx inside s kind language start stop t) :
    s.GrowsTo t := by
  cases collects with
  | unknown => exact .refl _
  | adopted => exact grows_adopt s kind _
  | limited => exact (grows_recordIf s _ _).trans (grows_limitDepth _)
  | empty => exact .refl _

theorem Enters.grows {inside : Embedding ctx → Inner} {rule : Rule} {start stop : Nat}
    (enters : Enters ctx inside s rule start stop t) : s.GrowsTo t := by
  have hopen : s.GrowsTo (s.openScope ctx rule start stop) :=
    .of_eq (outcome_openScope s ctx rule start stop).1.symm
  refine hopen.trans ?_
  cases enters with
  | own => exact .refl _
  | @closed language body last next embedded collects =>
    exact collects.grows.trans (grows_closeScope ctx (body.advance last) last next)
  | unclosed embedded collects => exact collects.grows

/-- No match of the opening of a rule takes the outcome back. -/
theorem Takes.grows {inside : Embedding ctx → Inner} {rule : Rule} {start stop : Nat}
    (h : Takes ctx inside s rule start stop t) : s.GrowsTo t := by
  cases h with
  | skip => exact grows_skipChar ctx (s.record _) start
  | refuse => exact grows_refuse ctx s start stop
  | enter => exact (grows_arrive ctx s rule start).trans (enters_enterScope ..).grows
  | single => exact (grows_arrive ctx s rule start).trans (grows_takeSingle _ rule start stop)

/-- No step takes the outcome back. -/
theorem Steps.grows {inside : Embedding ctx → Inner} (h : Steps ctx inside s t) : s.GrowsTo t := by
  cases h with
  | ended => exact grows_finish ctx s
  | lost => exact grows_finish ctx s
  | rule hit found takes => exact takes.grows
  | close => exact grows_closeScope ctx s _ _
  | illegal => exact grows_markIllegal ctx s _ _

/-- No call for the next span takes the outcome back. -/
theorem grows_next (ctx : Context) (s : State) : s.GrowsTo (s.next ctx).2 := by
  fun_induction s.next ctx with
  | case1 => exact .refl _
  | case2 => exact .refl _
  | case3 s popped going ih => exact (Steps.grows (steps_iff.2 rfl)).trans ih

end Scan.State

end Highlighter
