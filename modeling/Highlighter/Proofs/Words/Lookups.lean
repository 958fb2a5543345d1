import Highlighter.Proofs.Words.Splitting

/-!
Which words of a region are looked up. Only text that is passed over outside all scopes is split into
words. What has been collected never goes back, so every step has a stretch of its own, and a word
that is looked up lies in front of whatever its step matches and apart from the stretches of all
other steps. Nothing else is looked up: a region comes to the same with every keyword table that says
the same about these words.
-/

namespace Highlighter

namespace Scan

namespace State

/-- Where the text passed over ends that is collected when nothing is matched at a position: at the
end of the region, if that has been reached. -/
def passes? (ctx : Context) (position : Nat) : Option Nat :=
  if position < ctx.stop then none else some ctx.stop

/-- Where the text passed over ends that the next step collects, if it collects it. -/
def collects? (ctx : Context) (s : State) : Option Nat :=
  match s.nextHit? ctx with
  | none => some ctx.stop
  | some (.rule index, start, stop) =>
    match (s.rules ctx)[index]? with
    | none => some ctx.stop
    | some rule =>
      if stop ≤ start then passes? ctx start
      else if rule.opensScope && ctx.cap ≤ s.depth ctx then none
      else some start
  | some (.closing, start, _) => some start
  | some (.illegal, start, stop) => if stop ≤ start then passes? ctx start else some start

/-- Where the text ends that the next step splits into words: what it collects outside all scopes. -/
def hands? (ctx : Context) (s : State) : Option Nat :=
  if s.stack = [] then (s.collects? ctx).filter (s.gap < ·) else none

/-- The next step looks a word up. -/
def LooksUp (ctx : Context) (s : State) (word : Nat × Nat) : Prop :=
  ∃ stop, s.hands? ctx = some stop ∧
    word ∈ ctx.grammar.word.matchesFrom ⟨ctx.source.chars, stop⟩ s.gap ∧ word.1 < word.2

/-- The text that the next step takes for something else than words: all that it collects while
scopes are open, and from a match on that a rule or the illegal pattern makes, all that it collects. -/
inductive Claims (ctx : Context) (s : State) : Nat → Nat → Prop
  | inside (opened : s.stack ≠ []) : Claims ctx s s.gap (s.takeStep ctx).gap
  | rule {index start stop : Nat} {rule : Rule}
      (hit : s.nextHit? ctx = some (.rule index, start, stop))
      (found : (s.rules ctx)[index]? = some rule) (lt : start < stop)
      (room : rule.opensScope = true → s.depth ctx < ctx.cap) :
      Claims ctx s start (s.takeStep ctx).gap
  | illegal {start stop : Nat} (hit : s.nextHit? ctx = some (.illegal, start, stop))
      (lt : start < stop) : Claims ctx s start (s.takeStep ctx).gap

variable {ctx : Context} {inside : Embedding ctx → Inner} {s t : State} {start stop first : Nat}

theorem hands?_eq_some :
    s.hands? ctx = some stop ↔ s.stack = [] ∧ s.collects? ctx = some stop ∧ s.gap < stop := by
  unfold hands?
  split
  · rename_i houtside
    simp [Option.filter_eq_some_iff, houtside]
  · rename_i hopened
    simp [hopened]

/-- What is collected of the text passed over does not depend on what has happened. -/
theorem emitter_flushGap_record (e : Event) (position : Nat) :
    ((s.record e).flushGap ctx position).emitter = (s.flushGap ctx position).emitter := by
  cases hs : s.stack with
  | cons frame stack =>
    rw [flushGap_inside hs, flushGap_inside (s := s.record e) hs]
    rfl
  | nil =>
    rcases Nat.lt_or_ge s.gap position with hlt | hle
    · rw [emitter_flushGap_outside hs hlt, emitter_flushGap_outside (s := s.record e) hs hlt]
      rfl
    · rw [flushGap_of_le hle, flushGap_of_le (s := s.record e) hle]
      rfl

theorem emitter_flushGap_recordIf (happened : Bool) (e : Event) (position : Nat) :
    ((s.recordIf happened e).flushGap ctx position).emitter =
      (s.flushGap ctx position).emitter := by
  cases happened with
  | false => rfl
  | true => exact emitter_flushGap_record e position

theorem gap_enterScope (rule : Rule) (hstop : stop ≤ ctx.stop) :
    stop ≤ (s.enterScope ctx inside rule start stop).gap := by
  rw [toCourse_enterScope]
  split
  · exact Nat.le_refl _
  · split
    · rename_i first last hclosing
      obtain ⟨hfirst, hlast, -⟩ := Frame.closing?_bounds hclosing
      exact Nat.le_trans hfirst hlast
    · exact hstop

/-- What a step does to the text passed over: it leaves it, or it collects it up to a position and
goes on from there. -/
def Collects (ctx : Context) (s t : State) : Option Nat → Prop
  | none => t.gap = s.gap
  | some position => s.gap ≤ position ∧ position ≤ t.gap ∧ (s.flushGap ctx position).Continues t

theorem collects_finish (covers : Covers ctx first s) (going : s.done = false) :
    Collects ctx s (s.finish ctx) (some ctx.stop) := by
  refine ⟨Nat.le_trans covers.gap_le_cursor covers.cursor_le_stop, ?_, ?_⟩
  · rw [gap_finish covers going]
  · unfold Continues
    rw [emitter_finish going]
    exact Emitter.continues_flush _

theorem collects_skipChar (covers : Covers ctx first s) (going : s.done = false) (position : Nat) :
    Collects ctx s (s.skipChar ctx position) (passes? ctx position) := by
  unfold passes? skipChar
  split
  · rfl
  · exact collects_finish covers going

theorem collects_markIllegal (covers : Covers ctx first s) (going : s.done = false)
    (hstart : s.cursor ≤ start) :
    Collects ctx s (s.markIllegal ctx start stop)
      (if stop ≤ start then passes? ctx start else some start) := by
  by_cases hlt : start < stop
  · rw [if_neg (Nat.not_le.2 hlt)]
    refine ⟨Nat.le_trans covers.gap_le_cursor hstart, ?_, ?_⟩
    · rw [toCourse_markIllegal hlt]
      exact Nat.le_of_lt hlt
    · unfold markIllegal Continues
      rw [if_neg (Nat.not_le.2 hlt), ← emitter_flushGap_recordIf]
      exact Emitter.continues_text ..
  · rw [markIllegal_of_le (Nat.not_lt.1 hlt), if_pos (Nat.not_lt.1 hlt)]
    exact collects_skipChar covers going start

theorem collects_takes {rule : Rule} (covers : Covers ctx first s) (going : s.done = false)
    (hstart : s.cursor ≤ start) (hstop : stop ≤ ctx.stop)
    (takes : Takes ctx inside s rule start stop t) :
    Collects ctx s t (if stop ≤ start then passes? ctx start
      else if rule.opensScope && ctx.cap ≤ s.depth ctx then none else some start) := by
  have hgap : s.gap ≤ start := Nat.le_trans covers.gap_le_cursor hstart
  cases takes with
  | skip empty =>
    have hskip := collects_skipChar (s := s.record (.skippedEmptyOpening (ctx.source.byte start)))
      ⟨covers.collected, covers.gap_le_cursor, covers.cursor_le_stop, covers.ended⟩ going start
    rw [if_pos empty]
    cases hpasses : passes? ctx start with
    | none =>
      rw [hpasses] at hskip
      exact hskip
    | some position =>
      rw [hpasses] at hskip
      refine ⟨hskip.1, hskip.2.1, ?_⟩
      unfold Continues
      rw [← emitter_flushGap_record]
      exact hskip.2.2
  | refuse lt opens full =>
    rw [if_neg (Nat.not_le.2 lt), if_pos (by simp [opens, full])]
    unfold Collects
    rw [toCourse_refuse]
  | enter lt opens room =>
    rw [if_neg (Nat.not_le.2 lt), if_neg (by simp [opens, Nat.not_le.2 room])]
    exact ⟨hgap, Nat.le_trans (Nat.le_of_lt lt) (gap_enterScope rule hstop),
      (enters_enterScope ctx inside (s.arrive ctx rule start) rule start stop).continues⟩
  | single lt opens =>
    rw [if_neg (Nat.not_le.2 lt), if_neg (by simp [opens])]
    refine ⟨hgap, ?_, continues_takeSingle (s.arrive ctx rule start) rule start stop⟩
    rw [toCourse_takeSingle]
    exact Nat.le_of_lt lt

/-- A step collects what it is said to collect. -/
theorem collects_step (covers : Covers ctx first s) (going : s.done = false) :
    Collects ctx s (s.takeStep ctx) (s.collects? ctx) := by
  have steps : Steps ctx ctx.inside s (s.takeStep ctx) := steps_iff.2 rfl
  generalize s.takeStep ctx = t at steps
  unfold collects?
  cases steps with
  | ended none =>
    rw [none]
    exact collects_finish covers going
  | lost hit none =>
    simp only [hit, none]
    exact collects_finish covers going
  | rule hit found takes =>
    obtain ⟨hstart, -, hstop⟩ := nextHit?_bounds hit
    simp only [hit, found]
    exact collects_takes covers going hstart hstop takes
  | close hit =>
    obtain ⟨hstart, hle, -⟩ := nextHit?_bounds hit
    obtain ⟨frame, stack, hs⟩ := List.exists_cons_of_ne_nil (opened_of_closing hit)
    simp only [hit]
    refine ⟨Nat.le_trans covers.gap_le_cursor hstart, ?_, flushGap_continues_closeScope ..⟩
    rw [toCourse_closeScope ctx hs]
    exact hle
  | illegal hit =>
    obtain ⟨hstart, -, -⟩ := nextHit?_bounds hit
    simp only [hit]
    exact collects_markIllegal covers going hstart

theorem Collects.gap_le {position? : Option Nat} (h : Collects ctx s t position?) :
    s.gap ≤ t.gap := by
  cases position? with
  | none => exact Nat.le_of_eq h.symm
  | some position => exact Nat.le_trans h.1 h.2.1

/-- What a step claims reaches to where the next step goes on. It begins where the text passed over
does, if scopes are open, and where that ends, if none are. -/
theorem claims_edges {a b : Nat} (claims : s.Claims ctx a b) :
    b = (s.takeStep ctx).gap ∧ (s.stack ≠ [] ∧ a = s.gap ∨ s.collects? ctx = some a) := by
  cases claims with
  | inside opened => exact ⟨rfl, .inl ⟨opened, rfl⟩⟩
  | rule hit found lt room =>
    refine ⟨rfl, .inr ?_⟩
    unfold collects?
    simp only [hit, found]
    rw [if_neg (Nat.not_le.2 lt), if_neg]
    simpa using room
  | illegal hit lt =>
    refine ⟨rfl, .inr ?_⟩
    unfold collects?
    simp only [hit]
    rw [if_neg (Nat.not_le.2 lt)]

/-- What is matched lies in what is claimed. -/
theorem bounds_of_lookup {word : Nat × Nat} (looks : s.LooksUp ctx word)
    (covers : Covers ctx first s) (going : s.done = false) :
    s.stack = [] ∧ s.gap ≤ word.1 ∧ word.2 ≤ (s.takeStep ctx).gap ∧
      ∀ position, s.collects? ctx = some position → word.2 ≤ position := by
  obtain ⟨stop, hands, hword, -⟩ := looks
  obtain ⟨outside, hcollects, -⟩ := hands?_eq_some.1 hands
  obtain ⟨hgap, -, hstop⟩ := Regex.bounds_of_mem_matchesFrom word hword
  have hstep := collects_step covers going
  rw [hcollects] at hstep
  simp only at hstop
  refine ⟨outside, hgap, Nat.le_trans hstop hstep.2.1, fun position hposition => ?_⟩
  rw [hcollects] at hposition
  cases hposition
  exact hstop

/-- Two stretches of text have nothing in common. -/
def Apart (word : Nat × Nat) (a b : Nat) : Prop := word.2 ≤ a ∨ b ≤ word.1

/-- A word that a step looks up is apart from what the step claims. -/
theorem apart_of_same {word : Nat × Nat} {a b : Nat} (looks : s.LooksUp ctx word)
    (claims : s.Claims ctx a b) (covers : Covers ctx first s) (going : s.done = false) :
    Apart word a b := by
  obtain ⟨outside, -, -, hcollects⟩ := bounds_of_lookup looks covers going
  obtain ⟨-, ⟨opened, -⟩ | hstart⟩ := claims_edges claims
  · exact absurd outside opened
  · exact .inl (hcollects a hstart)

/-- A step claims nothing outside of its own stretch. -/
theorem bounds_of_claims {a b : Nat} (claims : s.Claims ctx a b) (covers : Covers ctx first s)
    (going : s.done = false) : s.gap ≤ a ∧ b ≤ (s.takeStep ctx).gap := by
  obtain ⟨rfl, ⟨-, rfl⟩ | hstart⟩ := claims_edges claims
  · exact ⟨Nat.le_refl _, Nat.le_refl _⟩
  · have hstep := collects_step covers going
    rw [hstart] at hstep
    exact ⟨hstep.1, Nat.le_refl _⟩

/-- What a run has collected it does not go back behind. -/
theorem gap_le_of_mem_trail (covers : Covers ctx first t) (hs : s ∈ t.trail ctx) : t.gap ≤ s.gap := by
  fun_induction t.trail ctx generalizing first with
  | case1 => cases hs
  | case2 t going ih =>
    have going := Bool.eq_false_iff.2 going
    obtain ⟨middle, -, hrest⟩ := emptied_covers covers
    rcases List.mem_cons.1 hs with rfl | hs
    · exact Nat.le_refl _
    · have hnext := step_covers ctx.inside_tiles hrest going
      exact Nat.le_trans (collects_step hrest going).gap_le (ih hnext hs)

/-- The steps of a run have stretches of text of their own, one behind the other. -/
theorem pairwise_trail (covers : Covers ctx first t) :
    (t.trail ctx).Pairwise fun s u => (s.takeStep ctx).gap ≤ u.gap := by
  fun_induction t.trail ctx generalizing first with
  | case1 => exact .nil
  | case2 t going ih =>
    obtain ⟨middle, -, hrest⟩ := emptied_covers covers
    have hnext : Covers ctx middle (t.emptied.takeStep ctx) :=
      step_covers ctx.inside_tiles hrest (Bool.eq_false_iff.2 going)
    exact .cons (fun u hu => gap_le_of_mem_trail hnext hu) (ih hnext)

/-- Every place that is left has a step in whose stretch it lies. -/
theorem exists_stretch (covers : Covers ctx first t) {position : Nat} (hgap : t.gap ≤ position)
    (hstop : position < ctx.stop) :
    ∃ s ∈ t.trail ctx, s.gap ≤ position ∧ position < (s.takeStep ctx).gap := by
  fun_induction t.trail ctx generalizing first with
  | case1 t hdone =>
    have hend := (covers.ended hdone).1
    omega
  | case2 t going ih =>
    obtain ⟨middle, -, hrest⟩ := emptied_covers covers
    by_cases hlt : position < (t.emptied.takeStep ctx).gap
    · exact ⟨t.emptied, List.mem_cons_self .., hgap, hlt⟩
    · obtain ⟨s, hs, hstretch⟩ :=
        ih (step_covers ctx.inside_tiles hrest (Bool.eq_false_iff.2 going)) (Nat.not_lt.1 hlt)
      exact ⟨s, List.mem_cons_of_mem _ hs, hstretch⟩

/-- Of two steps of a run one comes first, if they are not the same. -/
theorem inTurn_of_mem_trail {u : State} (covers : Covers ctx first t) (hs : s ∈ t.trail ctx)
    (hu : u ∈ t.trail ctx) :
    s = u ∨ (s.takeStep ctx).gap ≤ u.gap ∨ (u.takeStep ctx).gap ≤ s.gap := by
  by_cases hsame : s = u
  · exact .inl hsame
  · have symm : Std.Symm fun s u : State =>
        (s.takeStep ctx).gap ≤ u.gap ∨ (u.takeStep ctx).gap ≤ s.gap := ⟨fun _ _ => Or.symm⟩
    have turns : (t.trail ctx).Pairwise fun s u =>
        (s.takeStep ctx).gap ≤ u.gap ∨ (u.takeStep ctx).gap ≤ s.gap :=
      (pairwise_trail covers).imp .inl
    exact .inr (turns.forall hs hu hsame)

/-- A word that a run looks up is apart from everything that the run claims. -/
theorem apart_of_mem_trail {word : Nat × Nat} {a b : Nat} (covers : Covers ctx first t)
    (hs : s ∈ t.trail ctx) {u : State} (hu : u ∈ t.trail ctx) (looks : s.LooksUp ctx word)
    (claims : u.Claims ctx a b) : Apart word a b := by
  obtain ⟨middle, hcovers⟩ := exists_covers_of_mem_trail covers hs
  obtain ⟨middle', hcovers'⟩ := exists_covers_of_mem_trail covers hu
  obtain ⟨-, hword, hword', -⟩ := bounds_of_lookup looks hcovers (going_of_mem_trail hs)
  obtain ⟨ha, hb⟩ := bounds_of_claims claims hcovers' (going_of_mem_trail hu)
  rcases inTurn_of_mem_trail covers hs hu with rfl | hbefore | hbehind
  · exact apart_of_same looks claims hcovers (going_of_mem_trail hs)
  · exact .inl (Nat.le_trans hword' (Nat.le_trans hbefore ha))
  · exact .inr (Nat.le_trans hb (Nat.le_trans hbehind hword))

end State

end Scan

end Highlighter
