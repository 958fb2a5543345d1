import Highlighter.Proofs.Bounds

/-!
How deep a highlighting goes. Scopes and embedded regions share one cap: no scope is opened that
would be nested deeper, no region is embedded that leaves no level for a scope in it, and each
embedded region is nested deeper than what it stands in. So there are never more regions under way
inside one another than the cap has levels.
-/

namespace Highlighter

namespace Scan

namespace State

/-- A step goes no deeper than the cap. -/
theorem depth_step {ctx : Context} {s : State} (inside : Embedding ctx → Inner)
    (h : s.depth ctx ≤ ctx.cap) : (s.step ctx inside).depth ctx ≤ ctx.cap := by
  rcases stack_step ctx inside s with hsuffix | ⟨rule, start, stop, opens, hstack⟩
  · have hle := hsuffix.length_le
    unfold depth at *
    omega
  · have hroom := opens.depth_lt_cap
    unfold depth at *
    rw [hstack, List.length_cons]
    omega

/-- In the middle of a step, with its scope open, it is one level deeper. -/
theorem depth_entered (ctx : Context) (s : State) (rule : Rule) (start stop : Nat) :
    (s.entered ctx rule start stop).depth ctx = s.depth ctx + 1 := by
  unfold depth entered
  rw [stack_openScope, stack_arrive, List.length_cons]
  omega

end State

/-- A region under way: what it is highlighted with, and its state. -/
structure Site where
  ctx : Context
  state : State

/-- How deep a region under way has gone. -/
def Site.depth (site : Site) : Nat := site.state.depth site.ctx

/-- The states that a highlighting comes to, each with the regions under way around it, the
innermost first. What highlights a region is in the middle of a step while the region that the step
embeds is highlighted: the scope whose text that is has been opened. -/
inductive Active (top : Context) : (ctx : Context) → (first : Nat) → State → List Site → Prop
  | start : Active top top 0 (State.start 0) []
  | take {ctx : Context} {first : Nat} {s : State} {outer : List Site} {span : Span}
      {emitter : Emitter} (active : Active top ctx first s outer)
      (popped : s.emitter.pop? = some (span, emitter)) :
      Active top ctx first { s with emitter } outer
  | step {ctx : Context} {first : Nat} {s : State} {outer : List Site}
      (active : Active top ctx first s outer) (going : s.done = false) :
      Active top ctx first (s.takeStep ctx) outer
  | embed {ctx : Context} {first : Nat} {s : State} {outer : List Site} {e : Embedding ctx}
      {rule : Rule} {start : Nat} (active : Active top ctx first s outer) (going : s.done = false)
      (embeds : s.Embeds ctx e) (opens : s.Opens ctx rule start e.start) :
      Active top e.context e.start (State.start e.start)
        (⟨ctx, s.entered ctx rule start e.start⟩ :: outer)

/-- Every state that a highlighting comes to has its regions under way around it. -/
theorem Reached.active {top ctx : Context} {first : Nat} {s : State}
    (h : Reached top ctx first s) : ∃ outer, Active top ctx first s outer := by
  induction h with
  | start => exact ⟨[], .start⟩
  | take reached popped ih =>
    obtain ⟨outer, active⟩ := ih
    exact ⟨outer, active.take popped⟩
  | step reached going ih =>
    obtain ⟨outer, active⟩ := ih
    exact ⟨outer, active.step going⟩
  | embed reached going embeds ih =>
    obtain ⟨outer, active⟩ := ih
    obtain ⟨rule, start, opens, -⟩ := embeds.opens
    exact ⟨_, active.embed going embeds opens⟩

/-- What is kept of the depths of a region and of those under way around it. -/
structure Nested (cap : Nat) (ctx : Context) (s : State) (outer : List Site) : Prop where
  cap_eq : ctx.cap = cap
  depth_le : s.depth ctx ≤ cap
  outer_le : ∀ site ∈ outer, site.depth ≤ cap
  /-- Each region is nested deeper than all that are around it. -/
  rising : (ctx :: outer.map Site.ctx).Pairwise fun inner around => around.base < inner.base
  length_le : outer.length ≤ ctx.base
  base_lt : outer ≠ [] → ctx.base < cap

namespace Nested

variable {cap : Nat} {ctx : Context} {s : State} {outer : List Site}

theorem step (h : Nested cap ctx s outer) : Nested cap ctx (s.takeStep ctx) outer where
  cap_eq := h.cap_eq
  depth_le := by
    have hstep := State.depth_step ctx.inside (h.cap_eq.symm ▸ h.depth_le)
    rwa [h.cap_eq] at hstep
  outer_le := h.outer_le
  rising := h.rising
  length_le := h.length_le
  base_lt := h.base_lt

theorem embed (h : Nested cap ctx s outer) {e : Embedding ctx} {rule : Rule} {start : Nat}
    (opens : s.Opens ctx rule start e.start) :
    Nested cap e.context (State.start e.start)
      (⟨ctx, s.entered ctx rule start e.start⟩ :: outer) where
  cap_eq := h.cap_eq
  depth_le := by
    have hroom := e.base_lt_cap
    rw [h.cap_eq] at hroom
    exact Nat.le_of_lt hroom
  outer_le := by
    have hroom := opens.depth_lt_cap
    rw [h.cap_eq] at hroom
    simp only [List.forall_mem_cons, Site.depth, State.depth_entered]
    exact ⟨hroom, h.outer_le⟩
  rising := by
    have haround := (List.pairwise_cons.1 h.rising).1
    refine List.pairwise_cons.2 ⟨fun around hmem => ?_, h.rising⟩
    rcases List.mem_cons.1 hmem with rfl | hmem
    · exact e.lt_base
    · exact Nat.lt_trans (haround around hmem) e.lt_base
  length_le := Nat.lt_of_le_of_lt h.length_le e.lt_base
  base_lt := fun _ => h.cap_eq ▸ e.base_lt_cap

/-- Each region around takes a level of its own. -/
theorem length_lt (h : Nested cap ctx s outer) (hcap : cap ≤ maxDepthLimit) :
    outer.length < maxDepthLimit := by
  cases outer with
  | nil => decide
  | cons site outer =>
    have hbase := h.base_lt (List.cons_ne_nil _ _)
    have hlen := h.length_le
    omega

end Nested

theorem Active.nested {top ctx : Context} {first : Nat} {s : State} {outer : List Site}
    (h : Active top ctx first s outer) (hbase : top.base = 0) : Nested top.cap ctx s outer := by
  induction h with
  | start =>
    exact
      { cap_eq := rfl
        depth_le := by simp [State.depth, State.start, hbase]
        outer_le := by simp
        rising := List.pairwise_singleton _ _
        length_le := Nat.zero_le _
        base_lt := fun h => absurd rfl h }
  | take active popped ih => exact ⟨ih.1, ih.2, ih.3, ih.4, ih.5, ih.6⟩
  | step active going ih => exact ih.step
  | embed active going embeds opens ih => exact ih.embed opens

/-- In every state that the highlighting of a text comes to, in its own region and in every region
embedded in it, scopes are nested no deeper than the cap. A region is embedded deeper than what it
stands in and below the cap, so fewer than 256 embedded regions are under way inside one another,
and those around them, too, have gone no deeper than the cap. -/
theorem depth_bounded (grammar : Grammar) (language? : String → Option Grammar)
    (maxDepth : Nat) (text : String) {ctx : Context} {first : Nat} {s : State}
    (reached : Reached (Highlighting.start grammar language? maxDepth text).ctx ctx first s) :
    s.depth ctx ≤ min maxDepth 256 ∧
    (∀ e, s.Embeds ctx e → s.depth ctx < e.base ∧ ctx.base < e.base ∧
      e.base < min maxDepth 256) ∧
    ∀ outer, Active (Highlighting.start grammar language? maxDepth text).ctx ctx first s outer →
      (∀ site ∈ outer, site.depth ≤ min maxDepth 256) ∧
      ((ctx :: outer.map Site.ctx).Pairwise fun inner around => around.base < inner.base) ∧
      outer.length < 256 := by
  obtain ⟨outer, active⟩ := reached.active
  have hcap := (active.nested rfl).cap_eq
  refine ⟨(active.nested rfl).depth_le, fun e embeds => ?_, fun outer active => ?_⟩
  · have hroom := e.base_lt_cap
    rw [hcap] at hroom
    exact ⟨Nat.lt_of_lt_of_eq (Nat.lt_succ_self _) embeds.base_eq.symm, e.lt_base, hroom⟩
  · have hnested := active.nested rfl
    exact ⟨hnested.outer_le, hnested.rising, hnested.length_lt (Nat.min_le_right _ _)⟩

/-- The region between the bars is one level deep when the highlighting of it begins. -/
theorem depth_between_bars :
    (State.start 1).depth barsEmbedding.context ≤ 32 ∧
      Active barsContext barsEmbedding.context 1 (State.start 1)
        [⟨barsContext, (State.start 0).entered barsContext .bars 0 1⟩] ∧
      (⟨barsContext, (State.start 0).entered barsContext .bars 0 1⟩ : Site).depth ≤ 32 := by
  have opens : (State.start 0).Opens barsContext .bars 0 1 :=
    ⟨⟨0, hit_bars, rfl⟩, by decide, rfl, by decide⟩
  have active : Active barsContext _ _ _ _ := Active.start.embed rfl embeds_bars opens
  have bounded := depth_bounded .bars (fun _ => some .bars) 32 "|a|"
    (Reached.start.embed rfl embeds_bars)
  exact ⟨bounded.1, active, (bounded.2.2 _ active).1 _ (List.mem_singleton.2 rfl)⟩

end Scan

end Highlighter
