import Highlighter.Proofs.Embedding.Isolated

/-!
The trail of a run: the states from which its steps are taken, and the region that each step embeds,
if it embeds one.
-/

namespace Highlighter.Scan

/-- The region that the text of a scope makes, from behind its opening, when that is to be
highlighted in another language. -/
def Frame.embedding? (ctx : Context) (frame : Frame) (start base : Nat) (language : String) :
    Option (Embedding ctx) :=
  match ctx.language? language with
  | none => none
  | some grammar =>
    if h : start < frame.bodyStop ctx.haystack start ∧ ctx.base < base ∧ base < ctx.cap then
      some
        { grammar, start, base
          stop := frame.bodyStop ctx.haystack start
          start_lt_stop := h.1
          stop_le := frame.bodyStop_le ctx.haystack start
          lt_base := h.2.1
          base_lt_cap := h.2.2 }
    else none

namespace State

/-- The region that a match of the opening of a rule embeds. -/
def meeting? (ctx : Context) (s : State) (rule : Rule) (start stop : Nat) :
    Option (Embedding ctx) :=
  if start < stop ∧ rule.opensScope = true ∧ s.depth ctx < ctx.cap then
    rule.language.bind ((s.frame ctx rule start stop).embedding? ctx stop (s.depth ctx + 1))
  else none

/-- The region that the next step highlights in another language. -/
def embedding? (ctx : Context) (s : State) : Option (Embedding ctx) :=
  match s.nextHit? ctx with
  | some (.rule index, start, stop) =>
    (s.rules ctx)[index]?.bind fun rule => s.meeting? ctx rule start stop
  | _ => none

/-- That region is the one that the step is said to embed. -/
theorem embedding?_eq_some {ctx : Context} {s : State} {e : Embedding ctx} :
    s.embedding? ctx = some e ↔ s.Embeds ctx e := by
  constructor
  · intro h
    unfold embedding? at h
    split at h
    · rename_i index start stop hit
      obtain ⟨rule, found, hmeeting⟩ := Option.bind_eq_some_iff.1 h
      unfold meeting? at hmeeting
      split at hmeeting
      · rename_i hopens
        obtain ⟨language, hlanguage, hframe⟩ := Option.bind_eq_some_iff.1 hmeeting
        unfold Frame.embedding? at hframe
        split at hframe
        · cases hframe
        · rename_i grammar hgrammar
          split at hframe
          · cases hframe
            exact ⟨⟨rule, start, ⟨⟨index, hit, found⟩, hopens.1, hopens.2.1, hopens.2.2⟩,
              ⟨language, hlanguage, hgrammar⟩, rfl⟩, rfl⟩
          · cases hframe
      · cases hmeeting
    · cases h
  · rintro ⟨⟨rule, start, opens, ⟨language, hlanguage, hgrammar⟩, hstop⟩, hbase⟩
    obtain ⟨index, hit, found⟩ := opens.hit
    have hbody := e.start_lt_stop
    have hlt := e.lt_base
    have hcap := e.base_lt_cap
    rw [hstop] at hbody
    rw [hbase] at hlt hcap
    simp only [embedding?, hit, found, Option.bind_some, meeting?, hlanguage, Frame.embedding?,
      hgrammar, opens.start_lt_stop, opens.opensScope, opens.depth_lt_cap, hbody, hlt, hcap,
      and_self, ↓reduceIte, ↓reduceDIte, Option.some.injEq]
    exact embedding_eq rfl rfl hstop.symm hbase.symm

/-- The states of a run from which a step is taken, while the spans are taken out. -/
def trail (ctx : Context) (s : State) : List State :=
  if _h : s.done then [] else s.emptied :: (s.emptied.takeStep ctx).trail ctx
termination_by s.ahead ctx
decreasing_by exact @step_ahead_lt ctx ctx.inside s.emptied (Bool.eq_false_iff.2 _h)

theorem trail_of_done {ctx : Context} {s : State} (hdone : s.done = true) : s.trail ctx = [] := by
  rw [trail]
  simp [hdone]

theorem trail_of_going {ctx : Context} {s : State} (going : s.done = false) :
    s.trail ctx = s.emptied :: (s.emptied.takeStep ctx).trail ctx := by
  rw [trail]
  simp [going]

variable {ctx : Context} {s t u : State}

theorem emptied_emptied (s : State) : s.emptied.emptied = s.emptied := rfl

theorem emptied_of_mem_trail (h : s ∈ t.trail ctx) : s.emptied = s := by
  fun_induction t.trail ctx with
  | case1 => cases h
  | case2 t going ih =>
    rcases List.mem_cons.1 h with rfl | h
    · exact emptied_emptied t
    · exact ih h

theorem going_of_mem_trail (h : s ∈ t.trail ctx) : s.done = false := by
  fun_induction t.trail ctx with
  | case1 => cases h
  | case2 t going ih =>
    rcases List.mem_cons.1 h with rfl | h
    · exact Bool.eq_false_iff.2 going
    · exact ih h

/-- From a state of a run the run goes on as it does. -/
theorem trail_suffix_of_mem (h : s ∈ t.trail ctx) : s.trail ctx <:+ t.trail ctx := by
  fun_induction t.trail ctx with
  | case1 => cases h
  | case2 t going ih =>
    rcases List.mem_cons.1 h with rfl | h
    · have hsame : t.emptied.trail ctx = t.emptied :: (t.emptied.takeStep ctx).trail ctx := by
        rw [trail_of_going (s := t.emptied) (Bool.eq_false_iff.2 going), emptied_emptied]
      exact hsame ▸ List.suffix_refl _
    · exact (ih h).trans (List.suffix_cons ..)

theorem takeStep_trail_suffix_of_mem (h : s ∈ t.trail ctx) :
    (s.takeStep ctx).trail ctx <:+ t.trail ctx := by
  have hsuffix := trail_suffix_of_mem h
  rw [trail_of_going (going_of_mem_trail h), emptied_of_mem_trail h] at hsuffix
  exact (List.suffix_cons ..).trans hsuffix

/-- A run has a last step, which ends the region. -/
theorem exists_last_of_trail (going : t.done = false) :
    ∃ last ∈ t.trail ctx, (last.takeStep ctx).done = true := by
  fun_induction t.trail ctx with
  | case1 t hdone => simp [hdone] at going
  | case2 t _ ih =>
    cases hdone : (t.emptied.takeStep ctx).done with
    | true => exact ⟨t.emptied, List.mem_cons_self .., hdone⟩
    | false =>
      obtain ⟨last, hlast, hends⟩ := ih hdone
      exact ⟨last, List.mem_cons_of_mem _ hlast, hends⟩

/-- What is kept when a span is taken out is kept when all are. -/
theorem emptied_of_take {P : State → Prop}
    (take : ∀ t span emitter, t.emitter.pop? = some (span, emitter) → P t → P { t with emitter })
    (h : P t) : P t.emptied := by
  generalize hready : t.emitter.ready = ready
  induction ready generalizing t with
  | nil =>
    have hsame : t.emptied = t := by
      unfold emptied
      rw [← hready]
    rwa [hsame]
  | cons span ready ih =>
    have htaken := take t span { t.emitter with ready } (by simp [Emitter.pop?, hready]) h
    have hrest := ih htaken rfl
    exact hrest

end State

namespace Reached

variable {top ctx : Context} {first : Nat} {s t : State}

theorem emptied (h : Reached top ctx first t) : Reached top ctx first t.emptied :=
  State.emptied_of_take (fun _ _ _ popped reached => reached.take popped) h

/-- A run comes through states that highlighting comes to. -/
theorem of_mem_trail (h : Reached top ctx first t) (hs : s ∈ t.trail ctx) :
    Reached top ctx first s := by
  fun_induction t.trail ctx with
  | case1 => cases hs
  | case2 t going ih =>
    rcases List.mem_cons.1 hs with rfl | hs
    · exact h.emptied
    · exact ih (h.emptied.step (Bool.eq_false_iff.2 going)) hs

end Reached

end Highlighter.Scan
