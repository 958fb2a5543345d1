import Highlighter.Proofs.Draining
import Highlighter.Proofs.Notes
import Highlighter.Proofs.Reached

/-!
A depth cap that is not reached makes no difference. Two runs with different caps take the same
steps as long as the lower cap does not cut anything off, and where it does the outcome says so: the
flag is set there, nothing takes it back, and from an embedded region it is handed on to the region
around it.
-/

namespace Highlighter

namespace Scan

/-- The same with another depth cap. -/
def Context.withCap (ctx : Context) (cap : Nat) : Context := { ctx with cap }

/-- A region that can be embedded under some cap can be embedded under any higher one. -/
def Embedding.widen {ctx : Context} (e : Embedding ctx) {cap : Nat} (h : ctx.cap ≤ cap) :
    Embedding (ctx.withCap cap) where
  grammar := e.grammar
  start := e.start
  stop := e.stop
  base := e.base
  start_lt_stop := e.start_lt_stop
  stop_le := e.stop_le
  lt_base := e.lt_base
  base_lt_cap := Nat.lt_of_lt_of_le e.base_lt_cap h

namespace State

section Flag

variable (ctx : Context) (s : State) (kind : Kind) (start stop n : Nat)

@[simp] theorem depthLimited_text :
    (s.text kind start stop).outcome.depthLimited = s.outcome.depthLimited := rfl

@[simp] theorem depthLimited_limitDepth : s.limitDepth.outcome.depthLimited = true := rfl

@[simp] theorem depthLimited_finish :
    (s.finish ctx).outcome.depthLimited = s.outcome.depthLimited := by
  cases hdone : s.done with
  | false => exact congrArg (·.flags.depthLimited) (s.notes_finish ctx hdone)
  | true =>
    unfold finish
    rw [if_pos hdone]

@[simp] theorem depthLimited_skipChar :
    (s.skipChar ctx n).outcome.depthLimited = s.outcome.depthLimited := by
  unfold skipChar
  split
  · rfl
  · exact s.depthLimited_finish ctx

@[simp] theorem depthLimited_closeScope :
    (s.closeScope ctx start stop).outcome.depthLimited = s.outcome.depthLimited :=
  congrArg (·.flags.depthLimited) (s.notes_closeScope ctx start stop)

@[simp] theorem depthLimited_markIllegal :
    (s.markIllegal ctx start stop).outcome.depthLimited = s.outcome.depthLimited := by
  by_cases h : start < stop
  · exact congrArg (·.flags.depthLimited) (s.notes_markIllegal ctx h)
  · rw [markIllegal_of_le (Nat.not_lt.1 h)]
    exact s.depthLimited_skipChar ctx start

theorem depthLimited_arrive (rule : Rule) :
    (s.arrive ctx rule start).outcome.depthLimited = s.outcome.depthLimited :=
  congrArg (·.flags.depthLimited) (s.notes_arrive ctx rule start)

@[simp] theorem depthLimited_takeSingle (rule : Rule) :
    (s.takeSingle rule start stop).outcome.depthLimited = s.outcome.depthLimited :=
  congrArg (·.flags.depthLimited) (s.notes_takeSingle rule start stop)

@[simp] theorem depthLimited_openScope (rule : Rule) :
    (s.openScope ctx rule start stop).outcome.depthLimited = s.outcome.depthLimited :=
  congrArg (·.flags.depthLimited) (s.notes_openScope ctx rule start stop)

/-- From an embedded region the flag is handed on. -/
@[simp] theorem depthLimited_adopt (inner : Inner) :
    (s.adopt kind inner).outcome.depthLimited =
      (s.outcome.depthLimited || inner.outcome.depthLimited) :=
  congrArg (·.flags.depthLimited) (s.notes_adopt kind inner)

end Flag

variable {ctx : Context} {inside : Embedding ctx → Inner} {s t : State} {cap : Nat}

/-- Where the cap does not allow the text of a scope to be highlighted in its language, the flag is
set. -/
theorem CollectsBody.depthLimited_of_full {kind : Kind} {language : String} {start stop : Nat}
    {grammar : Grammar} (collects : CollectsBody ctx inside s kind language start stop t)
    (known : ctx.language? language = some grammar) (lt : start < stop)
    (full : ctx.cap ≤ s.depth ctx) : t.outcome.depthLimited = true := by
  cases collects with
  | unknown missing => cases missing.symm.trans known
  | adopted e _ _ _ base_eq =>
    have := e.base_lt_cap
    omega
  | limited => rfl
  | empty _ le => omega

theorem Enters.depthLimited_of_full {rule : Rule} {language : String} {start stop : Nat}
    {grammar : Grammar} (enters : Enters ctx inside s rule start stop t)
    (hlanguage : rule.language = some language) (known : ctx.language? language = some grammar)
    (body : stop < (s.frame ctx rule start stop).bodyStop ctx.haystack stop)
    (full : ctx.cap ≤ s.depth ctx + 1) : t.outcome.depthLimited = true := by
  have hdepth : (s.openScope ctx rule start stop).depth ctx = s.depth ctx + 1 := by
    rw [depth, stack_openScope]
    rfl
  rw [← hdepth] at full
  cases enters with
  | own own => cases own.symm.trans hlanguage
  | closed embedded collects found =>
    cases embedded.symm.trans hlanguage
    rw [Frame.bodyStop_of_some found] at body
    exact (depthLimited_closeScope ..).trans (collects.depthLimited_of_full known body full)
  | unclosed embedded collects endless =>
    cases embedded.symm.trans hlanguage
    rw [Frame.bodyStop_of_none endless] at body
    exact collects.depthLimited_of_full known body full

/-- Once something has been cut off, the flag stays. -/
theorem CollectsBody.depthLimited {kind : Kind} {language : String} {start stop : Nat}
    (collects : CollectsBody ctx inside s kind language start stop t)
    (h : s.outcome.depthLimited = true) : t.outcome.depthLimited = true := by
  cases collects with
  | unknown => exact h
  | adopted => simp [h]
  | limited => rfl
  | empty => exact h

theorem Enters.depthLimited {rule : Rule} {start stop : Nat}
    (enters : Enters ctx inside s rule start stop t) (h : s.outcome.depthLimited = true) :
    t.outcome.depthLimited = true := by
  have hopen := (s.depthLimited_openScope ctx start stop rule).trans h
  cases enters with
  | own => exact hopen
  | closed embedded collects => exact (depthLimited_closeScope ..).trans (collects.depthLimited hopen)
  | unclosed embedded collects => exact collects.depthLimited hopen

theorem depthLimited_takes {rule : Rule} {start stop : Nat}
    (htakes : Takes ctx inside s rule start stop t) (h : s.outcome.depthLimited = true) :
    t.outcome.depthLimited = true := by
  have harrive := (s.depthLimited_arrive ctx start rule).trans h
  cases htakes with
  | skip empty =>
    rw [depthLimited_skipChar]
    exact h
  | refuse lt opens full => rfl
  | enter lt opens room => exact (enters_enterScope ..).depthLimited harrive
  | single lt opens => exact (depthLimited_takeSingle ..).trans harrive

theorem depthLimited_steps (hsteps : Steps ctx inside s t) (h : s.outcome.depthLimited = true) :
    t.outcome.depthLimited = true := by
  cases hsteps with
  | ended => exact (depthLimited_finish ..).trans h
  | lost => exact (depthLimited_finish ..).trans h
  | rule hit found takes => exact depthLimited_takes takes h
  | close hit => exact (depthLimited_closeScope ..).trans h
  | illegal hit => exact (depthLimited_markIllegal ..).trans h

theorem depthLimited_drain (inside : Embedding ctx → Inner) (found : Array Span) (s : State)
    (h : s.outcome.depthLimited = true) :
    (s.drain ctx inside found).2.outcome.depthLimited = true := by
  fun_induction s.drain ctx inside found with
  | case1 => exact h
  | case2 found s found' hdone ih => exact ih (depthLimited_steps (steps_iff.2 rfl) h)

section WithCap

variable {inside' : Embedding (ctx.withCap cap) → Inner} (hcap : ctx.cap ≤ cap)
  (hin : ∀ e : Embedding ctx, (inside e).outcome.depthLimited = false →
    inside' (e.widen hcap) = inside e)

include hin

/-- A region that was highlighted without being cut off is the same under a higher cap, and where
one was left as text the flag was set. -/
theorem CollectsBody.withCap {kind : Kind} {language : String} {start stop : Nat}
    (collects : CollectsBody ctx inside s kind language start stop t)
    (h : t.outcome.depthLimited = false) :
    CollectsBody (ctx.withCap cap) inside' s kind language start stop t := by
  cases collects with
  | unknown missing => exact .unknown missing
  | adopted e known start_eq stop_eq base_eq =>
    rw [depthLimited_adopt, Bool.or_eq_false_iff] at h
    rw [← hin e h.2]
    exact .adopted (e.widen hcap) known start_eq stop_eq base_eq
  | limited => cases h
  | empty known le => exact .empty known le

theorem Enters.withCap {rule : Rule} {start stop : Nat}
    (enters : Enters ctx inside s rule start stop t) (h : t.outcome.depthLimited = false) :
    Enters (ctx.withCap cap) inside' s rule start stop t := by
  cases enters with
  | own own => exact .own own
  | closed embedded collects found =>
    rw [depthLimited_closeScope] at h
    exact .closed embedded (collects.withCap hcap hin h) found
  | unclosed embedded collects endless =>
    exact .unclosed embedded (collects.withCap hcap hin h) endless

/-- A scope that was opened under a cap is opened under a higher one, and where one was not opened
the flag was set. -/
theorem takes_withCap {rule : Rule} {start stop : Nat}
    (htakes : Takes ctx inside s rule start stop t) (h : t.outcome.depthLimited = false) :
    Takes (ctx.withCap cap) inside' s rule start stop t := by
  cases htakes with
  | skip empty => exact .skip empty
  | refuse lt opens full => cases h
  | enter lt opens room =>
    have enters := (enters_enterScope ctx inside (s.arrive ctx rule start) rule start stop).withCap
      hcap hin h
    rw [← enters_iff.1 enters]
    exact .enter lt opens (Nat.lt_of_lt_of_le room hcap)
  | single lt opens => exact .single lt opens

/-- A step after which nothing has been cut off is the same under a higher cap. -/
theorem steps_withCap (hsteps : Steps ctx inside s t) (h : t.outcome.depthLimited = false) :
    Steps (ctx.withCap cap) inside' s t := by
  cases hsteps with
  | ended none => exact .ended none
  | lost hit none => exact .lost hit none
  | rule hit found takes => exact .rule hit found (takes_withCap hcap hin takes h)
  | close hit => exact .close hit
  | illegal hit => exact .illegal hit

/-- A run in which nothing has been cut off takes the same steps under a higher cap. -/
theorem drain_withCap (found : Array Span) (s : State)
    (h : (s.drain ctx inside found).2.outcome.depthLimited = false) :
    s.drain (ctx.withCap cap) inside' found = s.drain ctx inside found := by
  fun_induction s.drain ctx inside found with
  | case1 found s found' hdone => exact drain_of_done inside' found hdone
  | case2 found s found' hdone ih =>
    have hstep : (s.emptied.step ctx inside).outcome.depthLimited = false := by
      cases hlimited : (s.emptied.step ctx inside).outcome.depthLimited with
      | false => rfl
      | true =>
        rw [depthLimited_drain inside found' _ hlimited] at h
        cases h
    have hsame := steps_iff.1 (steps_withCap hcap hin (steps_iff.2 rfl) hstep)
    rw [drain_of_going inside' found (Bool.eq_false_iff.2 hdone), hsame]
    exact ih h

end WithCap

end State

/-- A region in which nothing was cut off is the same under a higher cap, whatever is embedded in
it. -/
theorem region_withCap (ctx : Context) (start : Nat) {cap : Nat} (hcap : ctx.cap ≤ cap)
    (h : (region ctx start).outcome.depthLimited = false) :
    region (ctx.withCap cap) start = region ctx start := by
  fun_induction region ctx start with
  | case1 ctx start spans s hdrain ih =>
    have hin : ∀ e : Embedding ctx, (region e.context e.start).outcome.depthLimited = false →
        (ctx.withCap cap).inside (e.widen hcap) = region e.context e.start :=
      fun e he => ih e hcap he
    have hsame := State.drain_withCap hcap hin #[] (State.start start) h
    rw [region_eq, hsame, hdrain]

end Scan

/-- Highlighting in which nothing is cut off comes to the same under a higher cap. -/
theorem Highlighting.toHighlight_withCap (h : Highlighting) {cap : Nat} (hcap : h.ctx.cap ≤ cap)
    (hlimit : h.toHighlight.outcome.depthLimited = false) :
    Highlighting.toHighlight ⟨h.ctx.withCap cap, h.state⟩ = h.toHighlight := by
  have hin : ∀ e : Scan.Embedding h.ctx, (h.ctx.inside e).outcome.depthLimited = false →
      (h.ctx.withCap cap).inside (e.widen hcap) = h.ctx.inside e :=
    fun e => Scan.region_withCap e.context e.start hcap
  have hdrain := Scan.State.drain_withCap hcap hin #[] h.state hlimit
  unfold toHighlight rest
  simp only [hdrain]
  rfl

theorem effectiveMaxDepth_mono {d d' : Nat} (h : d ≤ d') :
    effectiveMaxDepth d ≤ effectiveMaxDepth d' := by
  unfold effectiveMaxDepth
  omega

/-- A depth cap that cuts nothing off has no effect: the highlight is the same under every higher
cap. So a higher cap never cuts off what a lower one did not, and from some cap on all are alike. -/
theorem highlight_depthCap (grammar : Grammar) (language? : String → Option Grammar)
    (text : String) :
    (∀ d d', d ≤ d' → (grammar.highlight text language? d).outcome.depthLimited = false →
      grammar.highlight text language? d' = grammar.highlight text language? d) ∧
    (∀ d d', d ≤ d' → (grammar.highlight text language? d').outcome.depthLimited = true →
      (grammar.highlight text language? d).outcome.depthLimited = true) ∧
    ∀ d, maxDepthLimit ≤ d →
      grammar.highlight text language? d = grammar.highlight text language? maxDepthLimit := by
  have hsame : ∀ d d', d ≤ d' → (grammar.highlight text language? d).outcome.depthLimited = false →
      grammar.highlight text language? d' = grammar.highlight text language? d := by
    intro d d' hd hlimit
    exact (Highlighting.start grammar language? d text).toHighlight_withCap
      (effectiveMaxDepth_mono hd) hlimit
  refine ⟨hsame, ?_, ?_⟩
  · intro d d' hd hlimit
    cases hl : (grammar.highlight text language? d).outcome.depthLimited with
    | true => rfl
    | false =>
      rw [hsame d d' hd hl, hl] at hlimit
      cases hlimit
  · intro d hd
    have heff : effectiveMaxDepth d = effectiveMaxDepth maxDepthLimit := Nat.min_eq_right hd
    unfold Grammar.highlight Highlighting.start
    rw [heff]

/-- No level at all is needed for a letter. -/
theorem highlight_letter_depthCap :
    (Grammar.bars.highlight "a" (fun _ => some .bars) 0).outcome.depthLimited = false ∧
      Grammar.bars.highlight "a" (fun _ => some .bars) 32 =
        Grammar.bars.highlight "a" (fun _ => some .bars) 0 := by
  let ctx := (Highlighting.start .bars (fun _ => some .bars) 0 "a").ctx
  let s := Scan.State.start 0
  let t := (s.arrive ctx .letter 0).takeSingle .letter 0 1
  have hletter : s.nextHit? ctx = some (.rule 1, 0, 1) := by
    change Grammar.bars.scanner.find? ⟨#['a'], 1⟩ 0 = _
    rw [Scanner.find?, Haystack.first?]
    simp [Grammar.bars, Scanner.hitAt?, Regex.endAt?_char, Regex.CharSet.hasAt, Haystack.char?,
      Regex.CharSet.has]
  have hnothing : t.emptied.nextHit? ctx = none := by
    change Grammar.bars.scanner.find? ⟨#['a'], 1⟩ 1 = _
    rw [Scanner.find?, Haystack.first?, Haystack.first?]
    simp [Grammar.bars, Scanner.hitAt?, Regex.endAt?_char, Regex.CharSet.hasAt, Haystack.char?]
  have hfirst : s.step ctx ctx.inside = t :=
    Scan.State.steps_iff.1 (.rule hletter rfl (.single (by decide) rfl))
  have hlast : t.emptied.step ctx ctx.inside = t.emptied.finish ctx :=
    Scan.State.steps_iff.1 (.ended hnothing)
  have hlimit : (s.drain ctx ctx.inside #[]).2.outcome.depthLimited = false := by
    rw [Scan.State.drain_of_going ctx.inside #[] rfl]
    change ((s.step ctx ctx.inside).drain ctx ctx.inside _).2.outcome.depthLimited = false
    rw [hfirst, Scan.State.drain_of_going ctx.inside _ rfl, hlast,
      Scan.State.drain_of_done ctx.inside _ (Scan.State.done_finish ctx t.emptied)]
    exact t.emptied.depthLimited_finish ctx
  exact ⟨hlimit, (highlight_depthCap .bars (fun _ => some .bars) "a").1 0 32 (by decide) hlimit⟩

end Highlighter
