import Highlighter.Proofs.Bounds
import Highlighter.Proofs.Candidates
import Highlighter.Proofs.Granularity.Drawing

/-!
Highlighting draws what happens. Each step of a region in which nothing is embedded collects what
its incidents draw, so a whole run collects what its story draws.
-/

namespace Highlighter

namespace Emitter

/-- What has been collected, with some spans in front of it. -/
def behind (taken : List Span) (e : Emitter) : Emitter := { e with ready := taken ++ e.ready }

variable (taken : List Span) (e : Emitter) (kind : Kind) (start stop : Nat)

@[simp] theorem spans_behind : (e.behind taken).spans = taken ++ e.spans := by
  simp [spans, behind]

@[simp] theorem flush_behind : (e.behind taken).flush = e.flush.behind taken := by
  unfold flush behind
  cases hg : e.growing <;> simp [hg]

@[simp] theorem text_behind :
    (e.behind taken).text kind start stop = (e.text kind start stop).behind taken := by
  unfold text
  split
  · rfl
  · rw [flush_behind]
    cases hg : e.growing with
    | none => simp [behind, hg]
    | some span =>
      simp only [behind, hg]
      split <;> rfl

@[simp] theorem atom_behind :
    (e.behind taken).atom kind start stop = (e.atom kind start stop).behind taken := by
  unfold atom
  rw [flush_behind]
  simp only
  split
  · rfl
  · simp [behind]

end Emitter

namespace Scan

namespace Canvas

/-- A canvas with some spans in front of it. -/
def behind (taken : List Span) (c : Canvas) : Canvas := { c with emitter := c.emitter.behind taken }

theorem reach_behind (taken : List Span) (c : Canvas) (p : Nat) :
    (c.behind taken).reach p = (c.reach p).behind taken := by
  simp [reach, behind, kind]

theorem match?_behind (taken : List Span) (c : Canvas) (i : Incident) :
    (c.behind taken).match? i = (c.match? i).behind taken := by
  cases i with
  | opened rule start stop =>
    cases ho : rule.openingOutside <;> cases hk : rule.kind <;> simp [match?, behind, kind, ho, hk]
  | closed rule start stop =>
    cases ho : rule.closingOutside <;> cases hk : rule.kind <;> simp [match?, behind, kind, ho, hk]
  | single rule start stop => cases hk : rule.kind <;> simp [match?, behind, kind, hk]
  | keyword kind start stop => simp [match?, behind]
  | illegal start stop => simp [match?, behind, kind]

theorem draw_behind (taken : List Span) (c : Canvas) (incidents : List Incident) :
    incidents.foldl draw (c.behind taken) = (incidents.foldl draw c).behind taken := by
  induction incidents generalizing c with
  | nil => rfl
  | cons i rest ih =>
    have hdraw : (c.behind taken).draw i = (c.draw i).behind taken := by
      unfold draw
      rw [reach_behind, match?_behind]
      rfl
    rw [List.foldl_cons, List.foldl_cons, hdraw, ih]

theorem position_draw {c : Canvas} {incidents : List Incident} {b : Nat}
    (h : Incident.Ordered incidents c.position b) :
    (incidents.foldl draw c).position ≤ b := by
  induction incidents generalizing c with
  | nil => exact h
  | cons i rest ih => exact ih h.2.2.2

theorem stack_draw {c : Canvas} {incidents : List Incident}
    (h : ∀ i ∈ incidents, ∀ stack, i.turn stack = stack) :
    (incidents.foldl draw c).stack = c.stack := by
  induction incidents generalizing c with
  | nil => rfl
  | cons i rest ih =>
    exact (ih fun i hi => h i (List.mem_cons_of_mem _ hi)).trans (h i (List.mem_cons_self ..) _)

end Canvas

/-- The kinds of open scopes: each has that of the nearest rule that has one. -/
def Labelled : List Frame → Prop
  | [] => True
  | frame :: stack =>
    frame.kind = Rule.effectiveKind ((frame :: stack).map Frame.rule) ∧ Labelled stack

namespace State

/-- What has been drawn in a state. -/
def canvas (s : State) : Canvas := ⟨s.emitter, s.gap, s.stack.map Frame.rule⟩

theorem kind_canvas {s : State} (h : Labelled s.stack) : s.canvas.kind = s.kind := by
  unfold Canvas.kind canvas kind
  cases hs : s.stack with
  | nil => rfl
  | cons frame stack =>
    rw [hs] at h
    exact h.1.symm

theorem keywordsFrom_of_le {grammar : Grammar} {source : Source} {stop position : Nat}
    (h : stop ≤ position) : keywordsFrom grammar source stop position = [] := by
  rw [keywordsFrom, if_neg (Nat.not_lt.2 h)]

theorem keywordsFrom_of_none {grammar : Grammar} {source : Source} {stop position : Nat}
    (h : grammar.word.findSwept? ⟨source.chars, stop⟩ position = none) :
    keywordsFrom grammar source stop position = [] := by
  rw [keywordsFrom]
  split
  · split
    · rfl
    · rename_i hsome
      rw [h] at hsome
      cases hsome
  · rfl

theorem keywordsFrom_of_some {grammar : Grammar} {source : Source} {stop position first last : Nat}
    (hlt : position < stop)
    (h : grammar.word.findSwept? ⟨source.chars, stop⟩ position = some (first, last)) :
    keywordsFrom grammar source stop position =
      (keyword? grammar source first last).toList ++
        keywordsFrom grammar source stop (pastWord first last) := by
  rw [keywordsFrom, if_pos hlt]
  split
  · rename_i hnone
    rw [h] at hnone
    cases hnone
  · rename_i first' last' hsome
    rw [h] at hsome
    cases hsome
    rfl

theorem keyword?_eq_some {grammar : Grammar} {source : Source} {first last : Nat} {i : Incident}
    (h : keyword? grammar source first last = some i) :
    first < last ∧ ∃ entry, grammar.keywords.find? (source.slice first last) = some entry ∧
      i = .keyword entry.kind first last := by
  unfold keyword? at h
  split at h
  · rename_i hlt
    obtain ⟨entry, hentry, rfl⟩ := Option.map_eq_some_iff.1 h
    exact ⟨hlt, entry, hentry, rfl⟩
  · cases h

theorem turn_of_mem_keywordsFrom {grammar : Grammar} {source : Source} {stop position : Nat} :
    ∀ i ∈ keywordsFrom grammar source stop position, ∀ stack, i.turn stack = stack := by
  fun_induction keywordsFrom grammar source stop position with
  | case1 => simp
  | case2 position hlt first last hfound ih =>
    intro i hi stack
    rcases List.mem_append.1 hi with hi | hi
    · obtain ⟨-, entry, -, rfl⟩ := keyword?_eq_some (Option.mem_toList.1 hi)
      rfl
    · exact ih i hi stack
  | case3 => simp

theorem ordered_keywordsFrom {grammar : Grammar} {source : Source} {stop plain position : Nat}
    (hp : plain ≤ position) (hstop : plain ≤ stop) :
    Incident.Ordered (keywordsFrom grammar source stop position) plain stop := by
  fun_induction keywordsFrom grammar source stop position generalizing plain with
  | case1 => exact hstop
  | case2 position hlt first last hfound ih =>
    obtain ⟨hle, -, hlast⟩ := Regex.findSwept?_bounds hfound
    have hpast := lt_pastWord hfound
    cases hkey : keyword? grammar source first last with
    | none => exact ih (by omega) hstop
    | some i =>
      obtain ⟨hlt', entry, -, rfl⟩ := keyword?_eq_some hkey
      refine ⟨?_, Nat.le_of_lt hlt', fun _ => hlt', ih ?_ hlast⟩
      · exact Nat.le_trans hp hle
      · rw [pastWord, if_pos hlt']
        exact Nat.le_refl _
  | case3 => exact hstop

/-- Text outside all scopes is collected as its keywords draw it. -/
theorem emitter_classifyFrom (grammar : Grammar) (source : Source) (s : State)
    (stop plain position : Nat) :
    (s.classifyFrom grammar source stop plain position).emitter =
      (((keywordsFrom grammar source stop position).foldl Canvas.draw
        ⟨s.emitter, plain, []⟩).reach stop).emitter := by
  fun_induction s.classifyFrom grammar source stop plain position with
  | case1 s plain position hlt hnone =>
    rw [keywordsFrom_of_none hnone]
    rfl
  | case2 s plain position hlt first last hfound s' plain' hword ih =>
    rw [ih, keywordsFrom_of_some hlt hfound, List.foldl_append]
    congr 3
    unfold keyword?
    split at hword
    · rename_i hne
      rw [if_pos hne]
      unfold takeWord at hword
      simp only at hword
      split at hword
      · rename_i entry hentry
        cases hword
        rw [hentry, emitter_countKeyword]
        rfl
      · rename_i hentry
        cases hword
        rw [hentry]
        rfl
    · rename_i hne
      cases hword
      rw [if_neg hne]
      rfl
  | case3 s plain position hlt =>
    rw [keywordsFrom_of_le (Nat.not_lt.1 hlt)]
    rfl

variable {ctx : Context} {s t : State}

theorem turn_of_mem_keywords {position : Nat} :
    ∀ i ∈ s.keywords ctx position, ∀ stack, i.turn stack = stack := by
  unfold keywords
  split
  · exact turn_of_mem_keywordsFrom
  · simp

theorem ordered_keywords {position : Nat} (h : s.gap ≤ position) :
    Incident.Ordered (s.keywords ctx position) s.gap position := by
  unfold keywords
  split
  · exact ordered_keywordsFrom (Nat.le_refl _) h
  · exact h

/-- What has been passed over is collected as its keywords draw it. -/
theorem canvas_flushGap (h : Labelled s.stack) (ctx : Context) (position : Nat) :
    (s.flushGap ctx position).canvas =
      ((s.keywords ctx position).foldl Canvas.draw s.canvas).reach position := by
  have hcourse := toCourse_flushGap ctx s position
  unfold keywords
  rcases Nat.lt_or_ge s.gap position with hlt | hle
  · rw [Nat.max_eq_right (Nat.le_of_lt hlt)] at hcourse
    cases hs : s.stack with
    | nil =>
      let incidents := keywordsFrom ctx.grammar ctx.source position s.gap
      let c : Canvas := ⟨s.emitter, s.gap, []⟩
      have hcanvas : s.canvas = c := by simp [canvas, hs, c]
      have hposition : (incidents.foldl Canvas.draw c).position ≤ position :=
        Canvas.position_draw (ordered_keywordsFrom (Nat.le_refl s.gap) (Nat.le_of_lt hlt))
      have hstack : (incidents.foldl Canvas.draw c).stack = [] :=
        Canvas.stack_draw turn_of_mem_keywordsFrom
      have hemitter : (s.flushGap ctx position).emitter =
          ((incidents.foldl Canvas.draw c).reach position).emitter := by
        rw [flushGap_outside hs hlt]
        exact emitter_classifyFrom ..
      simp only [List.isEmpty_nil, hlt, decide_true, Bool.and_self, ↓reduceIte, hcanvas]
      refine Canvas.ext hemitter ?_ ?_
      · rw [Canvas.position_reach hposition]
        exact congrArg Course.gap hcourse
      · simp [canvas, hcourse, hs, Canvas.reach, incidents, hstack]
    | cons frame stack =>
      simp only [List.isEmpty_cons, Bool.false_and, Bool.false_eq_true, ↓reduceIte, List.foldl_nil,
        Canvas.reach, kind_canvas h]
      rw [flushGap_inside hs, kind, hs]
      simp [canvas, text, hs]
  · rw [if_neg (by simp; omega), flushGap_of_le hle]
    simp [Canvas.reach, Emitter.text, canvas, hle]

end State

end Scan

end Highlighter
