import Highlighter.Proofs.Granularity.Divides
import Highlighter.Proofs.Granularity.Ordered

/-!
Incidents as they are drawn. The text between two of them has the kind of the scopes open there, and
each draws its own match. Drawn one after the other, they come to spans that are cut as they ask
for: at every position the invariant says how the text in front of it has been cut, and that text
behind it will not be joined to it across a cut.
-/

namespace Highlighter

namespace Scan

/-- Where drawing stands: what has been collected, up to which position, and which scopes are
open. -/
@[ext]
structure Canvas where
  emitter : Emitter
  position : Nat
  stack : List Rule

namespace Canvas

open Incident

/-- The kind of the text behind the position. -/
def kind (c : Canvas) : Kind := Rule.effectiveKind c.stack

/-- Draws the text up to a position. -/
def reach (c : Canvas) (p : Nat) : Canvas :=
  { c with emitter := c.emitter.text c.kind c.position p, position := max c.position p }

/-- The match of something, drawn behind the text in front of it. -/
def match? (c : Canvas) : Incident → Emitter
  | .opened rule start stop =>
    let inner := Rule.effectiveKind (rule :: c.stack)
    let e := if rule.openingOutside then c.emitter.text c.kind start stop else c.emitter
    let e := if rule.kind.isSome then e.flush else e
    if rule.openingOutside then e else e.text inner start stop
  | .closed rule start stop =>
    if rule.closingOutside then
      (if rule.kind.isSome then c.emitter.flush else c.emitter).text
        (Rule.effectiveKind c.stack.tail) start stop
    else
      let e := c.emitter.text c.kind start stop
      if rule.kind.isSome then e.flush else e
  | .single rule start stop =>
    match rule.kind with
    | some kind => c.emitter.atom kind start stop
    | none => c.emitter.text c.kind start stop
  | .keyword kind start stop => c.emitter.atom kind start stop
  | .illegal start stop => c.emitter.text c.kind start stop

/-- Draws the text in front of something, and its match. -/
def draw (c : Canvas) (i : Incident) : Canvas :=
  ⟨(c.reach i.start).match? i, i.stop, i.turn c.stack⟩

@[simp] theorem position_reach {c : Canvas} {p : Nat} (h : c.position ≤ p) :
    (c.reach p).position = p := Nat.max_eq_right h

/-- What holds of a canvas when some incidents are still to be drawn, up to a last position. -/
structure Ahead (kind : Nat → Kind) (cut : Nat → Prop) (first last : Nat)
    (incidents : List Incident) (c : Canvas) : Prop where
  drawn : c.emitter.Drawn kind cut first c.position
  ordered : Ordered incidents c.position last
  kinds : ∀ p, c.position ≤ p → kind p = kindOf c.stack incidents p
  cut_of_mem : ∀ p, c.position ≤ p → p ∈ cuts incidents → cut p
  mem_of_cut : ∀ p, c.position < p → cut p → p ∈ cuts incidents
  /-- Text behind a cut that has been reached is not joined to what is in front of it. -/
  apart : cut c.position → c.emitter.growing = none ∨ c.position ∈ cuts incidents

variable {kind : Nat → Kind} {cut : Nat → Prop} {first last : Nat} {incidents : List Incident}
  {c : Canvas}

theorem Ahead.reach (h : Ahead kind cut first last incidents c) {p : Nat} (hp : c.position ≤ p)
    (hordered : Ordered incidents p last) : Ahead kind cut first last incidents (c.reach p) := by
  have hlater : ∀ q ∈ cuts incidents, p ≤ q := fun q hq => (bounds_of_cuts hordered q hq).1
  rcases Nat.eq_or_lt_of_le hp with rfl | hlt
  · have hsame : c.reach c.position = c := by
      simp [Canvas.reach, Emitter.text]
    rwa [hsame]
  have hposition := position_reach hp
  refine ⟨?_, ?_, ?_, ?_, ?_, ?_⟩
  · rw [hposition]
    refine h.drawn.text hp (fun q hq hqp => ?_) (fun q hq hqp hcut => ?_) fun _ hcut => ?_
    · rw [h.kinds q hq, kindOf_of_lt hordered hqp, Canvas.kind]
    · have := hlater q (h.mem_of_cut q hq hcut)
      omega
    · refine (h.apart hcut).resolve_right fun hmem => ?_
      have := hlater _ hmem
      omega
  · rwa [hposition]
  · rw [hposition]
    exact fun q hq => h.kinds q (Nat.le_trans hp hq)
  · rw [hposition]
    exact fun q hq => h.cut_of_mem q (Nat.le_trans hp hq)
  · rw [hposition]
    exact fun q hq => h.mem_of_cut q (Nat.lt_trans hlt hq)
  · rw [hposition]
    exact fun hcut => .inr (h.mem_of_cut p hlt hcut)

/-- Once the match of something has been drawn, the incidents behind it are ahead. -/
theorem Ahead.of_match {i : Incident} {rest : List Incident}
    (h : Ahead kind cut first last (i :: rest) c) (hposition : c.position = i.start)
    (drawn : (c.match? i).Drawn kind cut first i.stop)
    (hedge : i.stop ∈ i.edges → (c.match? i).growing = none)
    (hempty : i.start = i.stop → c.emitter.growing = none → (c.match? i).growing = none) :
    Ahead kind cut first last rest ⟨c.match? i, i.stop, i.turn c.stack⟩ := by
  obtain ⟨-, hle, -, hrest⟩ := h.ordered
  have hcut : ∀ p, i.stop < p → (p ∈ cuts (i :: rest) ↔ p ∈ cuts rest) := by
    intro p hp
    rw [mem_cuts_cons, or_iff_right]
    intro hmem
    have := bounds_of_edges hmem hle
    omega
  refine ⟨drawn, hrest, ?_, ?_, ?_, ?_⟩ <;> simp only
  · intro p hp
    rw [h.kinds p (by omega), kindOf_of_le hle hp]
  · exact fun p hp hmem => h.cut_of_mem p (by omega) (mem_cuts_cons.2 (.inr hmem))
  · exact fun p hp hc => (hcut p hp).1 (h.mem_of_cut p (by omega) hc)
  · intro hc
    have hmem : i.start = i.stop ∧ c.emitter.growing = none ∨ i.stop ∈ cuts (i :: rest) := by
      rcases Nat.eq_or_lt_of_le hle with heq | hlt
      · rw [← heq, ← hposition] at hc ⊢
        exact (h.apart hc).imp_left fun hg => ⟨rfl, hg⟩
      · exact .inr (h.mem_of_cut i.stop (by omega) hc)
    rcases hmem with ⟨heq, hg⟩ | hmem
    · exact .inl (hempty heq hg)
    · exact (mem_cuts_cons.1 hmem).imp_left hedge

section Match

variable {i : Incident} {rest : List Incident} (h : Ahead kind cut first last (i :: rest) c)
  (hposition : c.position = i.start)

include h hposition

theorem Ahead.cut_of_edge {p : Nat} (hp : p ∈ i.edges) : cut p := by
  have hbounds := bounds_of_edges hp h.ordered.2.1
  exact h.cut_of_mem p (by omega) (mem_cuts_cons.2 (.inl hp))

theorem Ahead.edge_of_cut {p : Nat} (hstart : i.start < p) (hstop : p < i.stop) (hcut : cut p) :
    p ∈ i.edges := by
  refine (mem_cuts_cons.1 (h.mem_of_cut p (by omega) hcut)).resolve_right fun hmem => ?_
  have := bounds_of_cuts h.ordered.2.2.2 p hmem
  omega

theorem Ahead.apart_of_not_edge (hlt : i.start < i.stop) (hno : i.start ∉ i.edges)
    (hcut : cut i.start) : c.emitter.growing = none := by
  rw [← hposition] at hcut hno hlt
  refine (h.apart hcut).resolve_right fun hmem => ?_
  have := bounds_of_cuts h.ordered.2.2.2 _ ((mem_cuts_cons.1 hmem).resolve_left hno)
  omega

/-- The match of something that is a span by itself. -/
theorem Ahead.match_atom {atom : Span} (hatom : i.atom? = some atom)
    (hmatch : c.match? i = c.emitter.atom atom.kind i.start i.stop) :
    Ahead kind cut first last rest ⟨c.match? i, i.stop, i.turn c.stack⟩ := by
  have hlt := h.ordered.2.2.1 (mayBeEmpty_of_atom? hatom)
  have hedges := edges_of_atom? hatom
  have hgrowing : (c.match? i).growing = none := by
    rw [hmatch]
    exact Emitter.growing_atom _ _ _ _
  refine h.of_match hposition ?_ (fun _ => hgrowing) fun _ _ => hgrowing
  have hdrawn := h.drawn
  rw [hposition] at hdrawn
  rw [hmatch]
  refine hdrawn.atom hlt (fun p hp hps => ?_) (fun p hp hps hcut => ?_) ?_ ?_
  · rw [h.kinds p (by omega), kindOf_atom hatom hp hps]
  · have hedge := h.edge_of_cut hposition hp hps hcut
    rw [hedges] at hedge
    simp only [List.mem_cons, List.not_mem_nil, or_false] at hedge
    omega
  · exact h.cut_of_edge hposition (by simp [hedges])
  · exact h.cut_of_edge hposition (by simp [hedges])

/-- The match of something else, drawn as text. -/
theorem Ahead.drawn_text (hatom : i.atom? = none) {e : Emitter} {k : Kind}
    (he : e.Drawn kind cut first i.start)
    (hkind : ∀ p, i.start ≤ p → p < i.stop → Rule.effectiveKind (openAt p c.stack [i]) = k)
    (hedges : ∀ p ∈ i.edges, p = i.start ∨ p = i.stop)
    (hgrowing : i.start < i.stop → cut i.start → e.growing = none) :
    (e.text k i.start i.stop).Drawn kind cut first i.stop := by
  refine he.text h.ordered.2.1 (fun p hp hps => ?_) (fun p hp hps hcut => ?_) hgrowing
  · rw [h.kinds p (by omega), kindOf_match hatom h.ordered.2.2.2 hps, hkind p hp hps]
  · have := hedges p (h.edge_of_cut hposition hp hps hcut)
    omega

/-- The match of something that is drawn as text of the scopes around it. If it is an edge, the cut
is behind it. -/
theorem Ahead.match_behind (edge : Bool) (hatom : i.atom? = none)
    (hedges : ∀ p, p ∈ i.edges ↔ edge = true ∧ p = i.stop)
    (hopen : ∀ p, i.start ≤ p → p < i.stop → openAt p c.stack [i] = c.stack)
    (hmatch : c.match? i = if edge then (c.emitter.text c.kind i.start i.stop).flush
      else c.emitter.text c.kind i.start i.stop) :
    Ahead kind cut first last rest ⟨c.match? i, i.stop, i.turn c.stack⟩ := by
  have hdrawn := h.drawn
  rw [hposition] at hdrawn
  have htext : (c.emitter.text c.kind i.start i.stop).Drawn kind cut first i.stop := by
    refine h.drawn_text hposition hatom hdrawn (fun p hp hps => ?_) (fun p hp => ?_)
      fun hlt hcut => ?_
    · rw [hopen p hp hps, Canvas.kind]
    · exact .inr ((hedges p).1 hp).2
    · refine h.apart_of_not_edge hposition hlt (fun hmem => ?_) hcut
      exact absurd ((hedges _).1 hmem).2 (Nat.ne_of_lt hlt)
  refine h.of_match hposition ?_ (fun hmem => ?_) fun heq hg => ?_
  · rw [hmatch]
    exact htext.flush_if fun hedge => h.cut_of_edge hposition ((hedges _).2 ⟨hedge, rfl⟩)
  · rw [hmatch]
    exact Emitter.growing_flush_if (.inl ((hedges _).1 hmem).1)
  · rw [hmatch]
    refine Emitter.growing_flush_if (.inr ?_)
    rwa [Emitter.text_of_le _ (Nat.le_of_eq heq.symm)]

/-- The match of something that is drawn as text of the scopes that are open once it has happened. If
it is an edge, the cut is in front of it. -/
theorem Ahead.match_front (edge : Bool) (hatom : i.atom? = none)
    (hedges : ∀ p, p ∈ i.edges ↔ edge = true ∧ p = i.start)
    (hopen : ∀ p, i.start ≤ p → p < i.stop → openAt p c.stack [i] = i.turn c.stack)
    (hmatch : c.match? i = (if edge then c.emitter.flush else c.emitter).text
      (Rule.effectiveKind (i.turn c.stack)) i.start i.stop) :
    Ahead kind cut first last rest ⟨c.match? i, i.stop, i.turn c.stack⟩ := by
  have hdrawn := h.drawn
  rw [hposition] at hdrawn
  have hfront : (if edge then c.emitter.flush else c.emitter).Drawn kind cut first i.start :=
    hdrawn.flush_if fun hedge => h.cut_of_edge hposition ((hedges _).2 ⟨hedge, rfl⟩)
  have hempty : i.start = i.stop →
      c.match? i = if edge then c.emitter.flush else c.emitter := by
    intro heq
    rw [hmatch, Emitter.text_of_le _ (Nat.le_of_eq heq.symm)]
  refine h.of_match hposition ?_ (fun hmem => ?_) fun heq hg => ?_
  · rw [hmatch]
    refine h.drawn_text hposition hatom hfront (fun p hp hps => congrArg _ (hopen p hp hps))
      (fun p hp => .inl ((hedges p).1 hp).2) fun hlt hcut => Emitter.growing_flush_if ?_
    cases edge with
    | true => exact .inl rfl
    | false =>
      refine .inr (h.apart_of_not_edge hposition hlt (fun hmem => ?_) hcut)
      exact absurd ((hedges _).1 hmem).1 Bool.false_ne_true
  · obtain ⟨hedge, heq⟩ := (hedges _).1 hmem
    rw [hempty heq.symm]
    exact Emitter.growing_flush_if (.inl hedge)
  · rw [hempty heq]
    exact Emitter.growing_flush_if (.inr hg)

/-- The match of something that has no say in how text is cut. -/
theorem Ahead.match_text (hatom : i.atom? = none) (hedges : i.edges = [])
    (hmatch : c.match? i = c.emitter.text c.kind i.start i.stop)
    (hstack : ∀ p, openAt p c.stack [i] = c.stack) :
    Ahead kind cut first last rest ⟨c.match? i, i.stop, i.turn c.stack⟩ :=
  h.match_behind hposition false hatom (by simp [hedges]) (fun p _ _ => hstack p)
    (by simp [hmatch])

end Match

theorem Ahead.match_opened {rule : Rule} {start stop : Nat} {rest : List Incident}
    (h : Ahead kind cut first last (.opened rule start stop :: rest) c)
    (hposition : c.position = start) :
    Ahead kind cut first last rest
      ⟨c.match? (.opened rule start stop), stop, rule :: c.stack⟩ := by
  cases houtside : rule.openingOutside with
  | true =>
    have hscope : rule.scopeStart start stop = stop := by simp [Rule.scopeStart, houtside]
    refine h.match_behind hposition rule.kind.isSome rfl (fun p => ?_) (fun p _ hp => ?_) ?_
    · rw [mem_edges_opened, hscope, Incident.stop]
    · have hno : ¬stop ≤ p := Nat.not_le.2 hp
      simp [openAt, hscope, hno]
    · simp [Canvas.match?, houtside, Incident.start, Incident.stop]
  | false =>
    have hscope : rule.scopeStart start stop = start := by simp [Rule.scopeStart, houtside]
    refine h.match_front hposition rule.kind.isSome rfl (fun p => ?_) (fun p hp _ => ?_) ?_
    · rw [mem_edges_opened, hscope, Incident.start]
    · have hle : start ≤ p := hp
      simp only [openAt, hscope, if_pos hle, turn]
    · simp [Canvas.match?, houtside, Incident.start, Incident.stop, turn]

theorem Ahead.match_closed {rule : Rule} {start stop : Nat} {rest : List Incident}
    (h : Ahead kind cut first last (.closed rule start stop :: rest) c)
    (hposition : c.position = start) :
    Ahead kind cut first last rest
      ⟨c.match? (.closed rule start stop), stop, c.stack.tail⟩ := by
  cases houtside : rule.closingOutside with
  | true =>
    have hscope : rule.scopeStop start stop = start := by simp [Rule.scopeStop, houtside]
    refine h.match_front hposition rule.kind.isSome rfl (fun p => ?_) (fun p hp _ => ?_) ?_
    · rw [mem_edges_closed, hscope, Incident.start]
    · have hle : start ≤ p := hp
      simp only [openAt, hscope, if_pos hle, turn]
    · simp [Canvas.match?, houtside, Incident.start, Incident.stop, turn]
  | false =>
    have hscope : rule.scopeStop start stop = stop := by simp [Rule.scopeStop, houtside]
    refine h.match_behind hposition rule.kind.isSome rfl (fun p => ?_) (fun p _ hp => ?_) ?_
    · rw [mem_edges_closed, hscope, Incident.stop]
    · have hno : ¬stop ≤ p := Nat.not_le.2 hp
      simp [openAt, hscope, hno]
    · simp [Canvas.match?, houtside, Incident.start, Incident.stop]

/-- Each incident draws its match as it should be. -/
theorem Ahead.match {i : Incident} {rest : List Incident}
    (h : Ahead kind cut first last (i :: rest) c) (hposition : c.position = i.start) :
    Ahead kind cut first last rest ⟨c.match? i, i.stop, i.turn c.stack⟩ := by
  cases i with
  | opened rule start stop => exact h.match_opened hposition
  | closed rule start stop => exact h.match_closed hposition
  | single rule start stop =>
    cases hk : rule.kind with
    | some kind =>
      exact h.match_atom hposition (by simp [atom?, hk]; rfl) (by simp [Canvas.match?, hk]; rfl)
    | none =>
      exact h.match_text hposition (by simp [atom?, hk]) (by simp [edges, atom?, scopeEdge?, hk])
        (by simp [Canvas.match?, hk]; rfl) (fun _ => rfl)
  | keyword kind start stop => exact h.match_atom hposition rfl rfl
  | illegal start stop =>
    exact h.match_text hposition rfl rfl rfl (fun _ => rfl)

theorem Ahead.draw {i : Incident} {rest : List Incident}
    (h : Ahead kind cut first last (i :: rest) c) : Ahead kind cut first last rest (c.draw i) := by
  obtain ⟨hstart, hle⟩ := h.ordered
  exact (h.reach hstart ⟨Nat.le_refl _, hle⟩).match (position_reach hstart)

/-- All incidents drawn, and the text behind the last of them. -/
theorem Ahead.divides (h : Ahead kind cut first last incidents c) :
    Divides kind cut ((incidents.foldl Canvas.draw c).reach last).emitter.spans first last := by
  induction incidents generalizing c with
  | nil =>
    have hle : c.position ≤ last := h.ordered
    have hdrawn := (h.reach hle (Nat.le_refl last)).drawn
    rw [position_reach hle] at hdrawn
    exact hdrawn.divides
  | cons i rest ih => exact ih h.draw

end Canvas

open Incident in
/-- What is to be a span by itself is one, where the text is cut as the incidents ask for. -/
theorem mem_of_divides {incidents : List Incident} {spans : List Span} {first last : Nat}
    (hordered : Ordered incidents first last)
    (h : Divides (kindOf [] incidents) (· ∈ cuts incidents) spans first last) {atom : Span}
    (hatom : atom ∈ atoms incidents) : atom ∈ spans := by
  have hbounds := bounds_of_atoms hordered atom hatom
  have hkind := fun p hs ht => kindOf_of_mem (p := p) hordered hatom hs ht []
  obtain ⟨hcutStart, hcutStop⟩ := mem_cuts_of_mem hatom
  obtain ⟨y, hy, hle, hlt⟩ := exists_of_tiles h.tiles hbounds.1 (by omega : atom.start < last)
  have hsame : y.kind = atom.kind := by
    rw [← h.kinds y hy atom.start hle hlt, hkind _ (Nat.le_refl _) hbounds.2.1]
  have hstart : y.start = atom.start := by
    rcases Nat.eq_or_lt_of_le hle with heq | hlt'
    · exact heq
    · exact absurd hcutStart (h.whole y hy _ hlt' hlt)
  have hstop : y.stop = atom.stop := by
    rcases Nat.lt_trichotomy y.stop atom.stop with hless | heq | hmore
    · -- The next span would begin inside of what has one kind and is not cut.
      obtain ⟨z, hz, hnext⟩ := exists_next_of_tiles h.tiles hy (by omega)
      have hz' := bounds_of_tiles h.tiles z hz
      have hbefore := hkind (z.start - 1) (by omega) (by omega)
      have hbehind := (h.kinds z hz z.start (Nat.le_refl _) hz'.2.1).symm.trans
        (hkind z.start (by omega) (by omega))
      rcases h.begins z hz (by omega) with hdiff | hcut
      · exact absurd (hbefore.trans hbehind.symm) hdiff
      · exact absurd hcut (not_mem_cuts_of_mem hordered hatom (by omega) (by omega))
    · exact heq
    · exact absurd hcutStop (h.whole y hy _ (by omega) hmore)
  have heq : atom = y := by
    cases atom
    cases y
    simp_all
  exact heq ▸ hy

open Incident in
/-- Spans that cut the text as the incidents ask for. -/
theorem granular_of_divides {incidents : List Incident} {spans : List Span} {first last : Nat}
    (hordered : Ordered incidents first last)
    (h : Divides (kindOf [] incidents) (· ∈ cuts incidents) spans first last) :
    Granular incidents spans where
  atoms := fun _ hatom => mem_of_divides hordered h hatom
  kinds := by
    intro span hspan p hstart hstop hno
    rw [← h.kinds span hspan p hstart hstop, kindOf_of_not_mem hno]
  cuts := by
    intro x hx y hy p hxp hpx hyp hpy hkind
    have hfirst := bounds_of_tiles h.tiles x hx
    constructor
    · rintro ⟨span, hspan, rfl⟩
      have hne := bounds_of_tiles h.tiles span hspan
      obtain rfl := eq_of_tiles h.tiles hspan hy (Nat.le_refl _) hne.2.1 hyp hpy
      refine (h.begins span hspan (by omega)).resolve_left fun hdiff => hdiff ?_
      rw [h.kinds x hx _ (by omega) (by omega), hkind]
    · intro hcut
      refine ⟨y, hy, ?_⟩
      rcases Nat.eq_or_lt_of_le hyp with heq | hlt
      · exact heq
      · exact absurd hcut (h.whole y hy p hlt hpy)

/-- Incidents that follow one another, drawn one after the other, cut the text as they ask for. -/
theorem granular_of_draw {incidents : List Incident} {first last : Nat}
    (h : Incident.Ordered incidents first last) :
    Granular incidents
      ((incidents.foldl Canvas.draw ⟨{}, first, []⟩).reach last).emitter.spans :=
  granular_of_divides h (Canvas.Ahead.divides
    { drawn := ⟨divides_nil first, fun _ hlt => absurd hlt (Nat.lt_irrefl first)⟩
      ordered := h
      kinds := fun _ _ => rfl
      cut_of_mem := fun _ _ hmem => hmem
      mem_of_cut := fun _ _ hcut => hcut
      apart := .inr })

end Scan

end Highlighter
