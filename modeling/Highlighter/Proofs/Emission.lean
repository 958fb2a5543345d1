import Highlighter.Proofs.Continued

/-!
The law of collecting spans. Whatever calls are made, as long as the ranges that are handed over
follow one another, the spans that were taken out, those that are ready and the one that may still
grow cover just these ranges, in order. Taking spans out does not matter for what they come to, so
it is left out of account first; then each call either lets the last span grow, or makes a new one,
or sees to it that what comes next is a new one.
-/

namespace Highlighter

namespace Emitter

/-- A call of an emitter. -/
inductive Call
  | text (kind : Kind) (start stop : Nat)
  | atom (kind : Kind) (start stop : Nat)
  | flush
  | pop
  deriving DecidableEq, Repr, Inhabited

/-- A range with its kind, unless it is empty. -/
def piece? (kind : Kind) (start stop : Nat) : Option Span :=
  if start < stop then some ⟨kind, start, stop⟩ else none

theorem piece?_of_lt {kind : Kind} {start stop : Nat} (hlt : start < stop) :
    piece? kind start stop = some ⟨kind, start, stop⟩ := if_pos hlt

theorem piece?_of_le {kind : Kind} {start stop : Nat} (hle : stop ≤ start) :
    piece? kind start stop = none := if_neg (Nat.not_lt.2 hle)

theorem piece?_eq_some {kind : Kind} {start stop : Nat} {piece : Span}
    (h : piece? kind start stop = some piece) : start < stop ∧ piece = ⟨kind, start, stop⟩ := by
  obtain ⟨hlt, hpiece⟩ := Option.ite_none_right_eq_some.1 h
  exact ⟨hlt, (Option.some.inj hpiece).symm⟩

/-- What a call hands over, if that is not empty. -/
def Call.span? : Call → Option Span
  | text kind start stop | atom kind start stop => piece? kind start stop
  | flush | pop => none

/-- Whether a call keeps what comes after it apart from what came before it. -/
def Call.cuts : Call → Bool
  | atom .. | flush => true
  | text .. | pop => false

/-- What some calls hand over, in order. -/
def handed (calls : List Call) : List Span := calls.filterMap Call.span?

/-- An emitter, and the spans that have been taken out of it, the oldest first. -/
structure Emission where
  taken : List Span := []
  emitter : Emitter := {}

namespace Emission

/-- Everything collected: what has been taken out, what is ready, and what may still grow. -/
def spans (e : Emission) : List Span := e.taken ++ (e.emitter.ready ++ e.emitter.growing.toList)

def call (e : Emission) : Call → Emission
  | .text kind start stop => { e with emitter := e.emitter.text kind start stop }
  | .atom kind start stop => { e with emitter := e.emitter.atom kind start stop }
  | .flush => { e with emitter := e.emitter.flush }
  | .pop =>
    match e.emitter.pop? with
    | some (span, emitter) => ⟨e.taken ++ [span], emitter⟩
    | none => e

/-- What some calls make of an emitter that is empty. -/
def ofCalls (calls : List Call) : Emission := calls.foldl call {}

end Emission

/-- An emitter after a call, with nothing taken out of it. -/
def hand (e : Emitter) : Call → Emitter
  | .text kind start stop => e.text kind start stop
  | .atom kind start stop => e.atom kind start stop
  | .flush => e.flush
  | .pop => e

/-- Taking spans out does not matter: with them put back, the emitter is as if none had been taken.
-/
theorem behind_call (e : Emission) (c : Call) :
    (e.call c).emitter.behind (e.call c).taken = (e.emitter.behind e.taken).hand c := by
  cases c with
  | text => exact (text_behind ..).symm
  | atom => exact (atom_behind ..).symm
  | flush => exact (flush_behind ..).symm
  | pop =>
    unfold Emission.call pop?
    cases hready : e.emitter.ready with
    | nil => rfl
    | cons span ready => simp [hand, behind, hready]

theorem behind_foldl_call (calls : List Call) (e : Emission) :
    (calls.foldl Emission.call e).emitter.behind (calls.foldl Emission.call e).taken =
      calls.foldl hand (e.emitter.behind e.taken) := by
  induction calls generalizing e with
  | nil => rfl
  | cons c calls ih => rw [List.foldl_cons, List.foldl_cons, ih, behind_call]

theorem spans_ofCalls (calls : List Call) :
    (Emission.ofCalls calls).spans = (calls.foldl hand {}).spans := by
  have h := congrArg spans (behind_foldl_call calls {})
  rwa [spans_behind] at h

variable {e e' : Emitter} {calls : List Call} {first middle last : Nat}

theorem continues_hand (e : Emitter) (c : Call) : e.Continues (e.hand c) := by
  cases c with
  | text kind start stop => exact e.continues_text kind start stop
  | atom kind start stop => exact e.continues_atom kind start stop
  | flush => exact e.continues_flush
  | pop => exact .refl e

theorem continues_foldl_hand (calls : List Call) (e : Emitter) :
    e.Continues (calls.foldl hand e) := by
  induction calls generalizing e with
  | nil => exact .refl e
  | cons c calls ih => exact (e.continues_hand c).trans (ih _)

/-- A span stays where it is, with its kind, and may only have become longer. -/
theorem Continues.exists_span (h : e.Continues e') {span : Span} (hspan : span ∈ e.spans) :
    ∃ span' ∈ e'.spans, span'.kind = span.kind ∧ span'.start = span.start ∧
      span.stop ≤ span'.stop := by
  rcases List.mem_append.1 hspan with hready | hgrowing
  · exact ⟨span, e'.ready_prefix.subset (h.ready.subset hready), rfl, rfl, Nat.le_refl _⟩
  · obtain ⟨stop, hstop, hfront⟩ := h.growing span (Option.mem_toList.1 hgrowing)
    exact ⟨_, hfront.subset (List.mem_append_right _ (List.mem_singleton_self _)), rfl, rfl, hstop⟩

/-- A range that goes on from one place to another, or is empty where these are the same. -/
theorem range_of_tiles_piece? {kind : Kind} {start stop a b : Nat}
    (h : Tiles (piece? kind start stop).toList a b) :
    start < stop ∧ start = a ∧ stop = b ∨ stop ≤ start ∧ a = b := by
  unfold piece? at h
  split at h
  · rename_i hlt
    obtain ⟨hstart, -, hstop⟩ := tiles_singleton.1 h
    exact .inl ⟨hlt, hstart, hstop⟩
  · rename_i hge
    exact .inr ⟨Nat.not_lt.1 hge, h⟩

/-- One call keeps the tiling: it goes on to where what is handed over ends. -/
theorem tiles_hand (h : Tiles e.spans first middle) {c : Call} {b : Nat}
    (hc : Tiles c.span?.toList middle b) : Tiles (e.hand c).spans first b := by
  cases c with
  | text kind start stop =>
    obtain ⟨hlt, rfl, rfl⟩ | ⟨hge, rfl⟩ := range_of_tiles_piece? hc
    · exact text_tiles h (Nat.le_of_lt hlt) kind
    · rwa [hand, text_of_le e hge]
  | atom kind start stop =>
    obtain ⟨hlt, rfl, rfl⟩ | ⟨hge, rfl⟩ := range_of_tiles_piece? hc
    · exact atom_tiles h (Nat.le_of_lt hlt) kind
    · rwa [hand, atom, if_pos hge, spans_flush]
  | flush =>
    cases hc
    rwa [hand, spans_flush]
  | pop =>
    cases hc
    exact h

theorem handed_cons (c : Call) (calls : List Call) :
    handed (c :: calls) = c.span?.toList ++ handed calls := by
  unfold handed
  cases hspan : c.span? <;> simp [hspan]

theorem handed_append (calls calls' : List Call) :
    handed (calls ++ calls') = handed calls ++ handed calls' := List.filterMap_append

theorem tiles_foldl_hand (h : Tiles e.spans first middle) (hc : Tiles (handed calls) middle last) :
    Tiles (calls.foldl hand e).spans first last := by
  induction calls generalizing e middle with
  | nil =>
    cases hc
    exact h
  | cons c calls ih =>
    rw [handed_cons] at hc
    obtain ⟨b, hfirst, hrest⟩ := tiles_append.1 hc
    exact ih (tiles_hand h hfirst) hrest

/-- Ranges that follow one another tile what is between the first and the last of them. -/
theorem exists_tiles_of_isChain {spans : List Span}
    (hchain : spans.IsChain fun x y => y.start = x.stop)
    (hne : ∀ span ∈ spans, span.start < span.stop) :
    ∃ first last, Tiles spans first last := by
  induction spans with
  | nil => exact ⟨0, 0, rfl⟩
  | cons x spans ih =>
    obtain ⟨hx, hrest⟩ := List.forall_mem_cons.1 hne
    cases spans with
    | nil => exact ⟨x.start, x.stop, tiles_singleton.2 ⟨rfl, hx, rfl⟩⟩
    | cons y spans =>
      obtain ⟨hxy, htail⟩ := List.isChain_cons_cons.1 hchain
      obtain ⟨first, last, htiles⟩ := ih htail hrest
      obtain rfl := start_of_tiles htiles y rfl
      exact ⟨x.start, last, rfl, hx, hxy ▸ htiles⟩

theorem lt_of_mem_handed {span : Span} (h : span ∈ handed calls) : span.start < span.stop := by
  obtain ⟨c, -, hspan⟩ := List.mem_filterMap.1 h
  cases c with
  | text kind start stop | atom kind start stop =>
    obtain ⟨hlt, rfl⟩ := piece?_eq_some hspan
    exact hlt
  | _ => cases hspan

theorem growing_text_joined {span : Span} {a b : Nat} (hgrowing : e.growing = some span)
    (hstop : span.stop = a) (hlt : a < b) :
    (e.text span.kind a b).growing = some { span with stop := b } := by
  unfold text
  simp [Nat.not_le.2 hlt, hgrowing, hstop]

theorem growing_text_apart {kind : Kind} {a b : Nat}
    (happart : ∀ span ∈ e.growing, span.stop = a → span.kind ≠ kind) (hlt : a < b) :
    (e.text kind a b).growing = some ⟨kind, a, b⟩ := by
  unfold text
  rw [if_neg (Nat.not_le.2 hlt)]
  cases hgrowing : e.growing with
  | none => rfl
  | some span =>
    have hno : ¬(span.kind = kind ∧ span.stop = a) := fun ⟨hkind, hstop⟩ =>
      happart span hgrowing hstop hkind
    simp [hno]

/-- A text that has been handed over is the end of the span that grows. -/
theorem exists_growing_text (h : Tiles e.spans first middle) (kind : Kind) {b : Nat}
    (hlt : middle < b) :
    ∃ span, (e.text kind middle b).growing = some span ∧ span.kind = kind ∧ span.stop = b ∧
      span.start ≤ middle := by
  by_cases hjoin : ∃ span ∈ e.growing, span.stop = middle ∧ span.kind = kind
  · obtain ⟨span, hgrowing, hstop, rfl⟩ := hjoin
    have hmem : span ∈ e.spans := List.mem_append_right _ (Option.mem_toList.2 hgrowing)
    have hbounds := bounds_of_tiles h span hmem
    exact ⟨_, growing_text_joined hgrowing hstop hlt, rfl, rfl, by simp only; omega⟩
  · refine ⟨_, growing_text_apart (fun span hgrowing hstop hkind => ?_) hlt, rfl, rfl,
      Nat.le_refl _⟩
    exact hjoin ⟨span, hgrowing, hstop, hkind⟩

/-- As long as no text is handed over, the span that grows stays, unless something cuts. -/
theorem growing_foldl_hand (hno : ∀ c ∈ calls, c.cuts = false → c.span? = none) :
    (calls.foldl hand e).growing = if calls.any Call.cuts then none else e.growing := by
  induction calls generalizing e with
  | nil => rfl
  | cons c calls ih =>
    obtain ⟨hc, hcalls⟩ := List.forall_mem_cons.1 hno
    rw [List.foldl_cons, ih hcalls, List.any_cons]
    have hgrowing : (e.hand c).growing = if c.cuts then none else e.growing := by
      cases c with
      | text kind start stop =>
        have hge : stop ≤ start := by
          refine Nat.not_lt.1 fun hlt => ?_
          cases (piece?_of_lt hlt).symm.trans (hc rfl)
        rw [hand, text_of_le e hge]
        rfl
      | atom kind start stop => exact growing_atom e kind start stop
      | flush => exact growing_flush e
      | pop => rfl
    rw [hgrowing]
    cases c.cuts <;> simp

/-- The law of collecting spans: what some calls come to. -/
structure Lawful (calls : List Call) (spans : List Span) : Prop where
  /-- The spans cover just the ranges that were handed over, in order, without gap or overlap, and
  none is empty. -/
  covers : ∃ first last, Tiles (handed calls) first last ∧ Tiles spans first last
  /-- Each range lies in a span of its kind. -/
  kept : ∀ piece ∈ handed calls, ∃ span ∈ spans,
    span.kind = piece.kind ∧ span.start ≤ piece.start ∧ piece.stop ≤ span.stop
  /-- An atom is a span of its own. -/
  atoms : ∀ kind start stop, .atom kind start stop ∈ calls → start < stop →
    ⟨kind, start, stop⟩ ∈ spans
  /-- Two texts without another between them lie in one span just if they have the same kind and
  nothing between them cuts. -/
  joined : ∀ before between after kind kind' a b c d,
    calls = before ++ .text kind a b :: (between ++ .text kind' c d :: after) → a < b → c < d →
    (∀ k x y, .text k x y ∈ between → y ≤ x) →
    ((∃ span ∈ spans, span.start ≤ a ∧ d ≤ span.stop) ↔
      kind = kind' ∧ ∀ call ∈ between, call.cuts = false)

/-- The span in which a text ends that follows another one, and where that span begins. -/
theorem exists_growing_of_texts {between : List Call} (kind kind' : Kind) {a b c d : Nat}
    (h : Tiles e.spans first a) (hab : a < b) (hcd : c < d)
    (htiles : Tiles (handed between) b c)
    (hno : ∀ call ∈ between, call.cuts = false → call.span? = none) :
    ∃ span, ((between.foldl hand (e.text kind a b)).text kind' c d).growing = some span ∧
      span.start ≤ c ∧ span.stop = d ∧
      (span.start ≤ a ↔ kind = kind' ∧ ∀ call ∈ between, call.cuts = false) := by
  have hbc := le_of_tiles htiles
  obtain ⟨span, hgrowing, rfl, hstop, hstart⟩ := exists_growing_text h kind hab
  have hbetween := growing_foldl_hand (e := e.text span.kind a b) hno
  by_cases hjoin : span.kind = kind' ∧ ∀ call ∈ between, call.cuts = false
  · obtain ⟨rfl, huncut⟩ := hjoin
    have hnothing : handed between = [] :=
      List.filterMap_eq_nil_iff.2 fun call hcall => hno call hcall (huncut call hcall)
    rw [hnothing] at htiles
    have hbc' : b = c := htiles
    have hany : between.any Call.cuts = false := by simpa using huncut
    rw [hany, if_neg Bool.false_ne_true, hgrowing] at hbetween
    refine ⟨_, growing_text_joined hbetween (hstop.trans hbc') hcd, ?_, rfl, ?_⟩
    · exact Nat.le_trans hstart (Nat.le_trans (Nat.le_of_lt hab) hbc)
    · exact iff_of_true hstart ⟨rfl, huncut⟩
  · refine ⟨_, growing_text_apart (fun last hlast _ hkind => ?_) hcd, Nat.le_refl c, rfl, ?_⟩
    · -- The span that grew would be that of the first text, and nothing would have cut.
      rw [hbetween] at hlast
      split at hlast
      · cases hlast
      · rename_i huncut
        obtain rfl := Option.some.inj (hgrowing.symm.trans hlast)
        exact hjoin ⟨hkind, by simpa using huncut⟩
    · exact iff_of_false (Nat.not_le.2 (Nat.lt_of_lt_of_le hab hbc)) hjoin

/-- What a call hands over lies in a span of its kind. -/
theorem exists_span_hand {piece : Span} (h : Tiles e.spans first piece.start) {c : Call}
    (hspan : c.span? = some piece) : ∃ span ∈ (e.hand c).spans,
      span.kind = piece.kind ∧ span.start ≤ piece.start ∧ piece.stop ≤ span.stop := by
  cases c with
  | text kind start stop =>
    obtain ⟨hlt, rfl⟩ := piece?_eq_some hspan
    obtain ⟨span, hgrowing, hkind, hstop, hstart⟩ := exists_growing_text h kind hlt
    exact ⟨span, List.mem_append_right _ (Option.mem_toList.2 hgrowing), hkind, hstart,
      Nat.le_of_eq hstop.symm⟩
  | atom kind start stop =>
    obtain ⟨hlt, rfl⟩ := piece?_eq_some hspan
    refine ⟨_, ?_, rfl, Nat.le_refl _, Nat.le_refl _⟩
    rw [hand, spans_atom e hlt kind]
    exact List.mem_append_right _ (List.mem_singleton_self _)
  | _ => cases hspan

/-- What has been handed over stays in a span of its kind. -/
theorem exists_span_of_mem_handed {calls : List Call}
    (h : Tiles (handed calls) first last) {piece : Span} (hpiece : piece ∈ handed calls) :
    ∃ span ∈ (calls.foldl hand {}).spans,
      span.kind = piece.kind ∧ span.start ≤ piece.start ∧ piece.stop ≤ span.stop := by
  obtain ⟨c, hc, hspan⟩ := List.mem_filterMap.1 hpiece
  obtain ⟨before, after, rfl⟩ := List.append_of_mem hc
  rw [handed_append, handed_cons, hspan] at h
  obtain ⟨x, hbefore, hrest⟩ := tiles_append.1 h
  obtain rfl := start_of_tiles hrest piece rfl
  have hnew : Tiles ({} : Emitter).spans first first := rfl
  obtain ⟨span, hmem, hkind, hstart, hstop⟩ :=
    exists_span_hand (tiles_foldl_hand hnew hbefore) hspan
  rw [List.foldl_append, List.foldl_cons]
  obtain ⟨span', hmem', hkind', hstart', hstop'⟩ :=
    (continues_foldl_hand after _).exists_span hmem
  exact ⟨span', hmem', hkind'.trans hkind, by omega, by omega⟩

/-- An atom is ready at once, and nothing is added to it. -/
theorem mem_spans_of_atom {calls : List Call} {kind : Kind} {start stop : Nat}
    (hatom : .atom kind start stop ∈ calls) (hlt : start < stop) :
    ⟨kind, start, stop⟩ ∈ (calls.foldl hand {}).spans := by
  obtain ⟨before, after, rfl⟩ := List.append_of_mem hatom
  rw [List.foldl_append, List.foldl_cons]
  have hready : ⟨kind, start, stop⟩ ∈
      ((before.foldl hand {}).hand (.atom kind start stop)).ready := by
    rw [hand, atom, if_neg (Nat.not_le.2 hlt)]
    exact List.mem_append_right _ (List.mem_singleton_self _)
  have hfront := Emitter.ready_prefix (after.foldl hand
    ((before.foldl hand {}).hand (.atom kind start stop)))
  exact hfront.subset ((continues_foldl_hand after _).ready.subset hready)

/-- Two texts lie in one span just if they are of one kind and nothing between them cuts. -/
theorem exists_span_of_texts_iff {before between after : List Call} {kind kind' : Kind}
    {a b c d : Nat} (hhanded : Tiles
      (handed (before ++ .text kind a b :: (between ++ .text kind' c d :: after))) first last)
    (hab : a < b) (hcd : c < d) (hno : ∀ k x y, .text k x y ∈ between → y ≤ x) :
    (∃ span ∈ ((before ++ .text kind a b :: (between ++ .text kind' c d :: after)).foldl
        hand {}).spans, span.start ≤ a ∧ d ≤ span.stop) ↔
      kind = kind' ∧ ∀ call ∈ between, call.cuts = false := by
  have hnew : Tiles ({} : Emitter).spans first first := rfl
  have htiles := tiles_foldl_hand hnew hhanded
  have hquiet : ∀ call ∈ between, call.cuts = false → call.span? = none := by
    intro call hcall huncut
    cases call with
    | text k x y => exact piece?_of_le (hno k x y hcall)
    | pop => rfl
    | _ => cases huncut
  simp only [handed_append, handed_cons, Call.span?, piece?_of_lt hab, piece?_of_lt hcd,
    tiles_append, Option.toList_some, tiles_singleton] at hhanded
  obtain ⟨x, hbefore, y, ⟨rfl, -, rfl⟩, z, hbetween, w, ⟨rfl, -, rfl⟩, hafter⟩ := hhanded
  obtain ⟨growing, hgrowing, hstart, hstop, hiff⟩ := exists_growing_of_texts kind kind'
    (tiles_foldl_hand hnew hbefore) hab hcd hbetween hquiet
  rw [← hiff]
  simp only [List.foldl_append, List.foldl_cons] at htiles ⊢
  obtain ⟨span, hmem, -, hstart', hstop'⟩ := (continues_foldl_hand after _).exists_span
    (List.mem_append_right _ (Option.mem_toList.2 hgrowing))
  constructor
  · -- What covers both texts is the span in which the second one ends.
    rintro ⟨other, hother, hfirst, hlast⟩
    have hbc := le_of_tiles hbetween
    obtain rfl : other = span :=
      eq_of_tiles htiles hother hmem (p := c) (by omega) (by omega) (by omega) (by omega)
    exact hstart' ▸ hfirst
  · exact fun hle => ⟨span, hmem, by omega, by omega⟩

/-- Ranges that follow one another are collected as the law says, whatever is taken out when. -/
theorem lawful_of_isChain (calls : List Call)
    (hchain : (handed calls).IsChain fun x y => y.start = x.stop) :
    Lawful calls (Emission.ofCalls calls).spans := by
  rw [spans_ofCalls]
  obtain ⟨first, last, hhanded⟩ := exists_tiles_of_isChain hchain fun _ => lt_of_mem_handed
  have hnew : Tiles ({} : Emitter).spans first first := rfl
  refine ⟨⟨first, last, hhanded, tiles_foldl_hand hnew hhanded⟩, ?_, ?_, ?_⟩
  · exact fun piece => exists_span_of_mem_handed hhanded
  · exact fun kind start stop => mem_spans_of_atom
  · rintro before between after kind kind' a b c d rfl hab hcd hno
    exact exists_span_of_texts_iff hhanded hab hcd hno

/-- Texts of one kind around a pop, an empty text of another kind, a cut and an atom. -/
theorem lawful_around_cuts :
    let calls : List Call :=
      [.text .plain 0 2, .pop, .text .string 2 2, .text .plain 2 3, .atom .keyword 3 3,
        .text .plain 3 5, .pop, .atom .keyword 5 8, .text .keyword 8 9, .pop]
    ((handed calls).IsChain fun x y => y.start = x.stop) ∧
      Lawful calls (Emission.ofCalls calls).spans ∧
      (Emission.ofCalls calls).spans =
        [⟨.plain, 0, 3⟩, ⟨.plain, 3, 5⟩, ⟨.keyword, 5, 8⟩, ⟨.keyword, 8, 9⟩] := by
  intro calls
  have hchain : (handed calls).IsChain fun x y => y.start = x.stop := by decide
  exact ⟨hchain, lawful_of_isChain calls hchain, by decide⟩

end Emitter

end Highlighter
