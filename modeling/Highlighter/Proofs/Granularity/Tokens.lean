import Highlighter.Proofs.Granularity.Story

/-!
How the tokens of a text are cut. Spans count characters and tokens count bytes, and what holds of
the one holds of the other: each byte is in one character, and text is cut between characters only.
-/

namespace Highlighter

/-- A span of a text, counted in bytes. -/
def Span.inBytes (source : Source) (span : Span) : Span :=
  ⟨span.kind, source.byte span.start, source.byte span.stop⟩

/-- The range and the kind of a token. -/
def Token.span (t : Token) : Span := ⟨t.kind, t.start, t.stop⟩

namespace Source

/-- A byte is in a character. -/
structure InChar (source : Source) (p b : Nat) : Prop where
  lt_size : p < source.size
  byte_le : source.byte p ≤ b
  lt_byte : b < source.byte (p + 1)

variable {source : Source} {p b x : Nat}

theorem byte_zero (source : Source) : source.byte 0 = 0 := by
  rw [source.byte_eq (Nat.zero_le _), source.slice_self]
  rfl

theorem byte_mono (h : x ≤ p) (hp : p ≤ source.size) : source.byte x ≤ source.byte p := by
  rcases Nat.lt_or_eq_of_le h with hlt | rfl
  · exact Nat.le_of_lt (source.byte_lt_byte hlt hp)
  · exact Nat.le_refl _

theorem exists_inChar (h : b < source.byte source.size) : ∃ p, source.InChar p b := by
  have hsearch : ∀ n ≤ source.size, b < source.byte n → ∃ p, source.InChar p b := by
    intro n
    induction n with
    | zero => simp [byte_zero]
    | succ n ih =>
      intro hn hlt
      rcases Nat.lt_or_ge b (source.byte n) with hless | hge
      · exact ih (Nat.le_of_succ_le hn) hless
      · exact ⟨n, hn, hge, hlt⟩
  exact hsearch _ (Nat.le_refl _) h

theorem InChar.byte_le_iff (h : source.InChar p b) (hx : x ≤ source.size) :
    source.byte x ≤ b ↔ x ≤ p := by
  constructor
  · intro hle
    refine Nat.le_of_not_lt fun hlt => ?_
    exact Nat.not_lt.2 (Nat.le_trans (byte_mono hlt hx) hle) h.lt_byte
  · intro hle
    exact Nat.le_trans (byte_mono hle (Nat.le_of_lt h.lt_size)) h.byte_le

theorem InChar.lt_byte_iff (h : source.InChar p b) (hx : x ≤ source.size) :
    b < source.byte x ↔ p < x := by
  have := h.byte_le_iff hx
  omega

theorem byte_lt_byte_iff (hx : x ≤ source.size) (hp : p ≤ source.size) :
    source.byte x < source.byte p ↔ x < p :=
  ⟨fun h => Nat.lt_of_not_le fun hle => Nat.not_lt.2 (byte_mono hle hx) h,
    fun h => source.byte_lt_byte h hp⟩

theorem byte_inj (hx : x ≤ source.size) (hp : p ≤ source.size) :
    source.byte x = source.byte p ↔ x = p := by
  have := byte_lt_byte_iff hx hp
  have := byte_lt_byte_iff hp hx
  omega

/-- Among some positions are the same ones in bytes. -/
theorem byte_mem_map {positions : List Nat} (bounded : ∀ q ∈ positions, q ≤ source.size)
    (hp : p ≤ source.size) : source.byte p ∈ positions.map source.byte ↔ p ∈ positions := by
  refine ⟨fun h => ?_, fun h => List.mem_map_of_mem h⟩
  obtain ⟨q, hq, heq⟩ := List.mem_map.1 h
  exact (byte_inj (bounded q hq) hp).1 heq ▸ hq

/-- Inside of a character there is no position. -/
theorem InChar.not_mem_map (h : source.InChar p b) (inside : source.byte p < b)
    {positions : List Nat} (bounded : ∀ q ∈ positions, q ≤ source.size) :
    b ∉ positions.map source.byte := by
  intro hmem
  obtain ⟨q, hq, rfl⟩ := List.mem_map.1 hmem
  have hle := (h.byte_le_iff (bounded q hq)).1 (Nat.le_refl _)
  exact Nat.not_lt.2 (byte_mono hle (Nat.le_of_lt h.lt_size)) inside

end Source

/-- A tiling in characters is one in bytes. -/
theorem tiles_inBytes {source : Source} {spans : List Span} {a b : Nat} (h : Tiles spans a b)
    (hb : b ≤ source.size) :
    Tiles (spans.map (Span.inBytes source)) (source.byte a) (source.byte b) := by
  induction spans generalizing a with
  | nil => exact congrArg source.byte h
  | cons span spans ih =>
    obtain ⟨rfl, hlt, hrest⟩ := h
    exact ⟨rfl, source.byte_lt_byte hlt (Nat.le_trans (le_of_tiles hrest) hb), ih hrest⟩

namespace Scan

namespace Incident

/-- Something that happened, counted in bytes. -/
def inBytes (source : Source) : Incident → Incident
  | opened rule start stop => opened rule (source.byte start) (source.byte stop)
  | closed rule start stop => closed rule (source.byte start) (source.byte stop)
  | single rule start stop => single rule (source.byte start) (source.byte stop)
  | keyword kind start stop => keyword kind (source.byte start) (source.byte stop)
  | illegal start stop => illegal (source.byte start) (source.byte stop)

variable {source : Source}

theorem scopeStart_byte (rule : Rule) (start stop : Nat) :
    rule.scopeStart (source.byte start) (source.byte stop) =
      source.byte (rule.scopeStart start stop) := by
  unfold Rule.scopeStart
  split <;> rfl

theorem scopeStop_byte (rule : Rule) (start stop : Nat) :
    rule.scopeStop (source.byte start) (source.byte stop) =
      source.byte (rule.scopeStop start stop) := by
  unfold Rule.scopeStop
  split <;> rfl

theorem atom?_inBytes (i : Incident) :
    (i.inBytes source).atom? = i.atom?.map (Span.inBytes source) := by
  cases i with
  | single rule start stop => cases hk : rule.kind <;> simp [inBytes, atom?, hk, Span.inBytes]
  | _ => rfl

theorem scopeEdge?_inBytes (i : Incident) :
    (i.inBytes source).scopeEdge? = i.scopeEdge?.map source.byte := by
  cases i with
  | opened rule start stop =>
    cases hk : rule.kind <;> simp [inBytes, scopeEdge?, hk, scopeStart_byte]
  | closed rule start stop =>
    cases hk : rule.kind <;> simp [inBytes, scopeEdge?, hk, scopeStop_byte]
  | _ => rfl

theorem atoms_inBytes (incidents : List Incident) :
    atoms (incidents.map (inBytes source)) = (atoms incidents).map (Span.inBytes source) := by
  unfold atoms
  rw [List.filterMap_map, List.map_filterMap]
  exact congrArg (List.filterMap · incidents) (funext atom?_inBytes)

theorem cuts_inBytes (incidents : List Incident) :
    cuts (incidents.map (inBytes source)) = (cuts incidents).map source.byte := by
  have hedges : (incidents.map (inBytes source)).filterMap scopeEdge? =
      (incidents.filterMap scopeEdge?).map source.byte := by
    rw [List.filterMap_map, List.map_filterMap]
    exact congrArg (List.filterMap · incidents) (funext scopeEdge?_inBytes)
  unfold cuts
  rw [atoms_inBytes, hedges, List.map_append, List.flatMap_map, List.map_flatMap]
  rfl

/-- At a byte those scopes are open that are open at its character. -/
theorem openAt_inBytes {p b : Nat} (hp : source.InChar p b) {incidents : List Incident} {a : Nat}
    (h : Ordered incidents a source.size) (stack : List Rule) :
    openAt b stack (incidents.map (inBytes source)) = openAt p stack incidents := by
  induction incidents generalizing a stack with
  | nil => rfl
  | cons i rest ih =>
    obtain ⟨-, hle, -, hrest⟩ := h
    have hsize := hrest.le
    rw [List.map_cons, openAt_cons, openAt_cons p]
    have hone : openAt b stack [i.inBytes source] = openAt p stack [i] := by
      cases i with
      | opened rule start stop =>
        have hbound : rule.scopeStart start stop ≤ stop := rule.scopeStart_le hle
        simp only [openAt, inBytes, scopeStart_byte, hp.byte_le_iff (Nat.le_trans hbound hsize)]
      | closed rule start stop =>
        have hbound : rule.scopeStop start stop ≤ stop := rule.scopeStop_le hle
        simp only [openAt, inBytes, scopeStop_byte, hp.byte_le_iff (Nat.le_trans hbound hsize)]
      | _ => rfl
    rw [hone]
    exact ih hrest _

end Incident

/-- What is cut as the incidents ask for in characters is so in bytes. -/
theorem granular_inBytes {source : Source} {incidents : List Incident} {spans : List Span}
    (hordered : Incident.Ordered incidents 0 source.size) (htiles : Tiles spans 0 source.size)
    (h : Granular incidents spans) :
    Granular (incidents.map (Incident.inBytes source)) (spans.map (Span.inBytes source)) where
  atoms := by
    rw [Incident.atoms_inBytes]
    intro _ hmap
    obtain ⟨atom, hatom, rfl⟩ := List.mem_map.1 hmap
    exact List.mem_map_of_mem (h.atoms atom hatom)
  kinds := by
    intro _ hmap b hstart hstop hno
    obtain ⟨span, hspan, rfl⟩ := List.mem_map.1 hmap
    have hbounds := bounds_of_tiles htiles span hspan
    have hsize := source.byte_mono hbounds.2.2 (Nat.le_refl _)
    obtain ⟨p, hp⟩ := source.exists_inChar (Nat.lt_of_lt_of_le hstop hsize)
    rw [Incident.atoms_inBytes] at hno
    rw [Incident.kindAt, Incident.openAt_inBytes hp hordered]
    refine h.kinds span hspan p ((hp.byte_le_iff (by omega)).1 hstart)
      ((hp.lt_byte_iff hbounds.2.2).1 hstop) fun atom hatom hin => ?_
    have hatoms := Incident.bounds_of_atoms hordered atom hatom
    exact hno _ (List.mem_map_of_mem hatom)
      ⟨(hp.byte_le_iff (by omega)).2 hin.1, (hp.lt_byte_iff (by omega)).2 hin.2⟩
  cuts := by
    intro _ hmap _ hmap' b hxb hbx hyb hby hkind
    obtain ⟨x, hx, rfl⟩ := List.mem_map.1 hmap
    obtain ⟨y, hy, rfl⟩ := List.mem_map.1 hmap'
    have hxs := bounds_of_tiles htiles x hx
    have hys := bounds_of_tiles htiles y hy
    obtain ⟨p, hp⟩ := source.exists_inChar
      (Nat.lt_of_lt_of_le hby (source.byte_mono hys.2.2 (Nat.le_refl _)))
    have hsize : p ≤ source.size := Nat.le_of_lt hp.lt_size
    have hstarts : ∀ q ∈ spans.map Span.start, q ≤ source.size :=
      List.forall_mem_map.2 fun span hspan => by
        have := bounds_of_tiles htiles span hspan
        omega
    have hcuts : ∀ q ∈ Incident.cuts incidents, q ≤ source.size := fun q hq =>
      (Incident.bounds_of_cuts hordered q hq).2
    have hbegins : (∃ span ∈ spans.map (Span.inBytes source), span.start = b) ↔
        b ∈ (spans.map Span.start).map source.byte := by
      simp [Span.inBytes]
    rw [Incident.cuts_inBytes, hbegins]
    rcases Nat.eq_or_lt_of_le hp.byte_le with rfl | inside
    · rw [Source.byte_mem_map hstarts hsize, Source.byte_mem_map hcuts hsize, List.mem_map]
      exact h.cuts x hx y hy p ((source.byte_lt_byte_iff (by omega) hsize).1 hxb)
        (Nat.le_of_not_lt fun hlt => Nat.not_lt.2 hbx (source.byte_lt_byte hlt hsize))
        ((hp.byte_le_iff (by omega)).1 hyb) ((hp.lt_byte_iff hys.2.2).1 hby) hkind
    · -- Inside of a character nothing begins and nothing is cut.
      exact iff_of_false (hp.not_mem_map inside hstarts) (hp.not_mem_map inside hcuts)

/-- The tokens of a text cut it as what happens in it asks for, in every grammar in which nothing is
embedded. -/
theorem granular_of_highlight (grammar : Grammar) (language? : String → Option Grammar)
    (maxDepth : Nat) (text : String) (alone : grammar.languages = []) :
    let h := Highlighting.start grammar language? maxDepth text
    let tokens := (grammar.highlight text language? maxDepth).tokens
    Tiles (tokens.map Token.span) 0 text.utf8ByteSize ∧
      Granular ((h.state.story h.ctx).map (Incident.inBytes h.ctx.source))
        (tokens.map Token.span) := by
  intro h tokens
  have hrules : Rule.languagesOf h.ctx.grammar.rules = [] := by
    cases hl : Rule.languagesOf grammar.rules with
    | nil => exact hl
    | cons first rest => simp [Grammar.languages, hl, List.eraseDups_cons] at alone
  have hplaying : h.state.Playing h.ctx :=
    ⟨⟨0, State.covers_start (Nat.zero_le _)⟩, trivial, fun _ hframe => nomatch hframe⟩
  let spans := (h.state.drain h.ctx h.ctx.inside #[]).1.toList
  have htokens : tokens.map Token.span = spans.map (Span.inBytes h.ctx.source) := List.map_map
  have hspans : spans = h.state.drawing h.ctx (h.state.story h.ctx) := by
    simpa using State.spans_drain hrules #[] hplaying
  have htiles : Tiles spans 0 h.ctx.source.size :=
    State.drain_tiles (fun e => region_tiles e.context (Nat.le_of_lt e.start_lt_stop)) #[] 0 h.state
      0 rfl (State.covers_start (Nat.zero_le _))
  have hsize : h.ctx.source.byte h.ctx.source.size = text.utf8ByteSize := by
    rw [h.ctx.source.byte_eq (Nat.le_refl _)]
    exact congrArg String.utf8ByteSize (Source.slice_all text)
  have hbytes := tiles_inBytes htiles (Nat.le_refl _)
  rw [h.ctx.source.byte_zero, hsize, ← htokens] at hbytes
  have hordered := State.ordered_story hrules hplaying
  have hgranular : Granular (h.state.story h.ctx) spans := hspans ▸ granular_of_draw hordered
  exact ⟨hbytes, htokens ▸ granular_inBytes hordered htiles hgranular⟩

end Scan

/-- A bar opens a scope in which letters are matched, and a bar closes it. -/
def Rule.marks : Rule where
  kind := some .string
  opening := "[|]"
  ending := .pattern "[|]"
  closing := some (.char (.one '|'))
  inner := [.letter]
  scanner := ⟨[(some (.rule 0), .char (.range 'a' 'z')), (some .closing, .char (.one '|'))]⟩
  caseless := false
  relevance := 1
  openingOutside := true
  closingOutside := false
  language := none

/-- A small language of letters and of text between bars, without other languages in it. -/
def Grammar.marks : Grammar where
  name := "marks"
  aliases := []
  category := none
  caseless := false
  supersetOf := none
  keywords := ⟨false, [⟨"x", .keyword, 1⟩]⟩
  word := .plus true (.char .word)
  rules := [.marks]
  scanner := ⟨[(some (.rule 0), .char (.one '|'))]⟩
  rules_sound := by
    have hletter : Rule.letter.Sound :=
      .intro (by simp [Rule.letter]) (by simp [Rule.letter, Scanner.hits, Scanner.none])
    intro rule hrule
    cases List.mem_singleton.1 hrule
    exact .intro (by simpa [Rule.marks] using hletter)
      (by simp [Rule.marks, Scanner.hits, Hit.fits])
  hits_fit := by simp [Scanner.hits, Hit.fits]

namespace Scan

/-- So is a text cut that has a word in it and letters between bars. -/
theorem granular_marks :
    let h := Highlighting.start .marks (fun _ => none) 32 "x é|ab|"
    let tokens := (Grammar.marks.highlight "x é|ab|" (fun _ => none) 32).tokens
    Tiles (tokens.map Token.span) 0 "x é|ab|".utf8ByteSize ∧
      Granular ((h.state.story h.ctx).map (Incident.inBytes h.ctx.source))
        (tokens.map Token.span) :=
  granular_of_highlight .marks (fun _ => none) 32 "x é|ab|"
    (by simp [Grammar.languages, Grammar.marks, Rule.languagesOf, Rule.languages, Rule.marks, Rule.letter])

end Scan

end Highlighter
