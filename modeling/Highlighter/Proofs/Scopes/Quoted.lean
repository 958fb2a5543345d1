import Highlighter.Proofs.Reading.Nested
import Highlighter.Proofs.Scopes.Ends
import Highlighter.Proofs.Search.Characters

/-!
Text between quotes, in which a quote is written twice. The scope stays open over every pair of
quotes and is closed by the first quote that is not one of a pair, so what is quoted is one span,
whatever stands in it.
-/

namespace Highlighter

namespace Text

/-- A text with every quote in it written twice. -/
def doubled (cs : List Char) : List Char :=
  cs.flatMap fun c => if c = '\'' then ['\'', '\''] else [c]

theorem doubled_cons_quote (cs : List Char) :
    doubled ('\'' :: cs) = '\'' :: '\'' :: doubled cs := rfl

theorem doubled_cons {c : Char} (hc : c ≠ '\'') (cs : List Char) :
    doubled (c :: cs) = c :: doubled cs := by
  simp [doubled, hc]

/-- Quotes stand in runs of even length, where a run is one that no quote stands in front of and none
behind. -/
def QuotesPaired (cs : List Char) : Prop :=
  ∀ (n : Nat) (before after : List Char), cs = before ++ List.replicate n '\'' ++ after →
    before.getLast? ≠ some '\'' → after.head? ≠ some '\'' → 2 ∣ n

theorem QuotesPaired.tail {c : Char} {cs : List Char} (h : QuotesPaired (c :: cs)) (hc : c ≠ '\'') :
    QuotesPaired cs := by
  rintro n before after rfl hbefore hafter
  refine h n (c :: before) after rfl ?_ hafter
  cases before with
  | nil => simpa using hc
  | cons d before => simpa using hbefore

theorem QuotesPaired.behind {cs : List Char} (h : QuotesPaired ('\'' :: cs)) :
    ∃ rest, cs = '\'' :: rest ∧ QuotesPaired rest := by
  have hfirst : cs.head? = some '\'' := by
    by_contra hne
    exact absurd (h 1 [] cs rfl (by simp) hne) (by decide)
  obtain ⟨rest, rfl⟩ := List.head?_eq_some_iff.1 hfirst
  refine ⟨rest, rfl, ?_⟩
  rintro n before after rfl hbefore hafter
  cases before with
  | nil =>
    have heven := h (n + 2) [] after (by simp [List.replicate_succ]) (by simp) hafter
    omega
  | cons d before => exact h n ('\'' :: '\'' :: d :: before) after rfl (by simpa using hbefore) hafter

/-- Where quotes stand in pairs, the text is some text with its quotes written twice. -/
theorem QuotesPaired.exists_doubled {cs : List Char} (h : QuotesPaired cs) :
    ∃ content, cs = doubled content := by
  match cs with
  | [] => exact ⟨[], rfl⟩
  | c :: cs =>
    by_cases hc : c = '\''
    · subst hc
      obtain ⟨rest, rfl, hrest⟩ := h.behind
      obtain ⟨content, rfl⟩ := hrest.exists_doubled
      exact ⟨'\'' :: content, rfl⟩
    · obtain ⟨content, rfl⟩ := (h.tail hc).exists_doubled
      exact ⟨c :: content, (doubled_cons hc content).symm⟩
termination_by cs.length

theorem QuotesPaired.cons {c : Char} {cs : List Char} (h : QuotesPaired cs) (hc : c ≠ '\'') :
    QuotesPaired (c :: cs) := by
  intro n before after heq hbefore hafter
  cases before with
  | nil =>
    cases n with
    | zero => exact Nat.dvd_zero 2
    | succ n => exact absurd (List.cons.inj heq).1 hc
  | cons d before =>
    refine h n before after (List.cons.inj heq).2 (fun hlast => hbefore ?_) hafter
    rw [List.getLast?_cons, hlast]
    rfl

theorem QuotesPaired.cons_pair {cs : List Char} (h : QuotesPaired cs) :
    QuotesPaired ('\'' :: '\'' :: cs) := by
  intro n before after heq hbefore hafter
  match before, n with
  | [], 0 => exact Nat.dvd_zero 2
  | [], 1 =>
    have hrest : '\'' :: cs = after := (List.cons.inj heq).2
    rw [← hrest] at hafter
    exact absurd rfl hafter
  | [], n + 2 =>
    have heven := h n [] after (List.cons.inj (List.cons.inj heq).2).2 (by simp) hafter
    omega
  | [d], _ =>
    rw [← (List.cons.inj heq).1] at hbefore
    exact absurd rfl hbefore
  | d :: e :: before, n =>
    have hrest := List.cons.inj (List.cons.inj heq).2
    refine h n before after hrest.2 (fun hlast => hbefore ?_) hafter
    rw [List.getLast?_cons, List.getLast?_cons, hlast]
    rfl

theorem quotesPaired_doubled (content : List Char) : QuotesPaired (doubled content) := by
  induction content with
  | nil =>
    intro n before after heq _ _
    have hlength := congrArg List.length heq
    simp only [doubled, List.flatMap_nil, List.length_nil, List.length_append, List.length_replicate]
      at hlength
    obtain rfl : n = 0 := by omega
    exact Nat.dvd_zero 2
  | cons c content ih =>
    by_cases hc : c = '\''
    · subst hc
      exact ih.cons_pair
    · rw [doubled_cons hc]
      exact ih.cons hc

/-- Quotes stand in pairs just where each of them has been written twice. -/
theorem quotesPaired_iff {cs : List Char} : QuotesPaired cs ↔ ∃ content, cs = doubled content := by
  refine ⟨QuotesPaired.exists_doubled, ?_⟩
  rintro ⟨content, rfl⟩
  exact quotesPaired_doubled content

end Text

/-- What is left of a text from a position on. -/
structure Haystack.Reads (h : Haystack) (p : Nat) (cs : List Char) : Prop where
  chars : ∀ i : Nat, h.char? (p + i) = cs[i]?
  length : p + cs.length = h.stop

namespace Haystack.Reads

variable {h : Haystack} {p : Nat} {c : Char} {cs others : List Char}

theorem head? (reads : h.Reads p cs) : h.char? p = cs.head? := by
  rw [List.head?_eq_getElem?]
  exact reads.chars 0

theorem tail (reads : h.Reads p (c :: cs)) : h.Reads (p + 1) cs where
  chars i := by
    rw [Nat.add_assoc, Nat.add_comm 1 i]
    exact reads.chars (i + 1)
  length := by
    have := reads.length
    rw [List.length_cons] at this
    omega

theorem behind (reads : h.Reads p (cs ++ others)) : h.Reads (p + cs.length) others := by
  induction cs generalizing p with
  | nil => exact reads
  | cons c cs ih =>
    rw [List.length_cons, Nat.add_comm cs.length, ← Nat.add_assoc]
    exact ih reads.tail

end Haystack.Reads

/-- What is looked for between quotes: two of them, and behind that one. -/
def Alternative.quotes : List Alternative := [⟨"''", true, .rule 0⟩, ⟨"'", true, .closing⟩]

/-- What is found at a position between quotes: two of them, or one that is alone. -/
def Haystack.quoteAt? (h : Haystack) (q : Nat) : Option (Hit × Nat) :=
  if h.char? q = some '\'' then
    some (if h.char? (q + 1) = some '\'' then (.rule 0, q + 2) else (.closing, q + 1))
  else none

/-- A rule for text between quotes. A quote in it is written twice. -/
structure Rule.Quotes (rule : Rule) : Prop where
  kind : rule.kind = some .string
  ending : rule.ending = .pattern "'"
  language : rule.language = none
  openingOutside : rule.openingOutside = false
  closingOutside : rule.closingOutside = false
  inner : ∃ pair : Rule, rule.inner = [pair] ∧ pair.kind = none ∧ pair.ending = .single
  scanner : Scanner.build? Alternative.quotes = some rule.scanner

namespace Rule.Quotes

variable {rule : Rule} (quotes : rule.Quotes)

include quotes

theorem opensScope : rule.opensScope = true := by
  simp [Rule.opensScope, quotes.ending]

/-- Between quotes nothing but quotes is found. -/
theorem find?_eq (h : Haystack) (p : Nat) :
    rule.scanner.find? h p =
      (h.first? h.quoteAt? p).map fun (start, hit, stop) => (hit, start, stop) := by
  have hwhole : ∀ a ∈ Alternative.quotes, a.IsWhole := fun a ha =>
    Alternative.isWhole_of_joins (List.all_eq_true.1
      (show Alternative.quotes.all Alternative.joins = true by decide +kernel) a ha)
  have hpair : Alternative.regex ⟨"''", true, .rule 0⟩ =
      .seq (.char (.one '\'')) (.char (.one '\'')) := by decide +kernel
  have hone : Alternative.regex ⟨"'", true, .closing⟩ = .char (.one '\'') := by decide +kernel
  rw [Scanner.find?_eq_first? quotes.scanner hwhole]
  congr 2
  funext q
  simp only [Haystack.quoteAt?, Scanner.foundAt?, Alternative.quotes, List.findSome?_cons,
    List.findSome?_nil, hpair, hone, Regex.endAt?_chars, Regex.endAt?_char, Bool.and_eq_true,
    Regex.CharSet.hasAt_one]
  by_cases hq : h.char? q = some '\''
  · by_cases hnext : h.char? (q + 1) = some '\'' <;> simp [hq, hnext]
  · simp [hq]

end Rule.Quotes

/-- Text that goes on where text of its kind ends joins it. -/
theorem Emitter.text_join {kind : Kind} {a b c : Nat} (ready : List Span) (hle : b ≤ c) :
    (⟨some ⟨kind, a, b⟩, ready⟩ : Emitter).text kind b c = ⟨some ⟨kind, a, c⟩, ready⟩ := by
  unfold Emitter.text
  split
  · obtain rfl : b = c := by omega
    rfl
  · simp

namespace Scan

/-- A scope between quotes. -/
structure Frame.Quotes (frame : Frame) : Prop where
  rule : frame.rule.Quotes
  kind : frame.kind = .string
  close : frame.close = none

namespace State

/-- The text from its beginning up to a position is an opening quote and what is quoted, and what has
been collected of it is one span. There are no quotes between where the search goes on and the
position. -/
structure InQuotes (ctx : Context) (frame : Frame) (s : State) (p : Nat) : Prop where
  going : s.done = false
  stack : s.stack = [frame]
  gap : s.gap = s.cursor
  cursor_le : s.cursor ≤ p
  clear : ∀ q, s.cursor ≤ q → q < p → ctx.haystack.char? q ≠ some '\''
  emitter : s.emitter = ⟨some ⟨.string, 0, s.cursor⟩, []⟩
  flags : s.outcome.flags = ⟨false, false, false⟩

namespace InQuotes

variable {ctx : Context} {frame : Frame} {s : State} {p : Nat} (inside : InQuotes ctx frame s p)
  (quotes : frame.Quotes)

include inside

theorem pass (other : ctx.haystack.char? p ≠ some '\'') : InQuotes ctx frame s (p + 1) :=
  { inside with
    cursor_le := Nat.le_succ_of_le inside.cursor_le
    clear := fun q hle hlt => by
      rcases Nat.lt_succ_iff_lt_or_eq.1 hlt with hlt | rfl
      · exact inside.clear q hle hlt
      · exact other }

include quotes

theorem nextHit?_eq : s.nextHit? ctx = frame.rule.scanner.find? ctx.haystack s.cursor := by
  unfold nextHit?
  rw [inside.stack]
  simp only [Frame.literalHit?, quotes.close, Option.bind_none]

/-- The next quote comes next. -/
theorem nextHit?_of_quote (quote : ctx.haystack.char? p = some '\'') :
    s.nextHit? ctx = if ctx.haystack.char? (p + 1) = some '\'' then some (.rule 0, p, p + 2)
      else some (.closing, p, p + 1) := by
  have hlt := Haystack.lt_stop_of_char? quote
  have hnone : ∀ r, s.cursor ≤ r → r < p → ctx.haystack.quoteAt? r = none :=
    fun r hle hlt => if_neg (inside.clear r hle hlt)
  rw [inside.nextHit?_eq quotes, quotes.rule.find?_eq,
    Haystack.first?_eq_some_iff.2 ⟨inside.cursor_le, Nat.le_of_lt hlt, if_pos quote, hnone⟩]
  split <;> rfl

/-- Without a quote nothing comes next. -/
theorem nextHit?_of_end (hend : p = ctx.stop) : s.nextHit? ctx = none := by
  rw [inside.nextHit?_eq quotes, quotes.rule.find?_eq, Haystack.first?_eq_none.2, Option.map_none]
  intro q hle hstop
  refine if_neg fun hquote => ?_
  have hlt := Haystack.lt_stop_of_char? hquote
  exact inside.clear q hle (hend ▸ hlt) hquote

theorem kind_eq : s.kind = .string := by
  unfold State.kind
  rw [inside.stack]
  exact quotes.kind

/-- What has been passed over is collected as text of the scope. -/
theorem emitter_flushGap :
    (s.flushGap ctx p).emitter = ⟨some ⟨.string, 0, p⟩, []⟩ := by
  rw [flushGap_inside inside.stack, State.text, quotes.kind, inside.gap, inside.emitter]
  exact Emitter.text_join [] inside.cursor_le

/-- Over a pair of quotes the scope stays open. -/
theorem step_of_pair (quote : ctx.haystack.char? p = some '\'')
    (next : ctx.haystack.char? (p + 1) = some '\'') :
    InQuotes ctx frame (s.takeStep ctx) (p + 2) := by
  obtain ⟨pair, hinner, hkind, hending⟩ := quotes.rule.inner
  have hhit := inside.nextHit?_of_quote quotes quote
  rw [if_pos next] at hhit
  have hfound : (s.rules ctx)[0]? = some pair := by
    unfold rules
    rw [inside.stack]
    simp only [hinner, List.getElem?_cons_zero]
  have hstep : s.takeStep ctx = (s.arrive ctx pair p).takeSingle pair p (p + 2) :=
    steps_iff.1 (.rule hhit hfound (.single (by omega) (by simp [Rule.opensScope, hending])))
  have hcourse : (s.takeStep ctx).toCourse = ⟨p + 2, p + 2, [frame], false⟩ := by
    rw [hstep, toCourse_takeSingle, stack_arrive, done_arrive, inside.stack, inside.going]
  have hemitter : (s.takeStep ctx).emitter = ⟨some ⟨.string, 0, p + 2⟩, []⟩ := by
    have harrive : (s.arrive ctx pair p).emitter = ⟨some ⟨.string, 0, p⟩, []⟩ :=
      inside.emitter_flushGap quotes
    have hkind' : (s.arrive ctx pair p).kind = .string := by
      unfold State.kind
      rw [stack_arrive]
      exact inside.kind_eq quotes
    rw [hstep, takeSingle, hkind]
    simp only [advance, State.text, hkind', harrive]
    exact Emitter.text_join [] (by omega)
  have hflags : (s.takeStep ctx).outcome.flags = ⟨false, false, false⟩ := by
    rw [hstep, flags_takeSingle, flags_arrive, inside.flags]
  exact ⟨by rw [hcourse], by rw [hcourse], by rw [hcourse], by rw [hcourse],
    fun q hle hlt => by rw [hcourse] at hle; simp only at hle; omega, by rw [hemitter, hcourse], hflags⟩

/-- A quote that is alone closes the scope. -/
theorem step_of_quote (quote : ctx.haystack.char? p = some '\'')
    (alone : ctx.haystack.char? (p + 1) ≠ some '\'') :
    (s.takeStep ctx).toCourse = ⟨p + 1, p + 1, [], false⟩ ∧
      (s.takeStep ctx).emitter = ⟨none, [⟨.string, 0, p + 1⟩]⟩ ∧
      (s.takeStep ctx).outcome.flags = ⟨false, false, false⟩ := by
  have hhit := inside.nextHit?_of_quote quotes quote
  rw [if_neg alone] at hhit
  have hstep : s.takeStep ctx = s.closeScope ctx p (p + 1) := steps_iff.1 (.close hhit)
  have hflush := inside.emitter_flushGap quotes
  refine ⟨?_, ?_, ?_⟩
  · rw [hstep, toCourse_closeScope ctx inside.stack, inside.going]
  · rw [hstep]
    unfold closeScope
    simp only [stack_flushGap, inside.stack, quotes.rule.closingOutside, quotes.rule.kind,
      Bool.false_eq_true, ↓reduceIte, Option.isSome_some]
    change ((s.flushGap ctx p).emitter.text frame.kind p (p + 1)).flush = _
    rw [hflush, quotes.kind, Emitter.text_join [] (Nat.le_succ p)]
    rfl
  · rw [hstep, flags_closeScope, inside.flags]

/-- At the end of the text the scope is left open. -/
theorem step_of_end (hend : p = ctx.stop) :
    (s.takeStep ctx).done = true ∧ (s.takeStep ctx).emitter = ⟨none, [⟨.string, 0, p⟩]⟩ ∧
      (s.takeStep ctx).outcome.incomplete = true := by
  have hstep : s.takeStep ctx = s.finish ctx :=
    steps_iff.1 (.ended (inside.nextHit?_of_end quotes hend))
  have hflush := inside.emitter_flushGap quotes
  rw [hend] at hflush
  refine ⟨by rw [hstep, done_finish], ?_, ?_⟩
  · rw [hstep, emitter_finish inside.going, hflush, hend]
    rfl
  · have hincomplete : (s.finish ctx).outcome.incomplete =
        (s.outcome.incomplete || !s.stack.isEmpty) :=
      congrArg Flags.incomplete (flags_finish inside.going)
    rw [hstep, hincomplete, inside.stack]
    simp

/-- The search goes over all that is quoted, and the scope is open behind it. -/
theorem exists_run {content rest : List Char}
    (reads : ctx.haystack.Reads p (Text.doubled content ++ rest)) :
    ∃ t, InQuotes ctx frame t (p + (Text.doubled content).length) ∧
      s.drain ctx ctx.inside #[] = t.drain ctx ctx.inside #[] := by
  induction content generalizing s p with
  | nil => exact ⟨s, inside, rfl⟩
  | cons c content ih =>
    by_cases hc : c = '\''
    · subst hc
      rw [Text.doubled_cons_quote] at reads ⊢
      obtain ⟨t, ht, hdrain⟩ := ih (inside.step_of_pair quotes reads.head? reads.tail.head?)
        reads.tail.tail
      refine ⟨t, ?_, ?_⟩
      · rwa [List.length_cons, List.length_cons, show p + ((Text.doubled content).length + 1 + 1) =
          p + 2 + (Text.doubled content).length by omega]
      · rw [← hdrain]
        exact drain_takeStep (by rw [inside.emitter]; rfl) inside.going
    · rw [Text.doubled_cons hc] at reads ⊢
      obtain ⟨t, ht, hdrain⟩ := ih (inside.pass (by rw [reads.head?]; simpa using hc)) reads.tail
      refine ⟨t, ?_, hdrain⟩
      rwa [List.length_cons, show p + ((Text.doubled content).length + 1) =
          p + 1 + (Text.doubled content).length by omega]

end InQuotes

/-- At the end of the region, with nothing open and everything collected, a step ends the region and
changes nothing else. -/
theorem takeStep_of_end {ctx : Context} {s : State}
    (hcourse : s.toCourse = ⟨ctx.stop, ctx.stop, [], false⟩) :
    (s.takeStep ctx).done = true ∧ (s.takeStep ctx).emitter = s.emitter.flush ∧
      (s.takeStep ctx).outcome.flags = s.outcome.flags := by
  have hfinish : ∀ t : State, t.toCourse = s.toCourse → t.emitter = s.emitter →
      t.outcome = s.outcome → (t.finish ctx).done = true ∧
        (t.finish ctx).emitter = s.emitter.flush ∧ (t.finish ctx).outcome.flags = s.outcome.flags := by
    intro t hsame hemitter houtcome
    have going : t.done = false := by rw [hsame, hcourse]
    have hgap : ctx.stop ≤ t.gap := by rw [hsame, hcourse]
    refine ⟨done_finish ctx t, ?_, ?_⟩
    · rw [emitter_finish going, flushGap_of_le hgap, hemitter]
    · rw [flags_finish going, hsame, hcourse, houtcome]
      simp [Outcome.flags]
  rcases takeStep_of_cursor (show s.cursor = ctx.stop by rw [hcourse]) with
    hstep | ⟨event, hstep⟩ | ⟨start, stop, hit, -⟩
  · rw [hstep]
    exact hfinish s rfl rfl rfl
  · rw [hstep]
    exact hfinish (s.record event) rfl rfl rfl
  · exact absurd (by rw [hcourse]) (opened_of_closing hit)

section Opening

variable {ctx : Context} {rule : Rule} (quotes : rule.Quotes)
  (opens : (start 0).Opens ctx rule 0 1)

include quotes

theorem quotes_frame : ((start 0).frame ctx rule 0 1).Quotes where
  rule := quotes
  kind := by simp [frame, quotes.kind]
  close := by simp [frame, quotes.ending]

include opens

theorem inQuotes_start :
    InQuotes ctx ((start 0).frame ctx rule 0 1) ((start 0).takeStep ctx) 1 := by
  have hcourse := (start 0).toCourse_entered ctx rule 0 1
  have hemitter : ((start 0).entered ctx rule 0 1).emitter = ⟨some ⟨.string, 0, 1⟩, []⟩ := by
    unfold entered openScope
    simp only [quotes.openingOutside, quotes.kind, Option.isSome_some, Bool.false_eq_true, ↓reduceIte]
    change Emitter.text ⟨none, []⟩ ((((start 0).arrive ctx rule 0)).frame ctx rule 0 1).kind 0 1 = _
    simp [frame, quotes.kind, Emitter.text]
  rw [opens.takeStep_of_own quotes.language]
  refine ⟨by rw [hcourse]; rfl, by rw [hcourse]; rfl, by rw [hcourse], by rw [hcourse],
    fun q hle hlt => ?_, by rw [hemitter, hcourse], ?_⟩
  · rw [hcourse] at hle
    simp only at hle
    omega
  · rw [entered, flags_openScope, flags_arrive]
    rfl

/-- What is quoted comes first. If there is nothing behind it, it is all there is. -/
theorem drain_of_quoted {content rest : List Char}
    (reads : ctx.haystack.Reads 1 (Text.doubled content ++ '\'' :: rest))
    (apart : rest.head? ≠ some '\'') :
    ∃ spans last, (start 0).drain ctx ctx.inside #[] =
        (#[⟨.string, 0, (Text.doubled content).length + 2⟩] ++ spans, last) ∧
      (rest = [] → spans = #[] ∧ last.outcome.flags = ⟨false, false, false⟩) := by
  have hquotes : ((start 0).frame ctx rule 0 1).Quotes := quotes_frame quotes
  have hopened : (start 0).drain ctx ctx.inside #[] =
      ((start 0).takeStep ctx).drain ctx ctx.inside #[] := drain_takeStep rfl rfl
  obtain ⟨s, inside, hrun⟩ := (inQuotes_start quotes opens).exists_run hquotes reads
  have hreads := reads.behind
  obtain ⟨hcourse, hemitter, hflags⟩ :=
    inside.step_of_quote hquotes hreads.head? (by rw [hreads.tail.head?]; exact apart)
  have hclosed : s.drain ctx ctx.inside #[] = (s.takeStep ctx).drain ctx ctx.inside #[] :=
    drain_takeStep (by rw [inside.emitter]; rfl) inside.going
  have hdone : (s.takeStep ctx).done = false := by rw [hcourse]
  have hlength : 1 + (Text.doubled content).length + 1 = (Text.doubled content).length + 2 := by omega
  rw [hlength] at hcourse hemitter
  let t := (s.takeStep ctx).emptied.takeStep ctx
  refine ⟨(t.drain ctx ctx.inside #[]).1, (t.drain ctx ctx.inside #[]).2, ?_, fun hnil => ?_⟩
  · rw [hopened, hrun, hclosed, drain_of_going ctx.inside #[] hdone, hemitter, ← drain_append]
    rfl
  · have hstop := hreads.tail.length
    rw [hnil, List.length_nil, Nat.add_zero, hlength] at hstop
    rw [hstop] at hcourse
    have hempty : (s.takeStep ctx).emptied.emitter = ⟨none, []⟩ := by
      simp only [emptied, hemitter]
    obtain ⟨hends, hnothing, hsame⟩ := takeStep_of_end (s := (s.takeStep ctx).emptied) hcourse
    rw [drain_of_done ctx.inside #[] hends]
    refine ⟨?_, hsame.trans hflags⟩
    rw [hnothing, hempty]
    rfl

/-- Where only pairs of quotes follow, all of the text is one span, and it is left open. -/
theorem drain_of_unclosed {content : List Char}
    (reads : ctx.haystack.Reads 1 (Text.doubled content)) :
    ∃ last, (start 0).drain ctx ctx.inside #[] = (#[⟨.string, 0, ctx.stop⟩], last) ∧
      last.outcome.incomplete = true := by
  have hquotes : ((start 0).frame ctx rule 0 1).Quotes := quotes_frame quotes
  have hopened : (start 0).drain ctx ctx.inside #[] =
      ((start 0).takeStep ctx).drain ctx ctx.inside #[] := drain_takeStep rfl rfl
  obtain ⟨s, inside, hrun⟩ :=
    (inQuotes_start quotes opens).exists_run hquotes (by rwa [List.append_nil])
  obtain ⟨hdone, hemitter, hincomplete⟩ := inside.step_of_end hquotes reads.length
  have hended : s.drain ctx ctx.inside #[] = (s.takeStep ctx).drain ctx ctx.inside #[] :=
    drain_takeStep (by rw [inside.emitter]; rfl) inside.going
  rw [reads.length] at hemitter
  refine ⟨(s.takeStep ctx).emptied, ?_, hincomplete⟩
  rw [hopened, hrun, hended, drain_of_done ctx.inside #[] hdone, hemitter]
  rfl

end Opening

end State

end Scan

end Highlighter
