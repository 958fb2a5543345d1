import Highlighter.Proofs.Scopes.Ends

/-!
Scopes that only the text of their opening closes. Whatever is nested in such a scope or around it,
it is closed where that text stands again, character for character. If there are no rules in it, it
is closed at the first such place behind its opening, and without one it runs to the end of its
region.
-/

namespace Highlighter

theorem toList_extract_cons {chars : Array Char} {p q : Nat} (hp : p < q) (hq : q ≤ chars.size) :
    (chars.extract p q).toList = chars[p] :: (chars.extract (p + 1) q).toList := by
  have hlt : p < chars.toList.length := Nat.lt_of_lt_of_le hp hq
  have hsub : q - p = q - (p + 1) + 1 := by omega
  simp only [Array.toList_extract, List.extract_eq_take_drop]
  rw [List.drop_eq_getElem_cons hlt, hsub, List.take_succ_cons]
  rfl

/-- Characters stand at a position just if the text goes on with them there. -/
theorem Haystack.spelled?_eq_some_iff {h : Haystack} {p q : Nat} {cs : List Char}
    (hsize : h.stop ≤ h.chars.size) (hp : p ≤ h.stop) :
    h.spelled? p cs = some q ↔
      q = p + cs.length ∧ q ≤ h.stop ∧ (h.chars.extract p q).toList = cs := by
  induction cs generalizing p with
  | nil =>
    simp only [spelled?, Option.some.injEq, List.length_nil, Nat.add_zero]
    constructor
    · rintro rfl
      simp [hp]
    · exact fun h => h.1.symm
  | cons c cs ih =>
    rw [spelled?, List.length_cons]
    by_cases hlt : p < h.stop
    · have hchar : h.char? p = some h.chars[p] := by
        rw [char?, if_pos hlt, Array.getElem?_eq_getElem (by omega)]
      by_cases hc : h.chars[p] = c
      · rw [if_pos (hchar.trans (congrArg some hc)), ih hlt]
        constructor
        · rintro ⟨rfl, hq, hcs⟩
          exact ⟨by omega, hq, by rw [toList_extract_cons (by omega) (by omega), hc, hcs]⟩
        · rintro ⟨rfl, hq, hcs⟩
          rw [toList_extract_cons (by omega) (by omega)] at hcs
          exact ⟨by omega, hq, (List.cons.inj hcs).2⟩
      · rw [if_neg (by simpa [hchar] using hc)]
        refine iff_of_false (by simp) ?_
        rintro ⟨rfl, hq, hcs⟩
        rw [toList_extract_cons (by omega) (by omega)] at hcs
        exact hc (List.cons.inj hcs).1
    · rw [if_neg (by simp [char?, hlt])]
      refine iff_of_false (by simp) ?_
      rintro ⟨hq, hle, -⟩
      omega

namespace Scan

theorem Frame.closing?_eq_none_of_le {frame : Frame} {h : Haystack} {p q : Nat}
    (hnone : frame.closing? h p = none) (hle : p ≤ q) : frame.closing? h q = none := by
  rw [frame.closing?_eq_first?, Haystack.first?_eq_none] at hnone ⊢
  exact fun r hr => hnone r (Nat.le_trans hle hr)

/-- Behind its opening, the text of a region goes on at a position with the opening once more. -/
def Context.Repeats (ctx : Context) (start stop p : Nat) : Prop :=
  stop ≤ p ∧ p + (stop - start) ≤ ctx.stop ∧
    ctx.source.slice p (p + (stop - start)) = ctx.source.slice start stop

namespace State

variable {ctx : Context} {s t : State} {rule : Rule} {start stop : Nat}

section Frame

variable (hsize : ctx.stop ≤ ctx.source.size) (hstop : stop ≤ ctx.stop)
  (ending : rule.ending = .asOpened)

theorem close_frame (ending : rule.ending = .asOpened) :
    (s.frame ctx rule start stop).close = some (ctx.source.chars.extract start stop).toList := by
  unfold frame
  rw [ending]

include hsize hstop ending

/-- The end of the scope stands where the text of the opening stands. -/
theorem endAt?_frame {p q : Nat} (hp : p ≤ ctx.stop) :
    (s.frame ctx rule start stop).endAt? ctx.haystack p = some q ↔
      q = p + (stop - start) ∧ q ≤ ctx.stop ∧ ctx.source.slice p q = ctx.source.slice start stop := by
  have hlength : (ctx.source.chars.extract start stop).toList.length = stop - start := by
    rw [Array.length_toList, Array.size_extract,
      Nat.min_eq_left (show stop ≤ ctx.source.chars.size from Nat.le_trans hstop hsize)]
  unfold Frame.endAt?
  rw [close_frame ending]
  simp only
  rw [Haystack.spelled?_eq_some_iff hsize hp, hlength, Source.slice, Source.slice,
    String.ofList_inj]
  rfl

/-- The scope is found to end where the text of the opening first stands again. -/
theorem closing?_frame_eq_some {first last : Nat} :
    (s.frame ctx rule start stop).closing? ctx.haystack stop = some (first, last) ↔
      IsLeast {p | ctx.Repeats start stop p} first ∧ last = first + (stop - start) := by
  have hend := fun {p q : Nat} => @endAt?_frame ctx s rule start stop hsize hstop ending p q
  rw [Frame.closing?_eq_first?, Haystack.first?_eq_some_iff]
  constructor
  · rintro ⟨hle, hfirst, hat, hbefore⟩
    obtain ⟨rfl, hlast, hslice⟩ := (hend hfirst).1 hat
    refine ⟨⟨⟨hle, hlast, hslice⟩, ?_⟩, rfl⟩
    rintro p ⟨hp, hlast', hslice'⟩
    refine Nat.le_of_not_lt fun hlt => ?_
    have hnone := hbefore p hp hlt
    rw [(hend (by omega)).2 ⟨rfl, hlast', hslice'⟩] at hnone
    cases hnone
  · rintro ⟨⟨⟨hle, hlast, hslice⟩, hleast⟩, rfl⟩
    refine ⟨hle, by change first ≤ ctx.stop; omega, (hend (by omega)).2 ⟨rfl, hlast, hslice⟩, ?_⟩
    intro r hr hlt
    refine Option.eq_none_iff_forall_ne_some.2 fun e he => ?_
    obtain ⟨rfl, hlast', hslice'⟩ := (hend (by omega)).1 he
    exact absurd (hleast ⟨hr, hlast', hslice'⟩) (Nat.not_le.2 hlt)

theorem closing?_frame_eq_none :
    (s.frame ctx rule start stop).closing? ctx.haystack stop = none ↔
      ∀ p, ¬ ctx.Repeats start stop p := by
  have hend := fun {p q : Nat} => @endAt?_frame ctx s rule start stop hsize hstop ending p q
  rw [Frame.closing?_eq_first?, Haystack.first?_eq_none]
  constructor
  · rintro hnone p ⟨hp, hlast, hslice⟩
    have hnone := hnone p hp (by change p ≤ ctx.stop; omega)
    rw [(hend (by omega)).2 ⟨rfl, hlast, hslice⟩] at hnone
    cases hnone
  · intro hnone q hq hle
    refine Option.eq_none_iff_forall_ne_some.2 fun e he => ?_
    obtain ⟨rfl, hlast, hslice⟩ := (hend hle).1 he
    exact hnone q ⟨hq, hlast, hslice⟩

end Frame

/-- The scanner of a scope that only a text closes looks for no end, and for nothing at all if there
are no rules in the scope. -/
theorem scanner_of_asOpened (checked : rule.Checked) (ending : rule.ending = .asOpened) :
    .closing ∉ rule.scanner.hits ∧ (rule.inner = [] → rule.scanner = .none) := by
  have hclosers : rule.closers = [] := by
    unfold Rule.closers
    rw [ending]
  have hbuild := checked.scanner (by simp [Rule.opensScope, ending])
  unfold Rule.alternatives at hbuild
  rw [hclosers, List.append_nil] at hbuild
  refine ⟨fun hmem => ?_, fun hinner => ?_⟩
  · obtain ⟨a, ha, hhit⟩ := Scanner.mem_of_build? hbuild hmem
    obtain ⟨i, -, hrule⟩ := Compile.hit_of_mem_openings ha
    rw [hhit] at hrule
    cases hrule
  · rw [hinner] at hbuild
    exact (Option.some.inj hbuild).symm

theorem find?_of_none (h : Haystack) (p : Nat) : Scanner.none.find? h p = none := by
  have hnone : h.first? (Scanner.none.hitAt? h) p = none :=
    Haystack.first?_eq_none.2 fun _ _ _ => rfl
  rw [Scanner.find?, hnone, Option.bind_none]

section Innermost

variable {outer : List Frame} (ending : rule.ending = .asOpened)
  (innermost : t.stack = s.frame ctx rule start stop :: outer)

include ending innermost

theorem nextHit?_innermost :
    t.nextHit? ctx = Candidate.unlessBefore .closing
      ((s.frame ctx rule start stop).closing? ctx.haystack t.cursor)
      (rule.scanner.find? ctx.haystack t.cursor) := by
  rw [nextHit?_eq]
  unfold literal? scanner Frame.closing? Frame.literalHit?
  rw [innermost]
  simp only [List.head?_cons, Option.bind_some, close_frame ending]
  rfl

/-- What closes the scope is the text of its opening, wherever the search has come to. -/
theorem closing?_of_nextHit? (checked : rule.Checked) {first last : Nat}
    (hit : t.nextHit? ctx = some (.closing, first, last)) :
    (s.frame ctx rule start stop).closing? ctx.haystack t.cursor = some (first, last) := by
  have hscanner : ∀ a b, rule.scanner.find? ctx.haystack t.cursor ≠ some (.closing, a, b) := by
    intro a b hfound
    obtain ⟨-, -, -, hmem⟩ := Scanner.find?_eq_some hfound
    exact (scanner_of_asOpened checked ending).1 hmem
  rw [nextHit?_innermost ending innermost] at hit
  generalize (s.frame ctx rule start stop).closing? ctx.haystack t.cursor = own at hit ⊢
  generalize rule.scanner.find? ctx.haystack t.cursor = found at hit hscanner
  unfold Candidate.unlessBefore at hit
  split at hit
  · split at hit
    · exact absurd hit (hscanner first last)
    · cases hit
      rfl
  · cases hit
    rfl
  · exact absurd hit (hscanner first last)

/-- Without rules in the scope nothing else comes next. -/
theorem nextHit?_of_inner_nil (checked : rule.Checked) (hinner : rule.inner = []) :
    t.nextHit? ctx = ((s.frame ctx rule start stop).closing? ctx.haystack t.cursor).map
      fun range => (.closing, range.1, range.2) := by
  rw [nextHit?_innermost ending innermost, (scanner_of_asOpened checked ending).2 hinner,
    find?_of_none]
  cases (s.frame ctx rule start stop).closing? ctx.haystack t.cursor <;> rfl

end Innermost

/-- While a scope without rules in it is open, nothing but spans is taken from the state that its
opening led to. -/
theorem StillOpen.toCourse_eq (checked : rule.Checked) (ending : rule.ending = .asOpened)
    (hinner : rule.inner = []) (still : StillOpen ctx s (s.frame ctx rule start stop) t) :
    t.toCourse = (s.takeStep ctx).toCourse ∧
      (s.takeStep ctx).stack = s.frame ctx rule start stop :: s.stack := by
  induction still with
  | opened opens => exact ⟨rfl, opens⟩
  | take still popped ih => exact ih
  | @step t still going stays ih =>
    have hstack : t.stack = s.frame ctx rule start stop :: s.stack := by rw [ih.1, ih.2]
    have hhit := nextHit?_of_inner_nil ending hstack checked hinner
    exfalso
    cases hclosing : (s.frame ctx rule start stop).closing? ctx.haystack t.cursor with
    | none =>
      rw [hclosing] at hhit
      have hstep : t.takeStep ctx = t.finish ctx := steps_iff.1 (.ended hhit)
      rw [hstep, toCourse_finish going] at stays
      simp at stays
    | some range =>
      rw [hclosing] at hhit
      have hstep : t.takeStep ctx = t.closeScope ctx range.1 range.2 := steps_iff.1 (.close hhit)
      rw [hstep, toCourse_closeScope ctx hstack] at stays
      have hlength := stays.length_le
      simp at hlength

/-- The scope that a step opens runs to the end of the region: nothing comes any more, all text behind
the opening is text of the scope, or of the language that it is in, and the region is incomplete. -/
structure RunsOut (ctx : Context) (s : State) (rule : Rule) (start stop : Nat) : Prop where
  going : (s.takeStep ctx).done = false
  stack : (s.takeStep ctx).stack = s.frame ctx rule start stop :: s.stack
  silent : (s.takeStep ctx).nextHit? ctx = none
  ends : ((s.takeStep ctx).takeStep ctx).done = true
  incomplete : ((s.takeStep ctx).takeStep ctx).outcome.incomplete = true
  text : rule.language = none → ((s.takeStep ctx).takeStep ctx).emitter =
    ((s.takeStep ctx).emitter.text (s.frame ctx rule start stop).kind stop ctx.stop).flush
  body : rule.language.isSome →
    (s.frame ctx rule start stop).bodyStop ctx.haystack stop = ctx.stop ∧
      (s.takeStep ctx).cursor = ctx.stop

/-- A step opens a scope that only the text of its opening closes. -/
structure ClosesAsOpened (ctx : Context) (s : State) (rule : Rule) (start stop : Nat) : Prop where
  /-- What closes it reads like what opened it. -/
  closed : ∀ first last, s.ClosedBy ctx rule start stop first last →
    ctx.source.slice first last = ctx.source.slice start stop
  /-- It is closed like that or not at all. -/
  kept : ∀ t, StillOpen ctx s (s.frame ctx rule start stop) t → t.done = false →
    (t.takeStep ctx).done = true ∨
      StillOpen ctx s (s.frame ctx rule start stop) (t.takeStep ctx) ∨
      (t.takeStep ctx).stack = s.stack ∧ ∃ first last,
        t.nextHit? ctx = some (.closing, first, last) ∧ s.ClosedBy ctx rule start stop first last
  /-- Without rules in it, it is closed at the first place where its opening stands again. -/
  first : rule.inner = [] → ∀ first last, s.ClosedBy ctx rule start stop first last ↔
    IsLeast {p | ctx.Repeats start stop p} first ∧ last = first + (stop - start)
  unclosed : rule.inner = [] → (∀ p, ¬ ctx.Repeats start stop p) → s.RunsOut ctx rule start stop

section Opens

variable (checked : rule.Checked) (ending : rule.ending = .asOpened)
  (opens : s.Opens ctx rule start stop)

include checked ending opens

theorem slice_of_closedBy (hsize : ctx.stop ≤ ctx.source.size) {first last : Nat}
    (closed : s.ClosedBy ctx rule start stop first last) :
    ctx.source.slice first last = ctx.source.slice start stop := by
  obtain ⟨-, -, hstop⟩ := opens.bounds
  suffices hmet : ∃ p, (s.frame ctx rule start stop).closing? ctx.haystack p = some (first, last) by
    obtain ⟨p, hp⟩ := hmet
    rw [Frame.closing?_eq_first?] at hp
    obtain ⟨-, hle, hend, -⟩ := Haystack.first?_eq_some hp
    exact ((endAt?_frame hsize hstop ending hle).1 hend).2.2
  cases closed with
  | body embedded found left => exact ⟨stop, found⟩
  | @later t still _ innermost hit _ =>
    exact ⟨t.cursor, closing?_of_nextHit? ending innermost checked hit⟩

/-- The scope is closed where its end is first found behind its opening. -/
theorem closedBy_iff (going : s.done = false) (hinner : rule.inner = []) {first last : Nat} :
    s.ClosedBy ctx rule start stop first last ↔
      (s.frame ctx rule start stop).closing? ctx.haystack stop = some (first, last) := by
  obtain ⟨-, -, hstop⟩ := opens.bounds
  cases hlanguage : rule.language with
  | none =>
    have hcourse := s.toCourse_entered ctx rule start stop
    rw [← opens.takeStep_of_own hlanguage] at hcourse
    constructor
    · intro closed
      cases closed with
      | body embedded => simp [hlanguage] at embedded
      | @later t still _ innermost hit _ =>
        have hcursor : t.cursor = stop := by
          rw [(still.toCourse_eq checked ending hinner).1, hcourse]
        exact hcursor ▸ closing?_of_nextHit? ending innermost checked hit
    · intro hclosing
      have hstack : (s.takeStep ctx).stack = s.frame ctx rule start stop :: s.stack := by rw [hcourse]
      have hhit := nextHit?_of_inner_nil ending hstack checked hinner
      rw [hcourse, hclosing] at hhit
      have hstep : (s.takeStep ctx).takeStep ctx = (s.takeStep ctx).closeScope ctx first last :=
        steps_iff.1 (.close hhit)
      exact .later (.opened hstack) (by rw [hcourse, going]) hstack hhit
        (by rw [hstep, toCourse_closeScope ctx hstack])
  | some language =>
    have hcourse := opens.toCourse_of_embedded hlanguage
    constructor
    · intro closed
      cases closed with
      | body embedded found => exact found
      | @later t still _ innermost hit _ =>
        obtain ⟨hsame, hstack⟩ := still.toCourse_eq checked ending hinner
        cases hclosing : (s.frame ctx rule start stop).closing? ctx.haystack stop with
        | none =>
          have hend := closing?_of_nextHit? ending innermost checked hit
          rw [hclosing] at hcourse
          rw [hsame, hcourse, Frame.closing?_eq_none_of_le hclosing hstop] at hend
          cases hend
        | some range =>
          rw [hclosing] at hcourse
          rw [hcourse] at hstack
          exact absurd hstack (by simp)
    · intro hclosing
      rw [hclosing] at hcourse
      exact .body (by simp [hlanguage]) hclosing (by rw [hcourse])

/-- Where its end is found nowhere, the scope runs to the end of the region. -/
theorem runsOut (going : s.done = false) (hinner : rule.inner = [])
    (hnone : (s.frame ctx rule start stop).closing? ctx.haystack stop = none) :
    s.RunsOut ctx rule start stop := by
  obtain ⟨-, -, hstop⟩ := opens.bounds
  have hcourse : ∃ position, stop ≤ position ∧
      (rule.language = none → position = stop) ∧ (rule.language.isSome → position = ctx.stop) ∧
      (s.takeStep ctx).toCourse =
        ⟨position, position, s.frame ctx rule start stop :: s.stack, false⟩ := by
    cases hlanguage : rule.language with
    | none =>
      have hcourse := s.toCourse_entered ctx rule start stop
      rw [← opens.takeStep_of_own hlanguage, going] at hcourse
      exact ⟨stop, Nat.le_refl _, by simp, by simp, hcourse⟩
    | some language =>
      have hcourse := opens.toCourse_of_embedded hlanguage
      rw [hnone, going] at hcourse
      exact ⟨ctx.stop, hstop, by simp, by simp, hcourse⟩
  obtain ⟨position, hle, hown, hother, hcourse⟩ := hcourse
  have hstack : (s.takeStep ctx).stack = s.frame ctx rule start stop :: s.stack := by rw [hcourse]
  have hgoing : (s.takeStep ctx).done = false := by rw [hcourse]
  have hsilent : (s.takeStep ctx).nextHit? ctx = none := by
    rw [nextHit?_of_inner_nil ending hstack checked hinner, hcourse,
      Frame.closing?_eq_none_of_le hnone hle]
    rfl
  have hstep : (s.takeStep ctx).takeStep ctx = (s.takeStep ctx).finish ctx :=
    steps_iff.1 (.ended hsilent)
  refine ⟨hgoing, hstack, hsilent, by rw [hstep, done_finish], ?_, fun own => ?_, fun other => ?_⟩
  · rw [incomplete_takeStep hgoing, hstep, done_finish, hstack]
    simp
  · have hgap : (s.takeStep ctx).gap = stop := by rw [hcourse, hown own]
    rw [hstep, emitter_finish hgoing, flushGap_inside hstack, hgap]
    rfl
  · exact ⟨Frame.bodyStop_of_none hnone, by rw [hcourse, hother other]⟩

end Opens

end State

/-- In every state that the highlighting of a text comes to: when a step opens a scope that only the
text of its opening closes, that text alone closes it, in the region of the whole text and in every
region embedded in it. -/
theorem closesAsOpened_of_reached (grammar : Grammar) (language? : String → Option Grammar)
    (maxDepth : Nat) (text : String) {spec : GrammarSpec} {library : Library} {ctx : Context}
    {first : Nat} {s : State}
    (reached : Reached (Highlighting.start grammar language? maxDepth text).ctx ctx first s)
    (compiled : spec.compile library = .ok ctx.grammar) {rule : Rule} {start stop : Nat}
    (opens : s.Opens ctx rule start stop) (ending : rule.ending = .asOpened) :
    s.ClosesAsOpened ctx rule start stop ∧
      (ctx = (Highlighting.start grammar language? maxDepth text).ctx → rule.inner = [] →
        (∀ p, ¬ ctx.Repeats start stop p) →
          (Highlighting.start grammar language? maxDepth text).toHighlight.outcome.incomplete =
            true) := by
  have hplaced := reached.placed
  have hsize := hplaced.stop_le_size
  obtain ⟨index, hit, -⟩ := opens.hit
  obtain ⟨-, -, hstop⟩ := State.nextHit?_bounds hit
  have going : s.done = false := by
    refine Bool.eq_false_iff.2 fun hdone => ?_
    obtain ⟨middle, -, hcovers⟩ := hplaced.covers
    have hend := (hcovers.ended hdone).1
    have := hcovers.gap_le_cursor
    have := hcovers.cursor_le_stop
    exact State.not_opens_of_cursor (by omega) opens
  have hchecked : rule.Checked :=
    Compile.checked_of_compile (Compile.compiles_of_compile compiled).rules
      (opens.belongsTo reached.belongsTo).among
  have hrunsOut : rule.inner = [] → (∀ p, ¬ ctx.Repeats start stop p) →
      s.RunsOut ctx rule start stop := fun hinner hnever =>
    State.runsOut hchecked ending opens going hinner
      ((State.closing?_frame_eq_none hsize hstop ending).2 hnever)
  refine ⟨⟨fun a b => State.slice_of_closedBy hchecked ending opens hsize, ?_, ?_, hrunsOut⟩, ?_⟩
  · intro t still hgoing
    refine (still.next hgoing).imp_right (Or.imp_right ?_)
    rintro ⟨innermost, left, a, b, hclosing⟩
    exact ⟨left, a, b, hclosing, .later still hgoing innermost hclosing left⟩
  · intro hinner a b
    rw [State.closedBy_iff hchecked ending opens going hinner,
      State.closing?_frame_eq_some hsize hstop ending]
  · intro houtermost hinner hnever
    have hruns := hrunsOut hinner hnever
    have hflags := ((reached.step going).step hruns.going).flags_drain (by rw [houtermost]; rfl)
    rw [State.drain_of_done ctx.inside #[] hruns.ends] at hflags
    exact (congrArg Flags.incomplete hflags).symm.trans hruns.incomplete

/-- Between two dashes. -/
theorem closesAsOpened_between_dashes : ∃ g rule,
    (GrammarSpec.dashes [] .dash).compile .standard = .ok g ∧ g.rules = [rule] ∧
    let ctx := (Highlighting.start g (fun _ => none) 32 "-a-").ctx
    (State.start 0).Opens ctx rule 0 1 ∧ rule.inner = [] ∧
      (State.start 0).ClosesAsOpened ctx rule 0 1 := by
  obtain ⟨g, hg, rule, hrules, hrule⟩ := exists_dashes [] .dash rfl (by decide +kernel)
    ⟨rfl, rfl, rfl⟩
  simp only [Prod.mk.injEq] at hrule
  obtain ⟨hopening, hending, hcaseless, hlanguage, hinner⟩ := hrule
  have hroot := Compile.build?_of_rootScanner (Compile.compiles_of_compile hg).scanner
    (show Compile.illegalAlternatives ⟨.dashes [] .dash, .standard⟩ = .ok [] from rfl)
  simp only [hrules, Compile.openings, List.mapIdx_cons, List.mapIdx_nil, hopening, hcaseless,
    List.append_nil] at hroot
  have hfound : (Scanner.build? [⟨"-", false, .rule 0⟩]).map
      (fun s => s.find? ⟨#['-', 'a', '-'], 3⟩ 0) = some (some (.rule 0, 0, 1)) := by cbv
  rw [hroot, Option.map_some, Option.some.injEq] at hfound
  have opens : (State.start 0).Opens (Highlighting.start g (fun _ => none) 32 "-a-").ctx rule 0 1 :=
    State.opens_start hfound (by rw [hrules]; rfl) Nat.zero_lt_one
      (by simp [Rule.opensScope, hending]) (by decide)
  exact ⟨g, rule, hg, hrules, opens, hinner,
    (closesAsOpened_of_reached g (fun _ => none) 32 "-a-" .start hg opens hending).1⟩

end Scan

end Highlighter
