import Highlighter.Scan.Words

/-!
One step of highlighting: find what comes next in the current scope and act on it.

A scope with a kind makes one span of its delimiters, its text and the inner matches that
have no kind; an inner match with a kind splits it. Rules without a kind split nothing.
Empty openings are passed over, and too deeply nested ones are left as text.
-/

namespace Highlighter.Scan

/-- What highlighting an embedded region comes to. -/
structure Inner where
  spans : List Span
  outcome : Outcome
  events : List Event

/-- The first place from a position on where the text that closes a scope stands. -/
def Frame.literalHit? (frame : Frame) (h : Haystack) (position : Nat) : Option (Nat × Nat) :=
  frame.close.bind fun close => h.first? (h.spelled? · close) position

/-- Where a scope ends from a position on, found without regard to its text. -/
def Frame.closing? (frame : Frame) (h : Haystack) (position : Nat) : Option (Nat × Nat) :=
  match frame.close with
  | some _ => frame.literalHit? h position
  | none => frame.rule.closing.bind fun r => r.find? h position

/-- Where the text of a scope that begins at a position ends. -/
def Frame.bodyStop (frame : Frame) (h : Haystack) (position : Nat) : Nat :=
  ((frame.closing? h position).map Prod.fst).getD h.stop

theorem Frame.literalHit?_bounds {frame : Frame} {h : Haystack} {p start stop : Nat}
    (hl : frame.literalHit? h p = some (start, stop)) :
    p ≤ start ∧ start ≤ stop ∧ stop ≤ h.stop := by
  obtain ⟨close, _, hf⟩ := Option.bind_eq_some_iff.1 hl
  obtain ⟨hle, hstop, hs, _⟩ := Haystack.first?_eq_some hf
  obtain ⟨hlen, hin⟩ := Haystack.spelled?_eq_some hs
  exact ⟨hle, by omega, hin hstop⟩

theorem Frame.closing?_bounds {frame : Frame} {h : Haystack} {p start stop : Nat}
    (hc : frame.closing? h p = some (start, stop)) : p ≤ start ∧ start ≤ stop ∧ stop ≤ h.stop := by
  unfold closing? at hc
  split at hc
  · exact literalHit?_bounds hc
  · obtain ⟨r, _, hf⟩ := Option.bind_eq_some_iff.1 hc
    exact Regex.find?_bounds hf

theorem Frame.bodyStop_of_some {frame : Frame} {h : Haystack} {position first last : Nat}
    (hc : frame.closing? h position = some (first, last)) : frame.bodyStop h position = first := by
  simp [bodyStop, hc]

theorem Frame.bodyStop_of_none {frame : Frame} {h : Haystack} {position : Nat}
    (hc : frame.closing? h position = none) : frame.bodyStop h position = h.stop := by
  simp [bodyStop, hc]

theorem Frame.bodyStop_le (frame : Frame) (h : Haystack) (position : Nat) :
    frame.bodyStop h position ≤ h.stop := by
  cases hc : frame.closing? h position with
  | none => exact Nat.le_of_eq (bodyStop_of_none hc)
  | some range =>
    have hbounds := closing?_bounds hc
    rw [bodyStop_of_some hc]
    omega

theorem Frame.le_bodyStop {frame : Frame} {h : Haystack} {position : Nat} (hp : position ≤ h.stop) :
    position ≤ frame.bodyStop h position := by
  cases hc : frame.closing? h position with
  | none => rwa [bodyStop_of_none hc]
  | some range =>
    rw [bodyStop_of_some hc]
    exact (closing?_bounds hc).1

namespace State

/-- Ends the region. Scopes still open end with it. -/
def finish (ctx : Context) (s : State) : State :=
  if s.done then s
  else
    let s := s.flushGap ctx ctx.stop
    let s := if s.stack.isEmpty then s
      else { s.record (.endedOpen ctx.grammar.name s.stack.length) with
        outcome := { s.outcome with incomplete := true }, stack := [] }
    { s.flush with cursor := ctx.stop, done := true }

/-- Goes on searching one character further, without collecting anything. -/
def skipChar (ctx : Context) (s : State) (position : Nat) : State :=
  if position < ctx.stop then { s with cursor := position + 1 } else s.finish ctx

/-- What comes next. Inner rules come before the end of their scope at one place. -/
def nextHit? (ctx : Context) (s : State) : Option (Hit × Nat × Nat) :=
  match s.stack with
  | [] => ctx.grammar.scanner.find? ctx.haystack s.cursor
  | frame :: _ =>
    let found := frame.rule.scanner.find? ctx.haystack s.cursor
    match frame.literalHit? ctx.haystack s.cursor, found with
    | some (start, stop), some (hit, first, last) =>
      if first ≤ start then some (hit, first, last) else some (.closing, start, stop)
    | some (start, stop), none => some (.closing, start, stop)
    | none, found => found

/-- Closes the current scope at a match. -/
def closeScope (ctx : Context) (s : State) (start stop : Nat) : State :=
  let s := s.flushGap ctx start
  match s.stack with
  | [] => s
  | frame :: stack =>
    let labelled := frame.rule.kind.isSome
    let s := s.withStack stack
    let s := if frame.rule.closingOutside then (s.flushIf labelled).text s.kind start stop
      else (s.text frame.kind start stop).flushIf labelled
    (s.record (.closedScope frame.kind (ctx.source.byte stop))).advance stop

/-- Marks an illegal match. -/
def markIllegal (ctx : Context) (s : State) (start stop : Nat) : State :=
  if stop ≤ start then s.skipChar ctx start
  else
    let s := s.recordIf (!s.outcome.illegal)
      (.metIllegal ctx.grammar.name (ctx.source.slice start stop) (ctx.source.byte start))
    let s := s.flushGap ctx start
    ({ s with outcome := { s.outcome with illegal := true } }.text .plain start stop).advance stop

/-- Takes over what an embedded region made. Its plain text, and its text of the kind of the
scope around it, are text of that scope. -/
def adopt (s : State) (kind : Kind) (inner : Inner) : State :=
  let s := inner.spans.foldl
    (fun s span =>
      if span.kind = .plain ∨ span.kind = kind then s.text kind span.start span.stop
      else s.atom span.kind span.start span.stop) s
  { s with
    events := inner.events ++ s.events
    outcome := { s.outcome with
      relevance := s.outcome.relevance + inner.outcome.relevance
      depthLimited := s.outcome.depthLimited || inner.outcome.depthLimited } }

/-- Collects the text of the scope just opened, up to where it ends, in another language. -/
def collectBody (ctx : Context) (inside : Embedding ctx → Inner) (s : State) (frame : Frame)
    (language : String) (opened : s.stack ≠ []) : State :=
  let start := s.cursor
  let stop := frame.bodyStop ctx.haystack start
  match ctx.language? language with
  | none => (s.record (.missedLanguage language)).text frame.kind start stop
  | some grammar =>
    if body : start < stop then
      if room : s.depth ctx < ctx.cap then
        s.adopt frame.kind (inside
          { grammar, start, stop
            base := s.depth ctx
            start_lt_stop := body
            stop_le := frame.bodyStop_le ctx.haystack start
            lt_base := base_lt_depth ctx opened
            base_lt_cap := room })
      else
        let s := s.recordIf (!s.outcome.depthLimited)
          (.leftRegion ctx.grammar.name ctx.cap language)
        s.limitDepth.text frame.kind start stop
    else s

/-- Highlights the text of the scope just opened in another language, and closes it. -/
def embed (ctx : Context) (inside : Embedding ctx → Inner) (s : State) (frame : Frame)
    (language : String) (opened : s.stack ≠ []) : State :=
  let body := (s.collectBody ctx inside frame language opened).advance
    (frame.bodyStop ctx.haystack s.cursor)
  match frame.closing? ctx.haystack s.cursor with
  | some (first, last) => body.closeScope ctx first last
  | none => body

/-- Takes a match of a rule that opens no scope. -/
def takeSingle (s : State) (rule : Rule) (start stop : Nat) : State :=
  let s := match rule.kind with
    | some kind => s.atom kind start stop
    | none => s.text s.kind start stop
  s.advance stop

/-- The scope that a match of a rule opens. -/
def frame (ctx : Context) (s : State) (rule : Rule) (start stop : Nat) : Frame where
  rule
  kind := rule.kind.getD s.kind
  close := match rule.ending with
    | .asOpened => some (ctx.source.chars.extract start stop).toList
    | _ => none

/-- Opens the scope of a rule. -/
def openScope (ctx : Context) (s : State) (rule : Rule) (start stop : Nat) : State :=
  let frame := s.frame ctx rule start stop
  let s := if rule.openingOutside then s.text s.kind start stop else s
  let s := s.flushIf rule.kind.isSome
  let s := if rule.openingOutside then s else s.text frame.kind start stop
  let s := s.record (.openedScope frame.kind (ctx.source.byte start))
  (s.withStack (frame :: s.stack)).advance stop

theorem toCourse_openScope (ctx : Context) (s : State) (rule : Rule) (start stop : Nat) :
    (s.openScope ctx rule start stop).toCourse =
      ⟨stop, stop, s.frame ctx rule start stop :: s.stack, s.done⟩ := by
  unfold openScope
  cases rule.openingOutside <;> cases rule.kind.isSome <;> rfl

theorem stack_openScope (ctx : Context) (s : State) (rule : Rule) (start stop : Nat) :
    (s.openScope ctx rule start stop).stack = s.frame ctx rule start stop :: s.stack := by
  rw [toCourse_openScope]

theorem openScope_opened (ctx : Context) (s : State) (rule : Rule) (start stop : Nat) :
    (s.openScope ctx rule start stop).stack ≠ [] := by
  rw [stack_openScope]
  exact List.cons_ne_nil _ _

/-- Opens the scope of a rule. If its text is in another language, that is highlighted at once. -/
def enterScope (ctx : Context) (inside : Embedding ctx → Inner) (s : State) (rule : Rule)
    (start stop : Nat) : State :=
  match rule.language with
  | some language =>
    (s.openScope ctx rule start stop).embed ctx inside (s.frame ctx rule start stop) language
      (s.openScope_opened ctx rule start stop)
  | none => s.openScope ctx rule start stop

/-- Leaves the opening of a scope that would be nested too deeply to the text around it. -/
def refuse (ctx : Context) (s : State) (start stop : Nat) : State :=
  let s := s.recordIf (!s.outcome.depthLimited)
    (.reachedDepth ctx.grammar.name ctx.cap (ctx.source.byte start))
  { s.limitDepth with cursor := stop }

/-- The state at a match that is taken: what is in front of the match has been collected, and the
rule counts. -/
def arrive (ctx : Context) (s : State) (rule : Rule) (start : Nat) : State :=
  (s.flushGap ctx start).addRelevance rule.relevance

/-- Takes a match of the opening of a rule. -/
def takeRule (ctx : Context) (inside : Embedding ctx → Inner) (s : State) (rule : Rule)
    (start stop : Nat) : State :=
  if stop ≤ start then
    (s.record (.skippedEmptyOpening (ctx.source.byte start))).skipChar ctx start
  else if rule.opensScope && ctx.cap ≤ s.depth ctx then s.refuse ctx start stop
  else
    let s := s.arrive ctx rule start
    if rule.opensScope then s.enterScope ctx inside rule start stop
    else s.takeSingle rule start stop

/-- One step. -/
def step (ctx : Context) (inside : Embedding ctx → Inner) (s : State) : State :=
  match s.nextHit? ctx with
  | none => s.finish ctx
  | some (.rule index, start, stop) =>
    match (s.rules ctx)[index]? with
    | some rule => s.takeRule ctx inside rule start stop
    | none => s.finish ctx
  | some (.closing, start, stop) => s.closeScope ctx start stop
  | some (.illegal, start, stop) => s.markIllegal ctx start stop

end State

end Highlighter.Scan
