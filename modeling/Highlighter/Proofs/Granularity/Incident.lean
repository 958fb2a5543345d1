import Highlighter.Proofs.Tiling

/-!
What happens in a region, told without regard to what is collected: scopes open and close, rules
match by themselves, words are keywords, text is illegal. From that it follows how the region is to
be cut into spans.
-/

namespace Highlighter

/-- Where the scope of a rule begins: at its opening match or behind it. -/
def Rule.scopeStart (rule : Rule) (start stop : Nat) : Nat :=
  if rule.openingOutside then stop else start

/-- Where the scope of a rule ends: behind its closing match or in front of it. -/
def Rule.scopeStop (rule : Rule) (start stop : Nat) : Nat :=
  if rule.closingOutside then start else stop

/-- The kind of the text in some scopes, the innermost first: that of the nearest rule that has
one. -/
def Rule.effectiveKind (stack : List Rule) : Kind := (stack.findSome? Rule.kind).getD .plain

namespace Scan

/-- Something that happens in a region, with the range of its match. A scope is closed by the rule
that opened it. -/
inductive Incident
  | opened (rule : Rule) (start stop : Nat)
  | closed (rule : Rule) (start stop : Nat)
  | single (rule : Rule) (start stop : Nat)
  | keyword (kind : Kind) (start stop : Nat)
  | illegal (start stop : Nat)

namespace Incident

def start : Incident → Nat
  | opened _ start _ | closed _ start _ | single _ start _ | keyword _ start _ | illegal start _ =>
    start

def stop : Incident → Nat
  | opened _ _ stop | closed _ _ stop | single _ _ stop | keyword _ _ stop | illegal _ stop => stop

/-- The span that something is by itself: a keyword, or a match by itself that has a kind. -/
def atom? : Incident → Option Span
  | keyword kind start stop => some ⟨kind, start, stop⟩
  | single rule start stop => rule.kind.map fun kind => ⟨kind, start, stop⟩
  | opened .. | closed .. | illegal .. => none

/-- Where a scope with a kind begins or ends. -/
def scopeEdge? : Incident → Option Nat
  | opened rule start stop => rule.kind.map fun _ => rule.scopeStart start stop
  | closed rule start stop => rule.kind.map fun _ => rule.scopeStop start stop
  | single .. | keyword .. | illegal .. => none

/-- The spans that are so by themselves. -/
def atoms (incidents : List Incident) : List Span := incidents.filterMap atom?

/-- Where spans of one kind meet: at the edges of those that are spans by themselves, and where
scopes with a kind begin and end. -/
def cuts (incidents : List Incident) : List Nat :=
  (atoms incidents).flatMap (fun atom => [atom.start, atom.stop]) ++
    incidents.filterMap scopeEdge?

/-- The rules whose scopes are open at a position, the innermost first, when some were open
before. -/
def openAt (p : Nat) (stack : List Rule) : List Incident → List Rule
  | [] => stack
  | opened rule start stop :: rest =>
    openAt p (if rule.scopeStart start stop ≤ p then rule :: stack else stack) rest
  | closed rule start stop :: rest =>
    openAt p (if rule.scopeStop start stop ≤ p then stack.tail else stack) rest
  | single .. :: rest | keyword .. :: rest | illegal .. :: rest => openAt p stack rest

/-- The kind of the text at a position, as far as the scopes open there determine it. -/
def kindAt (incidents : List Incident) (p : Nat) : Kind :=
  Rule.effectiveKind (openAt p [] incidents)

end Incident

/-- The spans are cut as the incidents ask for. -/
structure Granular (incidents : List Incident) (spans : List Span) : Prop where
  /-- Keywords, and matches by themselves that have a kind, are spans of their own. -/
  atoms : ∀ atom ∈ Incident.atoms incidents, atom ∈ spans
  /-- Everything else has the kind of the scopes open there. -/
  kinds : ∀ span ∈ spans, ∀ p, span.start ≤ p → p < span.stop →
    (∀ atom ∈ Incident.atoms incidents, ¬(atom.start ≤ p ∧ p < atom.stop)) →
      span.kind = Incident.kindAt incidents p
  /-- Neighbours of one kind are in different spans just where there is a cut. -/
  cuts : ∀ x ∈ spans, ∀ y ∈ spans, ∀ p, x.start < p → p ≤ x.stop → y.start ≤ p → p < y.stop →
    x.kind = y.kind → ((∃ span ∈ spans, span.start = p) ↔ p ∈ Incident.cuts incidents)

namespace State

/-- A word is a keyword if it is in the table. -/
def keyword? (grammar : Grammar) (source : Source) (first last : Nat) : Option Incident :=
  if first < last then
    (grammar.keywords.find? (source.slice first last)).map fun entry =>
      .keyword entry.kind first last
  else none

/-- The keywords in a text outside all scopes, from a position on. -/
def keywordsFrom (grammar : Grammar) (source : Source) (stop position : Nat) : List Incident :=
  if position < stop then
    match _h : grammar.word.findSwept? ⟨source.chars, stop⟩ position with
    | none => []
    | some (first, last) =>
      (keyword? grammar source first last).toList ++
        keywordsFrom grammar source stop (pastWord first last)
  else []
termination_by stop - position
decreasing_by
  have := lt_pastWord _h
  omega

/-- The keywords in what has been passed over, up to a position. Inside scopes there are none. -/
def keywords (ctx : Context) (s : State) (position : Nat) : List Incident :=
  if s.stack.isEmpty && s.gap < position then
    keywordsFrom ctx.grammar ctx.source position s.gap
  else []

/-- What happens when nothing is matched at a position: the region may end there. -/
def passing (ctx : Context) (s : State) (position : Nat) : List Incident :=
  if position < ctx.stop then [] else s.keywords ctx ctx.stop

/-- What happens when the opening of a rule is matched. -/
def meeting (ctx : Context) (s : State) (rule : Rule) (start stop : Nat) : List Incident :=
  if stop ≤ start then s.passing ctx start
  else if rule.opensScope then
    if s.depth ctx < ctx.cap then s.keywords ctx start ++ [.opened rule start stop] else []
  else s.keywords ctx start ++ [.single rule start stop]

/-- What happens in a step. -/
def incidents (ctx : Context) (s : State) : List Incident :=
  match s.nextHit? ctx with
  | none => s.keywords ctx ctx.stop
  | some (.rule index, start, stop) =>
    match (s.rules ctx)[index]? with
    | some rule => s.meeting ctx rule start stop
    | none => s.keywords ctx ctx.stop
  | some (.closing, start, stop) =>
    s.stack.head?.toList.map fun frame => .closed frame.rule start stop
  | some (.illegal, start, stop) =>
    if stop ≤ start then s.passing ctx start
    else s.keywords ctx start ++ [.illegal start stop]

/-- What happens from a state on, up to the end of the region, while the spans are taken out. -/
def story (ctx : Context) (s : State) : List Incident :=
  if _h : s.done then [] else s.incidents ctx ++ (s.emptied.takeStep ctx).story ctx
termination_by s.ahead ctx
decreasing_by exact @step_ahead_lt ctx ctx.inside s.emptied (Bool.eq_false_iff.2 _h)

end State

end Scan

end Highlighter
