import Highlighter.Grammar.Basic
import Highlighter.Scan.Emitter
import Highlighter.Text.Source
import Highlighter.Token

/-!
The state of highlighting one region of a text: how far the search has come, which scopes
are open, what has been collected, and what has happened.
-/

namespace Highlighter

namespace Scan

/-- Something that happened while a text was highlighted. Positions count bytes. -/
inductive Event
  | skippedEmptyOpening (byte : Nat)
  | openedScope (kind : Kind) (byte : Nat)
  | closedScope (kind : Kind) (byte : Nat)
  | reachedDepth (grammar : String) (depth byte : Nat)
  | leftRegion (grammar : String) (depth : Nat) (language : String)
  | missedLanguage (language : String)
  | metIllegal (grammar text : String) (byte : Nat)
  | endedOpen (grammar : String) (scopes : Nat)
  deriving DecidableEq, Repr, Inhabited

/-- An open scope: its rule, the kind of its own text, and the text that closes it if only
that of the opening match does. -/
structure Frame where
  rule : Rule
  kind : Kind
  close : Option (List Char)
  deriving Repr, Inhabited

/-- What a region is highlighted with. -/
structure Context where
  grammar : Grammar
  /-- Finds the grammar of an embedded language. -/
  language? : String → Option Grammar
  /-- Scopes and embedded regions are nested no deeper than this. -/
  cap : Nat
  source : Source
  /-- The end of the region. -/
  stop : Nat
  /-- How deep the region itself is nested. -/
  base : Nat

/-- The part of the text that searches can see. -/
def Context.haystack (ctx : Context) : Haystack := ⟨ctx.source.chars, ctx.stop⟩

@[simp] theorem Context.stop_haystack (ctx : Context) : ctx.haystack.stop = ctx.stop := rfl

/-- A region to be highlighted in another language. It is nested deeper than what it stands in,
and no deeper than the cap allows. -/
structure Embedding (ctx : Context) where
  grammar : Grammar
  start : Nat
  stop : Nat
  base : Nat
  start_lt_stop : start < stop
  stop_le : stop ≤ ctx.stop
  lt_base : ctx.base < base
  base_lt_cap : base < ctx.cap

/-- What an embedded region is highlighted with. -/
def Embedding.context {ctx : Context} (e : Embedding ctx) : Context :=
  { ctx with grammar := e.grammar, stop := e.stop, base := e.base }

/-- Where a highlighting stands. Text from `gap` to `cursor` has been passed over and not yet
collected. -/
structure Course where
  cursor : Nat
  gap : Nat
  stack : List Frame := []
  done : Bool := false
  deriving Repr, Inhabited

/-- What is left of a region: the text still to be searched, and the scopes still open. -/
def Course.left (c : Course) (stop : Nat) : Nat × Nat := (stop - c.cursor, c.stack.length)

/-- The state of highlighting a region. Events are listed latest first. -/
structure State extends Course where
  emitter : Emitter := {}
  outcome : Outcome := {}
  /-- The keywords met so far, as they are looked up. -/
  hits : List String := []
  events : List Event := []
  deriving Repr, Inhabited

namespace State

/-- The state at the beginning of a region. -/
def start (position : Nat) : State := { cursor := position, gap := position }

/-- How deep the current scope is nested. -/
def depth (s : State) (ctx : Context) : Nat := ctx.base + s.stack.length

/-- The kind of the text of the current scope. -/
def kind (s : State) : Kind :=
  match s.stack with
  | frame :: _ => frame.kind
  | [] => .plain

/-- The rules of the current scope. -/
def rules (s : State) (ctx : Context) : List Rule :=
  match s.stack with
  | frame :: _ => frame.rule.inner
  | [] => ctx.grammar.rules

/-- The state with these scopes open. -/
def withStack (s : State) (stack : List Frame) : State := { s with stack }

def text (s : State) (kind : Kind) (start stop : Nat) : State :=
  { s with emitter := s.emitter.text kind start stop }

def atom (s : State) (kind : Kind) (start stop : Nat) : State :=
  { s with emitter := s.emitter.atom kind start stop }

def flush (s : State) : State := { s with emitter := s.emitter.flush }

def flushIf (s : State) (cut : Bool) : State := if cut then s.flush else s

def record (s : State) (e : Event) : State := { s with events := e :: s.events }

def recordIf (s : State) (happened : Bool) (e : Event) : State :=
  if happened then s.record e else s

def addRelevance (s : State) (n : Nat) : State :=
  { s with outcome := { s.outcome with relevance := s.outcome.relevance + n } }

def limitDepth (s : State) : State := { s with outcome := { s.outcome with depthLimited := true } }

/-- Moves on to a position up to which everything has been collected. -/
def advance (s : State) (position : Nat) : State := { s with cursor := position, gap := position }

section Course

variable (s : State) (kind : Kind) (start stop n : Nat) (cut : Bool) (e : Event)

@[simp] theorem toCourse_text : (s.text kind start stop).toCourse = s.toCourse := rfl
@[simp] theorem toCourse_atom : (s.atom kind start stop).toCourse = s.toCourse := rfl
@[simp] theorem toCourse_flush : s.flush.toCourse = s.toCourse := rfl
@[simp] theorem toCourse_record : (s.record e).toCourse = s.toCourse := rfl
@[simp] theorem toCourse_addRelevance : (s.addRelevance n).toCourse = s.toCourse := rfl
@[simp] theorem toCourse_limitDepth : s.limitDepth.toCourse = s.toCourse := rfl

@[simp] theorem toCourse_flushIf : (s.flushIf cut).toCourse = s.toCourse := by
  cases cut <;> rfl

@[simp] theorem toCourse_recordIf : (s.recordIf cut e).toCourse = s.toCourse := by
  cases cut <;> rfl

end Course

/-- Inside a scope it is deeper than outside. -/
theorem base_lt_depth {s : State} (ctx : Context) (opened : s.stack ≠ []) :
    ctx.base < s.depth ctx := by
  have hlen := List.length_pos_iff.2 opened
  unfold depth
  omega

end State

end Scan

end Highlighter
