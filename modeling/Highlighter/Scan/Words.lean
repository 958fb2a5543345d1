import Highlighter.Regex.Sweep
import Highlighter.Scan.State

/-!
Text outside all scopes is split into words, and the words are looked up in the keyword
table.
-/

namespace Highlighter.Scan.State

/-- Scores a keyword. Only the first hits of each word count. -/
def countKeyword (s : State) (key : String) (relevance : Nat) : State :=
  let s' := { s with hits := key :: s.hits }
  if s.hits.count key < Keyword.maxHits then s'.addRelevance relevance else s'

/-- Collects a word, with the text in front of it, if it is a keyword. What comes with the state is
from where text is then yet to be collected. -/
def takeWord (grammar : Grammar) (source : Source) (s : State) (plain first last : Nat) :
    State × Nat :=
  let word := source.slice first last
  match grammar.keywords.find? word with
  | some entry =>
    (((s.text .plain plain first).atom entry.kind first last).countKeyword
      (grammar.keywords.key word) entry.relevance, last)
  | none => (s, plain)

/-- Where the search for words goes on: behind a word, and one character behind an empty match. -/
def pastWord (first last : Nat) : Nat := if first < last then last else last + 1

theorem lt_pastWord {r : Regex} {h : Haystack} {position first last : Nat}
    (hf : r.findSwept? h position = some (first, last)) : position < pastWord first last := by
  have hbounds := Regex.findSwept?_bounds hf
  unfold pastWord
  split <;> omega

/-- Collects the text from `plain` to `stop`, in which words are searched from `position` on. -/
def classifyFrom (grammar : Grammar) (source : Source) (stop : Nat) (s : State)
    (plain position : Nat) : State :=
  if position < stop then
    match _h : grammar.word.findSwept? ⟨source.chars, stop⟩ position with
    | none => s.text .plain plain stop
    | some (first, last) =>
      let (s, plain) := if first < last then s.takeWord grammar source plain first last
        else (s, plain)
      classifyFrom grammar source stop s plain (pastWord first last)
  else s.text .plain plain stop
termination_by stop - position
decreasing_by
  have := lt_pastWord _h
  omega

/-- Collects the text outside all scopes from `start` to `stop`. -/
def classify (ctx : Context) (s : State) (start stop : Nat) : State :=
  classifyFrom ctx.grammar ctx.source stop s start start

/-- Collects the text passed over, up to `position`. -/
def flushGap (ctx : Context) (s : State) (position : Nat) : State :=
  if position ≤ s.gap then s
  else
    let s' := if s.stack.isEmpty then s.classify ctx s.gap position
      else s.text s.kind s.gap position
    { s' with gap := position }

@[simp] theorem toCourse_countKeyword (s : State) (key : String) (relevance : Nat) :
    (s.countKeyword key relevance).toCourse = s.toCourse := by
  unfold countKeyword
  simp only
  split <;> rfl

/-- Where everything has been collected, there is nothing to collect. -/
theorem flushGap_of_le {ctx : Context} {s : State} {position : Nat} (h : position ≤ s.gap) :
    s.flushGap ctx position = s := if_pos h

/-- Outside all scopes what has been passed over is split into words. -/
theorem flushGap_outside {ctx : Context} {s : State} {position : Nat} (outside : s.stack = [])
    (h : s.gap < position) : s.flushGap ctx position =
      { s.classifyFrom ctx.grammar ctx.source position s.gap s.gap with gap := position } := by
  unfold flushGap
  rw [if_neg (Nat.not_le.2 h), outside]
  rfl

/-- Inside a scope what has been passed over becomes text of the scope. -/
theorem flushGap_inside {ctx : Context} {s : State} {frame : Frame} {stack : List Frame}
    (hs : s.stack = frame :: stack) (position : Nat) :
    s.flushGap ctx position =
      { s.text frame.kind s.gap position with gap := max s.gap position } := by
  by_cases hle : position ≤ s.gap
  · rw [flushGap_of_le hle, Nat.max_eq_left hle, text, s.emitter.text_of_le hle]
  · unfold flushGap
    rw [if_neg hle, Nat.max_eq_right (Nat.le_of_not_le hle), hs, kind, hs]
    rfl

section Collecting

variable {P : State → Nat → Prop}

/-- Text is collected keyword by keyword, and what is behind the last keyword is plain. Whatever is
kept with each keyword holds of the state in front of that last piece. -/
theorem exists_classifyFrom {grammar : Grammar} {source : Source} {stop : Nat}
    (keyword : ∀ s plain first last entry, P s plain → plain ≤ first → first < last →
      last ≤ stop → grammar.keywords.find? (source.slice first last) = some entry →
      P (((s.text .plain plain first).atom entry.kind first last).countKeyword
        (grammar.keywords.key (source.slice first last)) entry.relevance) last)
    {s : State} {plain position : Nat} (h : P s plain) (hp : plain ≤ position)
    (hstop : plain ≤ stop) :
    ∃ t plain', P t plain' ∧ plain' ≤ stop ∧
      s.classifyFrom grammar source stop plain position = t.text .plain plain' stop := by
  fun_induction s.classifyFrom grammar source stop plain position with
  | case1 s plain => exact ⟨s, plain, h, hstop, rfl⟩
  | case2 s plain position hlt first last hfound s' plain' hword ih =>
    have hpast := lt_pastWord hfound
    obtain ⟨hle, -, hlast⟩ := Regex.findSwept?_bounds hfound
    split at hword
    · rename_i hne
      unfold takeWord at hword
      simp only at hword
      split at hword
      · rename_i entry hentry
        cases hword
        have hbehind : pastWord first last = last := if_pos hne
        exact ih (keyword s plain first last entry h (Nat.le_trans hp hle) hne hlast hentry)
          (Nat.le_of_eq hbehind.symm) hlast
      · cases hword
        exact ih h (by omega) hstop
    · cases hword
      exact ih h (by omega) hstop
  | case3 s plain => exact ⟨s, plain, h, hstop, rfl⟩

/-- What has been passed over is collected keyword by keyword outside all scopes, and what is left
then is text of the current scope. -/
theorem exists_flushGap (ctx : Context) (s : State) (position : Nat)
    (keyword : s.stack = [] → ∀ t plain first last entry, P t plain → plain ≤ first →
      first < last → last ≤ position →
      ctx.grammar.keywords.find? (ctx.source.slice first last) = some entry →
      P (((t.text .plain plain first).atom entry.kind first last).countKeyword
        (ctx.grammar.keywords.key (ctx.source.slice first last)) entry.relevance) last)
    (h : P s s.gap) :
    ∃ t plain, P t plain ∧ (s.gap ≤ position → plain ≤ position) ∧
      s.flushGap ctx position =
        { t.text s.kind plain position with gap := max s.gap position } := by
  cases hs : s.stack with
  | cons frame stack =>
    refine ⟨s, s.gap, h, id, ?_⟩
    rw [flushGap_inside hs, kind, hs]
  | nil =>
    rcases Nat.lt_or_ge s.gap position with hlt | hle
    · obtain ⟨t, plain, ht, hplain, hcollected⟩ :=
        exists_classifyFrom (keyword hs) h (Nat.le_refl _) (Nat.le_of_lt hlt)
      refine ⟨t, plain, ht, fun _ => hplain, ?_⟩
      rw [flushGap_outside hs hlt, hcollected, kind, hs, Nat.max_eq_right (Nat.le_of_lt hlt)]
    · refine ⟨s, s.gap, h, id, ?_⟩
      rw [flushGap_of_le hle, Nat.max_eq_left hle, text, s.emitter.text_of_le hle]

end Collecting

/-- Collecting what has been passed over moves nothing but the place from where text is yet to be
collected. -/
theorem toCourse_flushGap (ctx : Context) (s : State) (position : Nat) :
    (s.flushGap ctx position).toCourse = { s.toCourse with gap := max s.gap position } := by
  obtain ⟨t, plain, ht, -, hflush⟩ := exists_flushGap (P := fun t _ => t.toCourse = s.toCourse)
    ctx s position (fun _ t plain first last entry h _ _ _ _ => by simpa using h) rfl
  rw [hflush]
  exact congrArg (fun c : Course => { c with gap := max s.gap position }) ht

theorem stack_flushGap (ctx : Context) (s : State) (position : Nat) :
    (s.flushGap ctx position).stack = s.stack := by
  rw [toCourse_flushGap]

theorem done_flushGap (ctx : Context) (s : State) (position : Nat) :
    (s.flushGap ctx position).done = s.done := by
  rw [toCourse_flushGap]

end Highlighter.Scan.State
