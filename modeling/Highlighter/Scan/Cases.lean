import Highlighter.Scan.Step

/-!
What a step can do, said once. Whatever holds of every step is shown case by case from here.
-/

namespace Highlighter.Scan.State

variable {ctx : Context} {inside : Embedding ctx → Inner} {s t : State}

/-- What becomes of a state when the text of a scope just opened, up to where it ends, is collected in
another language. -/
inductive CollectsBody (ctx : Context) (inside : Embedding ctx → Inner) (s : State) (kind : Kind)
    (language : String) (start stop : Nat) : State → Prop
  /-- The language is not known, and the text is left to the scope. -/
  | unknown (missing : ctx.language? language = none) :
      CollectsBody ctx inside s kind language start stop
        ((s.record (.missedLanguage language)).text kind start stop)
  | adopted (e : Embedding ctx) (known : ctx.language? language = some e.grammar)
      (start_eq : e.start = start) (stop_eq : e.stop = stop) (base_eq : e.base = s.depth ctx) :
      CollectsBody ctx inside s kind language start stop (s.adopt kind (inside e))
  /-- The cap allows no region here, and the text is left to the scope. -/
  | limited {grammar : Grammar} (known : ctx.language? language = some grammar) (lt : start < stop)
      (full : ctx.cap ≤ s.depth ctx) : CollectsBody ctx inside s kind language start stop
        ((s.recordIf (!s.outcome.depthLimited)
          (.leftRegion ctx.grammar.name ctx.cap language)).limitDepth.text kind start stop)
  /-- The scope has no text. -/
  | empty {grammar : Grammar} (known : ctx.language? language = some grammar) (le : stop ≤ start) :
      CollectsBody ctx inside s kind language start stop s

theorem collectsBody_iff {frame : Frame} {language : String} {opened : s.stack ≠ []} :
    CollectsBody ctx inside s frame.kind language s.cursor
        (frame.bodyStop ctx.haystack s.cursor) t ↔
      s.collectBody ctx inside frame language opened = t := by
  constructor
  · intro h
    unfold collectBody
    cases h with
    | unknown missing => simp only [missing]
    | adopted e known start_eq stop_eq base_eq =>
      obtain ⟨grammar, start, stop, base, lt, _, _, room⟩ := e
      dsimp only at known start_eq stop_eq base_eq
      subst start_eq stop_eq base_eq
      simp only [known, lt, room, ↓reduceDIte]
    | limited known lt full => simp only [known, lt, Nat.not_lt.2 full, ↓reduceDIte]
    | empty known le => simp only [known, Nat.not_lt.2 le, ↓reduceDIte]
  · rintro rfl
    unfold collectBody
    simp only
    split
    · rename_i missing
      exact .unknown missing
    · rename_i known
      split
      · rename_i lt
        split
        · exact .adopted _ known rfl rfl rfl
        · rename_i full
          exact .limited known lt (Nat.not_lt.1 full)
      · rename_i le
        exact .empty known (Nat.not_lt.1 le)

theorem collectsBody_collectBody (ctx : Context) (inside : Embedding ctx → Inner) (s : State)
    (frame : Frame) (language : String) (opened : s.stack ≠ []) :
    CollectsBody ctx inside s frame.kind language s.cursor (frame.bodyStop ctx.haystack s.cursor)
      (s.collectBody ctx inside frame language opened) :=
  collectsBody_iff.2 rfl

/-- What becomes of a state when the scope of a rule is entered. -/
inductive Enters (ctx : Context) (inside : Embedding ctx → Inner) (s : State) (rule : Rule)
    (start stop : Nat) : State → Prop
  /-- The text of the scope is in the language of its region, and comes with the next steps. -/
  | own (own : rule.language = none) :
      Enters ctx inside s rule start stop (s.openScope ctx rule start stop)
  /-- The text is in another language, and the scope is closed at once. -/
  | closed {language : String} {body : State} {first last : Nat}
      (embedded : rule.language = some language)
      (collects : CollectsBody ctx inside (s.openScope ctx rule start stop)
        (s.frame ctx rule start stop).kind language stop first body)
      (found : (s.frame ctx rule start stop).closing? ctx.haystack stop = some (first, last)) :
      Enters ctx inside s rule start stop ((body.advance first).closeScope ctx first last)
  /-- It has no end. -/
  | unclosed {language : String} {body : State} (embedded : rule.language = some language)
      (collects : CollectsBody ctx inside (s.openScope ctx rule start stop)
        (s.frame ctx rule start stop).kind language stop ctx.stop body)
      (endless : (s.frame ctx rule start stop).closing? ctx.haystack stop = none) :
      Enters ctx inside s rule start stop (body.advance ctx.stop)

theorem enters_iff {rule : Rule} {start stop : Nat} :
    Enters ctx inside s rule start stop t ↔ s.enterScope ctx inside rule start stop = t := by
  have hcursor : (s.openScope ctx rule start stop).cursor = stop := by rw [toCourse_openScope]
  have hcollects : ∀ language body, CollectsBody ctx inside (s.openScope ctx rule start stop)
        (s.frame ctx rule start stop).kind language stop
        ((s.frame ctx rule start stop).bodyStop ctx.haystack stop) body ↔
      (s.openScope ctx rule start stop).collectBody ctx inside (s.frame ctx rule start stop) language
        (s.openScope_opened ctx rule start stop) = body := by
    intro language body
    rw [← collectsBody_iff, hcursor]
  constructor
  · intro h
    unfold enterScope
    cases h with
    | own own => simp only [own]
    | closed embedded collects found =>
      have hstop := Frame.bodyStop_of_some found
      rw [← hstop] at collects
      simp only [embedded, embed, hcursor, found, (hcollects _ _).1 collects, hstop]
    | unclosed embedded collects endless =>
      have hstop := Frame.bodyStop_of_none endless
      rw [Context.stop_haystack] at hstop
      rw [← hstop] at collects
      simp only [embedded, embed, hcursor, endless, (hcollects _ _).1 collects, hstop]
  · rintro rfl
    unfold enterScope
    split
    · rename_i language embedded
      unfold embed
      simp only [hcursor]
      split
      · rename_i first last found
        have hstop := Frame.bodyStop_of_some found
        have collects := (hcollects language _).2 rfl
        rw [hstop]
        rw [hstop] at collects
        exact .closed embedded collects found
      · rename_i endless
        have hstop := Frame.bodyStop_of_none endless
        rw [Context.stop_haystack] at hstop
        have collects := (hcollects language _).2 rfl
        rw [hstop]
        rw [hstop] at collects
        exact .unclosed embedded collects endless
    · rename_i own
      exact .own own

theorem enters_enterScope (ctx : Context) (inside : Embedding ctx → Inner) (s : State) (rule : Rule)
    (start stop : Nat) :
    Enters ctx inside s rule start stop (s.enterScope ctx inside rule start stop) :=
  enters_iff.2 rfl

/-- A scope whose text is in the language of its region is opened, and nothing else. -/
theorem enterScope_of_own (inside : Embedding ctx → Inner) {rule : Rule} {start stop : Nat}
    (own : rule.language = none) :
    s.enterScope ctx inside rule start stop = s.openScope ctx rule start stop :=
  enters_iff.1 (.own own)

/-- An empty match is not illegal. -/
theorem markIllegal_of_le {start stop : Nat} (empty : stop ≤ start) :
    s.markIllegal ctx start stop = s.skipChar ctx start := if_pos empty

/-- What becomes of a state when a match of the opening of a rule is met. -/
inductive Takes (ctx : Context) (inside : Embedding ctx → Inner) (s : State) (rule : Rule)
    (start stop : Nat) : State → Prop
  /-- Nothing was matched, and the search goes on. -/
  | skip (empty : stop ≤ start) : Takes ctx inside s rule start stop
      ((s.record (.skippedEmptyOpening (ctx.source.byte start))).skipChar ctx start)
  /-- The cap allows no scope here, and the match is left as text. -/
  | refuse (lt : start < stop) (opens : rule.opensScope = true) (full : ctx.cap ≤ s.depth ctx) :
      Takes ctx inside s rule start stop (s.refuse ctx start stop)
  /-- A scope is opened. -/
  | enter (lt : start < stop) (opens : rule.opensScope = true) (room : s.depth ctx < ctx.cap) :
      Takes ctx inside s rule start stop
        ((s.arrive ctx rule start).enterScope ctx inside rule start stop)
  /-- The match is all there is to the rule. -/
  | single (lt : start < stop) (opens : rule.opensScope = false) :
      Takes ctx inside s rule start stop ((s.arrive ctx rule start).takeSingle rule start stop)

theorem takes_iff {rule : Rule} {start stop : Nat} :
    Takes ctx inside s rule start stop t ↔ s.takeRule ctx inside rule start stop = t := by
  constructor
  · intro h
    unfold takeRule
    cases h with
    | skip empty => rw [if_pos empty]
    | refuse lt opens full => rw [if_neg (Nat.not_le.2 lt), if_pos (by simp [opens, full])]
    | enter lt opens room =>
      rw [if_neg (Nat.not_le.2 lt), if_neg (by simpa [opens] using room)]
      simp only [opens, ↓reduceIte]
    | single lt opens =>
      rw [if_neg (Nat.not_le.2 lt), if_neg (by simp [opens])]
      simp only [opens, Bool.false_eq_true, ↓reduceIte]
  · rintro rfl
    unfold takeRule
    split
    · rename_i empty
      exact .skip empty
    · rename_i lt
      split
      · rename_i full
        rw [Bool.and_eq_true, decide_eq_true_eq] at full
        exact .refuse (Nat.not_le.1 lt) full.1 full.2
      · rename_i room
        cases opens : rule.opensScope with
        | true => exact .enter (Nat.not_le.1 lt) opens (by simpa [opens] using room)
        | false => exact .single (Nat.not_le.1 lt) opens

/-- What becomes of a state in a step. -/
inductive Steps (ctx : Context) (inside : Embedding ctx → Inner) (s : State) : State → Prop
  /-- Nothing comes any more. -/
  | ended (none : s.nextHit? ctx = none) : Steps ctx inside s (s.finish ctx)
  /-- A rule comes that the scope does not have. -/
  | lost {index start stop : Nat} (hit : s.nextHit? ctx = some (.rule index, start, stop))
      (none : (s.rules ctx)[index]? = none) : Steps ctx inside s (s.finish ctx)
  | rule {index start stop : Nat} {rule : Rule} {t : State}
      (hit : s.nextHit? ctx = some (.rule index, start, stop))
      (found : (s.rules ctx)[index]? = some rule) (takes : Takes ctx inside s rule start stop t) :
      Steps ctx inside s t
  | close {start stop : Nat} (hit : s.nextHit? ctx = some (.closing, start, stop)) :
      Steps ctx inside s (s.closeScope ctx start stop)
  | illegal {start stop : Nat} (hit : s.nextHit? ctx = some (.illegal, start, stop)) :
      Steps ctx inside s (s.markIllegal ctx start stop)

theorem steps_iff : Steps ctx inside s t ↔ s.step ctx inside = t := by
  constructor
  · intro h
    unfold step
    cases h with
    | ended none => simp only [none]
    | lost hit none => simp only [hit, none]
    | rule hit found takes => simp only [hit, found, takes_iff.1 takes]
    | close hit => simp only [hit]
    | illegal hit => simp only [hit]
  · rintro rfl
    unfold step
    split
    · rename_i none
      exact .ended none
    · rename_i hit
      split
      · rename_i found
        exact .rule hit found (takes_iff.2 rfl)
      · rename_i none
        exact .lost hit none
    · rename_i hit
      exact .close hit
    · rename_i hit
      exact .illegal hit

end Highlighter.Scan.State
