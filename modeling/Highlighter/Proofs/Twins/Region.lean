import Highlighter.Proofs.Draining
import Highlighter.Proofs.Reached
import Highlighter.Proofs.Twins.Search

/-!
Two runs side by side. Two regions of two texts come to the same spans and the same outcome, if at
every place where the one run looks at its text or at its grammar the other sees the same there. The
invariant is that the two states are the same but for the rules of the open scopes and for what has
been recorded.
-/

namespace Highlighter

namespace Scan

/-- Two texts, how far they are looked at, and which names stand for languages that are alike. -/
structure Pairing where
  left : Source
  right : Source
  size : Nat
  language : String → String → Prop

namespace Pairing

variable (w : Pairing)

/-- Searches that find the same in both texts, wherever these are cut off. -/
def Finds {α : Type} (find? find?' : Haystack → Nat → Option α) : Prop :=
  ∀ stop ≤ w.size, ∀ p, find? ⟨w.left.chars, stop⟩ p = find?' ⟨w.right.chars, stop⟩ p

/-- The texts are the same as far as they are looked at. -/
def SameText : Prop := ∀ i < w.size, w.left.chars[i]? = w.right.chars[i]?

variable {w}

theorem SameText.char?_eq (same : w.SameText) {stop : Nat} (hstop : stop ≤ w.size) (i : Nat) :
    Haystack.char? ⟨w.left.chars, stop⟩ i = Haystack.char? ⟨w.right.chars, stop⟩ i := by
  unfold Haystack.char?
  split
  · rename_i hlt
    exact same i (Nat.lt_of_lt_of_le hlt hstop)
  · rfl

theorem SameText.alike (same : w.SameText) {stop : Nat} (hstop : stop ≤ w.size) :
    Haystack.Alike id id ⟨w.left.chars, stop⟩ ⟨w.right.chars, stop⟩ :=
  Haystack.alike_of_char? rfl (same.char?_eq hstop)

theorem SameText.extract_eq (same : w.SameText) (a : Nat) {b : Nat} (hb : b ≤ w.size) :
    w.left.chars.extract a b = w.right.chars.extract a b := by
  have hlist : w.left.chars.toList.take b = w.right.chars.toList.take b := by
    refine List.ext_getElem? fun i => ?_
    rw [List.getElem?_take, List.getElem?_take]
    split
    · rename_i hlt
      simpa using same i (Nat.lt_of_lt_of_le hlt hb)
    · rfl
  apply Array.ext'
  simp only [Array.toList_extract, List.extract, ← List.drop_take, hlist]

theorem SameText.slice_eq (same : w.SameText) (a : Nat) {b : Nat} (hb : b ≤ w.size) :
    w.left.slice a b = w.right.slice a b := by
  unfold Source.slice
  rw [same.extract_eq a hb]

/-- A text that stands in the one text stands in the other. -/
theorem SameText.finds_literal (same : w.SameText) (text : List Char) :
    w.Finds (fun h p => h.first? (h.spelled? · text) p) fun h p => h.first? (h.spelled? · text) p := by
  intro stop hstop p
  have hspelled : ∀ (text : List Char) (q : Nat), Haystack.spelled? ⟨w.left.chars, stop⟩ q text =
      Haystack.spelled? ⟨w.right.chars, stop⟩ q text := by
    intro text
    induction text with
    | nil => exact fun q => rfl
    | cons c text ih =>
      intro q
      simp only [Haystack.spelled?, same.char?_eq hstop, ih]
  simp only [hspelled text, (same.alike hstop).first?_eq]

end Pairing

end Scan

open Scan (Pairing)

/-- Rules that act alike, but for the rules inside them. -/
structure Rule.Alike (w : Pairing) (rule rule' : Rule) : Prop where
  kind : rule.kind = rule'.kind
  relevance : rule.relevance = rule'.relevance
  openingOutside : rule.openingOutside = rule'.openingOutside
  closingOutside : rule.closingOutside = rule'.closingOutside
  opensScope : rule.opensScope = rule'.opensScope
  asOpened : rule.ending = .asOpened ↔ rule'.ending = .asOpened
  /-- The text that a scope is opened with is kept only where the texts are the same. -/
  copied : rule.ending = .asOpened → w.SameText
  closing : w.Finds (fun h p => rule.closing.bind (·.find? h p))
    fun h p => rule'.closing.bind (·.find? h p)
  scanner : w.Finds rule.scanner.find? rule'.scanner.find?
  language : Option.Rel w.language rule.language rule'.language

/-- Rules that act alike, and so do the rules inside them. -/
inductive Rule.Twin (w : Pairing) : Rule → Rule → Prop
  | intro {rule rule' : Rule} (alike : rule.Alike w rule')
      (length : rule.inner.length = rule'.inner.length)
      (inner : ∀ (i : Nat) (r r' : Rule), rule.inner[i]? = some r → rule'.inner[i]? = some r' →
        r.Twin w r') : rule.Twin w rule'

/-- Lists of the same length whose elements are related one by one. -/
theorem rel_getElem? {α : Type} {r : α → α → Prop} {xs ys : List α} (length : xs.length = ys.length)
    (h : ∀ (i : Nat) (x y : α), xs[i]? = some x → ys[i]? = some y → r x y) (i : Nat) :
    Option.Rel r xs[i]? ys[i]? := by
  cases hx : xs[i]? with
  | none =>
    rw [List.getElem?_eq_none_iff, length, ← List.getElem?_eq_none_iff] at hx
    rw [hx]
    exact .none
  | some x =>
    obtain ⟨hlt, -⟩ := List.getElem?_eq_some_iff.1 hx
    have hy := List.getElem?_eq_getElem (length ▸ hlt : i < ys.length)
    rw [hy]
    exact .some (h i x _ hx hy)

theorem rel_getElem?_self {α : Type} {r : α → α → Prop} {xs : List α} (h : ∀ x ∈ xs, r x x)
    (i : Nat) : Option.Rel r xs[i]? xs[i]? := by
  cases hx : xs[i]? with
  | none => exact .none
  | some x => exact .some (h x (List.mem_of_getElem? hx))

/-- A rule that acts alike in two texts, if the rules inside it do. -/
theorem Rule.Twin.of_inner {w : Pairing} {rule : Rule} (alike : rule.Alike w rule)
    (inner : ∀ r ∈ rule.inner, r.Twin w r) : rule.Twin w rule := by
  refine .intro alike rfl fun i r r' hr hr' => ?_
  rw [hr] at hr'
  cases hr'
  exact inner r (List.mem_of_getElem? hr)

namespace Rule.Twin

variable {w : Pairing} {rule rule' : Rule} (h : rule.Twin w rule')

include h

theorem alike : rule.Alike w rule' := by
  cases h with
  | intro alike length inner => exact alike

theorem inner (i : Nat) : Option.Rel (Rule.Twin w) rule.inner[i]? rule'.inner[i]? := by
  cases h with
  | intro alike length inner => exact rel_getElem? length inner i

end Rule.Twin

/-- Grammars that act alike. -/
structure Grammar.Twin (w : Pairing) (g g' : Grammar) : Prop where
  rules : ∀ i : Nat, Option.Rel (Rule.Twin w) g.rules[i]? g'.rules[i]?
  scanner : w.Finds g.scanner.find? g'.scanner.find?
  word : w.Finds g.word.findSwept? g'.word.findSwept?
  keyword : ∀ a b, b ≤ w.size →
    g.keywords.find? (w.left.slice a b) = g'.keywords.find? (w.right.slice a b)
  key : ∀ a b, b ≤ w.size →
    g.keywords.key (w.left.slice a b) = g'.keywords.key (w.right.slice a b)

namespace Scan

/-- Regions that are highlighted alike. -/
structure Context.Twin (w : Pairing) (ctx ctx' : Context) : Prop where
  left : ctx.source = w.left
  right : ctx'.source = w.right
  grammar : ctx.grammar.Twin w ctx'.grammar
  language : ∀ name name', w.language name name' →
    Option.Rel (Grammar.Twin w) (ctx.language? name) (ctx'.language? name')
  cap : ctx.cap = ctx'.cap
  stop : ctx.stop = ctx'.stop
  stop_le : ctx.stop ≤ w.size
  base : ctx.base = ctx'.base

structure Frame.Twin (w : Pairing) (frame frame' : Frame) : Prop where
  rule : frame.rule.Twin w frame'.rule
  kind : frame.kind = frame'.kind
  close : frame.close = frame'.close
  /-- A text that closes a scope is looked for only where the texts are the same. -/
  copied : frame.close.isSome → w.SameText

/-- Open scopes of rules that act alike. -/
def Twins (w : Pairing) : List Frame → List Frame → Prop
  | [], [] => True
  | frame :: stack, frame' :: stack' => frame.Twin w frame' ∧ Twins w stack stack'
  | _, _ => False

theorem Twins.length_eq {w : Pairing} {stack stack' : List Frame} (h : Twins w stack stack') :
    stack.length = stack'.length := by
  induction stack generalizing stack' with
  | nil =>
    cases stack' with
    | nil => rfl
    | cons frame' stack' => cases h
  | cons frame stack ih =>
    cases stack' with
    | nil => cases h
    | cons frame' stack' => exact congrArg (· + 1) (ih h.2)

theorem Twins.cons {w : Pairing} {frame frame' : Frame} {stack stack' : List Frame}
    (hframe : frame.Twin w frame') (hstack : Twins w stack stack') :
    Twins w (frame :: stack) (frame' :: stack') := ⟨hframe, hstack⟩

theorem Twins.isEmpty_eq {w : Pairing} {stack stack' : List Frame} (h : Twins w stack stack') :
    stack.isEmpty = stack'.isEmpty := by
  cases stack <;> cases stack' <;> first | rfl | cases h

/-- What is found in the one region is found in the other. -/
theorem Context.Twin.finds {w : Pairing} {ctx ctx' : Context} (h : ctx.Twin w ctx') {α : Type}
    {find? find?' : Haystack → Nat → Option α} (hf : w.Finds find? find?') (p : Nat) :
    find? ctx.haystack p = find?' ctx'.haystack p := by
  have hfind := hf ctx.stop h.stop_le p
  unfold Context.haystack
  rw [h.left, h.right, ← h.stop]
  exact hfind

theorem Context.Twin.embedding {w : Pairing} {ctx ctx' : Context} (h : ctx.Twin w ctx')
    {e : Embedding ctx} {e' : Embedding ctx'} (grammar : e.grammar.Twin w e'.grammar)
    (stop : e.stop = e'.stop) (base : e.base = e'.base) : e.context.Twin w e'.context :=
  { h with
    grammar
    stop
    stop_le := Nat.le_trans e.stop_le h.stop_le
    base }

namespace Frame.Twin

variable {w : Pairing} {frame frame' : Frame} (h : frame.Twin w frame')

include h

theorem finds_literal : w.Finds frame.literalHit? frame'.literalHit? := by
  intro stop hstop p
  unfold literalHit?
  rw [← h.close]
  cases hclose : frame.close with
  | none => rfl
  | some text =>
    exact (h.copied (by rw [hclose]; rfl)).finds_literal text stop hstop p

theorem finds_closing : w.Finds frame.closing? frame'.closing? := by
  intro stop hstop p
  unfold closing?
  rw [← h.close]
  cases hclose : frame.close with
  | none => exact h.rule.alike.closing stop hstop p
  | some text => exact h.finds_literal stop hstop p

end Frame.Twin

namespace State

section Classify

variable {grammar : Grammar} {source : Source} {stop plain position first last : Nat} {s : State}

theorem classifyFrom_of_le (h : stop ≤ position) :
    s.classifyFrom grammar source stop plain position = s.text .plain plain stop := by
  rw [classifyFrom, if_neg (Nat.not_lt.2 h)]

theorem classifyFrom_of_none
    (h : grammar.word.findSwept? ⟨source.chars, stop⟩ position = none) :
    s.classifyFrom grammar source stop plain position = s.text .plain plain stop := by
  rw [classifyFrom]
  split
  · split
    · rfl
    · rename_i hsome
      rw [h] at hsome
      cases hsome
  · rfl

theorem classifyFrom_of_some (hlt : position < stop)
    (h : grammar.word.findSwept? ⟨source.chars, stop⟩ position = some (first, last)) :
    s.classifyFrom grammar source stop plain position =
      (if first < last then s.takeWord grammar source plain first last else (s, plain)).1.classifyFrom
        grammar source stop
        (if first < last then s.takeWord grammar source plain first last else (s, plain)).2
        (pastWord first last) := by
  rw [classifyFrom, if_pos hlt]
  split
  · rename_i hnone
    rw [h] at hnone
    cases hnone
  · rename_i first' last' hsome
    rw [h] at hsome
    cases hsome
    rfl

end Classify

/-- States that are the same, but for the rules of the open scopes and what has been recorded. -/
structure Twin (w : Pairing) (s s' : State) : Prop where
  cursor : s.cursor = s'.cursor
  gap : s.gap = s'.gap
  stack : Twins w s.stack s'.stack
  done : s.done = s'.done
  emitter : s.emitter = s'.emitter
  outcome : s.outcome = s'.outcome
  hits : s.hits = s'.hits

namespace Twin

variable {w : Pairing} {ctx ctx' : Context} {s s' : State}

theorem kind (h : s.Twin w s') : s.kind = s'.kind := by
  have hstack := h.stack
  unfold State.kind
  cases hs : s.stack <;> cases hs' : s'.stack <;> rw [hs, hs'] at hstack
  · cases hstack
  · cases hstack
  · exact hstack.1.kind

section Actions

variable (h : s.Twin w s')

include h

theorem text (kind : Kind) (start stop : Nat) :
    (s.text kind start stop).Twin w (s'.text kind start stop) :=
  { h with emitter := by simp only [State.text, h.emitter] }

theorem atom (kind : Kind) (start stop : Nat) :
    (s.atom kind start stop).Twin w (s'.atom kind start stop) :=
  { h with emitter := by simp only [State.atom, h.emitter] }

theorem flushIf (cut : Bool) : (s.flushIf cut).Twin w (s'.flushIf cut) := by
  cases cut
  · exact h
  · exact { h with emitter := by simp only [State.flushIf, State.flush, ↓reduceIte, h.emitter] }

theorem record (e e' : Event) : (s.record e).Twin w (s'.record e') := { h with }

theorem recordIf (happened happened' : Bool) (e e' : Event) :
    (s.recordIf happened e).Twin w (s'.recordIf happened' e') := by
  cases happened <;> cases happened' <;> exact { h with }

theorem addRelevance (n : Nat) : (s.addRelevance n).Twin w (s'.addRelevance n) :=
  { h with outcome := by simp only [State.addRelevance, h.outcome] }

theorem limitDepth : s.limitDepth.Twin w s'.limitDepth :=
  { h with outcome := by simp only [State.limitDepth, h.outcome] }

theorem advance (position : Nat) : (s.advance position).Twin w (s'.advance position) :=
  { h with cursor := rfl, gap := rfl }

theorem withStack {stack stack' : List Frame} (hstack : Twins w stack stack') :
    (s.withStack stack).Twin w (s'.withStack stack') :=
  { h with stack := hstack }

theorem countKeyword (key : String) (relevance : Nat) :
    (s.countKeyword key relevance).Twin w (s'.countKeyword key relevance) := by
  have hpush : State.Twin w { s with hits := key :: s.hits } { s' with hits := key :: s'.hits } :=
    { h with hits := by simp only [h.hits] }
  unfold State.countKeyword
  simp only [h.hits] at hpush ⊢
  split
  · exact hpush.addRelevance relevance
  · exact hpush

end Actions

theorem takeWord {g g' : Grammar} (hg : g.Twin w g') (h : s.Twin w s') (plain first : Nat)
    {last : Nat} (hlast : last ≤ w.size) :
    (s.takeWord g w.left plain first last).1.Twin w (s'.takeWord g' w.right plain first last).1 ∧
      (s.takeWord g w.left plain first last).2 = (s'.takeWord g' w.right plain first last).2 := by
  unfold State.takeWord
  simp only [hg.keyword first last hlast, hg.key first last hlast]
  cases g'.keywords.find? (w.right.slice first last) with
  | none => exact ⟨h, rfl⟩
  | some entry => exact ⟨((h.text .plain plain first).atom entry.kind first last).countKeyword _ _, rfl⟩

theorem classifyFrom {g g' : Grammar} (hg : g.Twin w g') {stop : Nat} (hstop : stop ≤ w.size)
    (h : s.Twin w s') (plain position : Nat) :
    (s.classifyFrom g w.left stop plain position).Twin w
      (s'.classifyFrom g' w.right stop plain position) := by
  have hword := hg.word stop hstop
  fun_induction s.classifyFrom g w.left stop plain position generalizing s' with
  | case1 s plain position hlt hnone =>
    rw [hword] at hnone
    rw [classifyFrom_of_none hnone]
    exact h.text .plain plain stop
  | case2 s plain position hlt first last hfound t plain' htake ih =>
    obtain ⟨-, -, hlast⟩ := Regex.findSwept?_bounds hfound
    rw [hword] at hfound
    rw [classifyFrom_of_some hlt hfound]
    split at htake
    · rename_i hne
      obtain ⟨htwin, hplain⟩ := takeWord hg h plain first (Nat.le_trans hlast hstop)
      rw [htake] at htwin hplain
      rw [if_pos hne, ← hplain]
      exact ih htwin
    · rename_i hne
      cases htake
      rw [if_neg hne]
      exact ih h
  | case3 s plain position hlt =>
    rw [classifyFrom_of_le (Nat.not_lt.1 hlt)]
    exact h.text .plain plain stop

theorem flushGap (hctx : ctx.Twin w ctx') (h : s.Twin w s') {position : Nat}
    (hp : position ≤ w.size) : (s.flushGap ctx position).Twin w (s'.flushGap ctx' position) := by
  unfold State.flushGap
  rw [h.gap]
  split
  · exact h
  · have hcollected : State.Twin w
        (if s.stack.isEmpty then s.classify ctx s'.gap position else s.text s.kind s'.gap position)
        (if s'.stack.isEmpty then s'.classify ctx' s'.gap position
          else s'.text s'.kind s'.gap position) := by
      rw [h.stack.isEmpty_eq, h.kind]
      split
      · unfold classify
        rw [hctx.left, hctx.right]
        exact classifyFrom hctx.grammar hp h _ _
      · exact h.text _ _ _
    exact { hcollected with gap := rfl }

theorem finish (hctx : ctx.Twin w ctx') (h : s.Twin w s') :
    (s.finish ctx).Twin w (s'.finish ctx') := by
  have hflush : (s.flushGap ctx ctx.stop).Twin w (s'.flushGap ctx' ctx'.stop) :=
    hctx.stop ▸ h.flushGap hctx hctx.stop_le
  unfold State.finish
  rw [h.done]
  split
  · exact h
  · generalize s.flushGap ctx ctx.stop = t at hflush
    generalize s'.flushGap ctx' ctx'.stop = t' at hflush
    have hended : State.Twin w
        (if t.stack.isEmpty then t
          else { t.record (.endedOpen ctx.grammar.name t.stack.length) with
            outcome := { t.outcome with incomplete := true }, stack := [] })
        (if t'.stack.isEmpty then t'
          else { t'.record (.endedOpen ctx'.grammar.name t'.stack.length) with
            outcome := { t'.outcome with incomplete := true }, stack := [] }) := by
      rw [hflush.stack.isEmpty_eq]
      split
      · exact hflush
      · exact { hflush with
          stack := trivial
          outcome := by simp only [hflush.outcome] }
    exact { hended.flushIf true with cursor := hctx.stop, done := rfl }

theorem skipChar (hctx : ctx.Twin w ctx') (h : s.Twin w s') (position : Nat) :
    (s.skipChar ctx position).Twin w (s'.skipChar ctx' position) := by
  unfold State.skipChar
  rw [hctx.stop]
  split
  · exact { h with cursor := rfl }
  · exact h.finish hctx

/-- What comes next is the same. -/
theorem nextHit?_eq (hctx : ctx.Twin w ctx') (h : s.Twin w s') :
    s.nextHit? ctx = s'.nextHit? ctx' := by
  have hstack := h.stack
  unfold State.nextHit?
  rw [h.cursor]
  cases hs : s.stack <;> cases hs' : s'.stack <;> rw [hs, hs'] at hstack
  · exact hctx.finds hctx.grammar.scanner s'.cursor
  · cases hstack
  · cases hstack
  · simp only [hctx.finds hstack.1.finds_literal, hctx.finds hstack.1.rule.alike.scanner]

theorem closeScope (hctx : ctx.Twin w ctx') (h : s.Twin w s') {start : Nat}
    (hstart : start ≤ w.size) (stop : Nat) :
    (s.closeScope ctx start stop).Twin w (s'.closeScope ctx' start stop) := by
  have hflush := h.flushGap hctx hstart
  unfold State.closeScope
  generalize s.flushGap ctx start = t at hflush
  generalize s'.flushGap ctx' start = t' at hflush
  have hstack := hflush.stack
  simp only
  cases ht : t.stack <;> cases ht' : t'.stack <;> rw [ht, ht'] at hstack
  · exact hflush
  · cases hstack
  · cases hstack
  · rename_i frame stack frame' stack'
    obtain ⟨hframe, hrest⟩ := hstack
    have hrule := hframe.rule.alike
    have hopen := hflush.withStack hrest
    simp only [← hrule.kind, ← hrule.closingOutside, ← hframe.kind]
    refine (State.Twin.record ?_ _ _).advance stop
    split
    · rw [hopen.kind]
      exact (hopen.flushIf _).text _ _ _
    · exact (hopen.text _ _ _).flushIf _

theorem markIllegal (hctx : ctx.Twin w ctx') (h : s.Twin w s') {start : Nat}
    (hstart : start ≤ w.size) (stop : Nat) :
    (s.markIllegal ctx start stop).Twin w (s'.markIllegal ctx' start stop) := by
  unfold State.markIllegal
  split
  · exact h.skipChar hctx start
  · have hmark : ∀ {t t' : State}, t.Twin w t' →
        State.Twin w { t with outcome := { t.outcome with illegal := true } }
          { t' with outcome := { t'.outcome with illegal := true } } :=
      fun ht => { ht with outcome := by simp only [ht.outcome] }
    exact ((hmark ((h.recordIf _ _ _ _).flushGap hctx hstart)).text _ _ _).advance stop

theorem takeSingle {rule rule' : Rule} (hkind : rule.kind = rule'.kind) (h : s.Twin w s')
    (start stop : Nat) :
    (s.takeSingle rule start stop).Twin w (s'.takeSingle rule' start stop) := by
  unfold State.takeSingle
  rw [hkind, h.kind]
  simp only
  split
  · exact (h.atom _ _ _).advance stop
  · exact (h.text _ _ _).advance stop

theorem refuse (h : s.Twin w s') (start stop : Nat) :
    (s.refuse ctx start stop).Twin w (s'.refuse ctx' start stop) := by
  unfold State.refuse
  exact { (h.recordIf _ _ _ _).limitDepth with cursor := rfl }

theorem arrive (hctx : ctx.Twin w ctx') {rule rule' : Rule} (hrule : rule.relevance = rule'.relevance)
    (h : s.Twin w s') {start : Nat} (hstart : start ≤ w.size) :
    (s.arrive ctx rule start).Twin w (s'.arrive ctx' rule' start) := by
  unfold State.arrive
  rw [hrule]
  exact (h.flushGap hctx hstart).addRelevance _

theorem frame (hctx : ctx.Twin w ctx') {rule rule' : Rule} (hrule : rule.Twin w rule')
    (h : s.Twin w s') (start : Nat) {stop : Nat} (hstop : stop ≤ w.size) :
    (s.frame ctx rule start stop).Twin w (s'.frame ctx' rule' start stop) := by
  have halike := hrule.alike
  refine ⟨hrule, ?_, ?_, ?_⟩ <;> unfold State.frame
  · simp only [halike.kind, h.kind]
  · cases hending : rule.ending with
    | asOpened =>
      have hending' := halike.asOpened.1 hending
      simp only [hending', hctx.left, hctx.right, (halike.copied hending).extract_eq start hstop]
    | single | pattern source =>
      have hending' : rule'.ending ≠ .asOpened := fun heq => by
        simp [halike.asOpened.2 heq] at hending
      cases he : rule'.ending <;> simp_all
  · cases hending : rule.ending with
    | asOpened => exact fun _ => halike.copied hending
    | single | pattern source => simp

theorem openScope (hctx : ctx.Twin w ctx') {rule rule' : Rule} (hrule : rule.Twin w rule')
    (h : s.Twin w s') (start : Nat) {stop : Nat} (hstop : stop ≤ w.size) :
    (s.openScope ctx rule start stop).Twin w (s'.openScope ctx' rule' start stop) := by
  have hframe := frame hctx hrule h start hstop
  have halike := hrule.alike
  unfold State.openScope
  simp only [← halike.openingOutside, ← halike.kind, ← hframe.kind, ← h.kind]
  have hopened : ∀ {t t' : State}, t.Twin w t' → ∀ e e', State.Twin w
      (((t.record e).withStack (s.frame ctx rule start stop :: t.stack)).advance stop)
      (((t'.record e').withStack (s'.frame ctx' rule' start stop :: t'.stack)).advance stop) :=
    fun ht e e' => ((ht.record e e').withStack (.cons hframe ht.stack)).advance stop
  cases rule.openingOutside with
  | true => exact hopened ((h.text _ _ _).flushIf _) _ _
  | false => exact hopened ((h.flushIf _).text _ _ _) _ _

theorem adopt {inner inner' : Inner} (hinner : inner.spans = inner'.spans)
    (houtcome : inner.outcome = inner'.outcome) (h : s.Twin w s') (kind : Kind) :
    (s.adopt kind inner).Twin w (s'.adopt kind inner') := by
  unfold State.adopt
  rw [hinner, houtcome]
  simp only
  have hfold : ∀ (spans : List Span) {t t' : State}, t.Twin w t' →
      State.Twin w
        (spans.foldl (fun s span => if span.kind = .plain ∨ span.kind = kind then
          s.text kind span.start span.stop else s.atom span.kind span.start span.stop) t)
        (spans.foldl (fun s span => if span.kind = .plain ∨ span.kind = kind then
          s.text kind span.start span.stop else s.atom span.kind span.start span.stop) t') := by
    intro spans
    induction spans with
    | nil => exact fun ht => ht
    | cons span spans ih =>
      intro t t' ht
      simp only [List.foldl_cons]
      apply ih
      split
      · exact ht.text _ _ _
      · exact ht.atom _ _ _
  have hspans := hfold inner'.spans h
  exact { hspans with outcome := by simp only [hspans.outcome] }

/-- What embedded regions come to is the same. -/
def InsideTwin (w : Pairing) {ctx ctx' : Context} (inside : Embedding ctx → Inner)
    (inside' : Embedding ctx' → Inner) : Prop :=
  ∀ (e : Embedding ctx) (e' : Embedding ctx'), e.context.Twin w e'.context → e.start = e'.start →
    (inside e).spans = (inside' e').spans ∧ (inside e).outcome = (inside' e').outcome

variable {inside : Embedding ctx → Inner} {inside' : Embedding ctx' → Inner}

theorem bodyStop_eq (hctx : ctx.Twin w ctx') {frame frame' : Frame} (hframe : frame.Twin w frame')
    (position : Nat) :
    frame.bodyStop ctx.haystack position = frame'.bodyStop ctx'.haystack position := by
  unfold Frame.bodyStop
  rw [hctx.finds hframe.finds_closing, Context.stop_haystack, Context.stop_haystack, hctx.stop]

theorem depth_eq (hctx : ctx.Twin w ctx') (h : s.Twin w s') : s.depth ctx = s'.depth ctx' := by
  unfold depth
  rw [hctx.base, h.stack.length_eq]

theorem collectBody (hctx : ctx.Twin w ctx') (hinside : InsideTwin w inside inside')
    {frame frame' : Frame} (hframe : frame.Twin w frame') {language language' : String}
    (hlanguage : w.language language language') (h : s.Twin w s') (opened : s.stack ≠ [])
    (opened' : s'.stack ≠ []) :
    (s.collectBody ctx inside frame language opened).Twin w
      (s'.collectBody ctx' inside' frame' language' opened') := by
  have hgrammars := hctx.language language language' hlanguage
  have hstop := bodyStop_eq hctx hframe s.cursor
  rw [h.cursor] at hstop
  unfold State.collectBody
  simp only [h.cursor, hstop, ← hframe.kind, h.depth_eq hctx, hctx.cap]
  generalize hg : ctx.language? language = found at hgrammars
  generalize hg' : ctx'.language? language' = found' at hgrammars
  cases hgrammars with
  | none => exact (h.record _ _).text _ _ _
  | some hgrammar =>
    simp only
    split
    · split
      · refine adopt ?_ ?_ h _
        · exact (hinside _ _ (hctx.embedding hgrammar rfl rfl) rfl).1
        · exact (hinside _ _ (hctx.embedding hgrammar rfl rfl) rfl).2
      · exact (h.recordIf _ _ _ _).limitDepth.text _ _ _
    · exact h

theorem embed (hctx : ctx.Twin w ctx') (hinside : InsideTwin w inside inside')
    {frame frame' : Frame} (hframe : frame.Twin w frame') {language language' : String}
    (hlanguage : w.language language language') (h : s.Twin w s') (opened : s.stack ≠ [])
    (opened' : s'.stack ≠ []) :
    (s.embed ctx inside frame language opened).Twin w
      (s'.embed ctx' inside' frame' language' opened') := by
  have hbody := (h.collectBody hctx hinside hframe hlanguage opened opened').advance
    (frame.bodyStop ctx.haystack s.cursor)
  have hclosing := hctx.finds hframe.finds_closing s.cursor
  have hstop := bodyStop_eq hctx hframe s.cursor
  rw [h.cursor] at hclosing hstop hbody
  unfold State.embed
  simp only [h.cursor, hclosing, ← hstop]
  split
  · rename_i first last hc
    obtain ⟨-, hle, hlast⟩ := Frame.closing?_bounds hc
    rw [Context.stop_haystack, ← hctx.stop] at hlast
    exact hbody.closeScope hctx (Nat.le_trans (Nat.le_trans hle hlast) hctx.stop_le) last
  · exact hbody

theorem enterScope (hctx : ctx.Twin w ctx') (hinside : InsideTwin w inside inside')
    {rule rule' : Rule} (hrule : rule.Twin w rule') (h : s.Twin w s') (start : Nat) {stop : Nat}
    (hstop : stop ≤ w.size) :
    (s.enterScope ctx inside rule start stop).Twin w
      (s'.enterScope ctx' inside' rule' start stop) := by
  have hopen := h.openScope hctx hrule start hstop
  have hframe := frame hctx hrule h start hstop
  have hlanguage := hrule.alike.language
  unfold State.enterScope
  generalize rule.language = name at hlanguage
  generalize rule'.language = name' at hlanguage
  cases hlanguage with
  | none => exact hopen
  | some hlanguage => exact hopen.embed hctx hinside hframe hlanguage _ _

theorem takeRule (hctx : ctx.Twin w ctx') (hinside : InsideTwin w inside inside')
    {rule rule' : Rule} (hrule : rule.Twin w rule') (h : s.Twin w s') {start stop : Nat}
    (hstart : start ≤ w.size) (hstop : stop ≤ w.size) :
    (s.takeRule ctx inside rule start stop).Twin w
      (s'.takeRule ctx' inside' rule' start stop) := by
  have halike := hrule.alike
  unfold State.takeRule
  rw [← halike.opensScope, h.depth_eq hctx, hctx.cap]
  split
  · exact (h.record _ _).skipChar hctx start
  · split
    · exact h.refuse start stop
    · have harrive := arrive hctx halike.relevance h hstart
      simp only
      split
      · exact harrive.enterScope hctx hinside hrule start hstop
      · exact harrive.takeSingle halike.kind start stop

theorem rules (hctx : ctx.Twin w ctx') (h : s.Twin w s') (i : Nat) :
    Option.Rel (Rule.Twin w) (s.rules ctx)[i]? (s'.rules ctx')[i]? := by
  have hstack := h.stack
  unfold State.rules
  cases hs : s.stack <;> cases hs' : s'.stack <;> rw [hs, hs'] at hstack
  · exact hctx.grammar.rules i
  · cases hstack
  · cases hstack
  · exact hstack.1.rule.inner i

/-- Steps side by side. -/
theorem step (hctx : ctx.Twin w ctx') (hinside : InsideTwin w inside inside') (h : s.Twin w s') :
    (s.step ctx inside).Twin w (s'.step ctx' inside') := by
  unfold State.step
  rw [h.nextHit?_eq hctx]
  cases hhit : s'.nextHit? ctx' with
  | none => exact h.finish hctx
  | some found =>
    obtain ⟨hit, start, stop⟩ := found
    obtain ⟨-, hle, hstop⟩ := nextHit?_bounds hhit
    rw [← hctx.stop] at hstop
    have hstop := Nat.le_trans hstop hctx.stop_le
    have hstart := Nat.le_trans hle hstop
    cases hit with
    | closing => exact h.closeScope hctx hstart stop
    | illegal => exact h.markIllegal hctx hstart stop
    | rule index =>
      have hrules := h.rules hctx index
      simp only
      generalize (s.rules ctx)[index]? = found at hrules
      generalize (s'.rules ctx')[index]? = found' at hrules
      cases hrules with
      | none => exact h.finish hctx
      | some hrule => exact h.takeRule hctx hinside hrule hstart hstop

/-- Runs side by side. -/
theorem drain (hctx : ctx.Twin w ctx') (hinside : InsideTwin w inside inside') (found : Array Span)
    (s : State) : ∀ s' : State, s.Twin w s' →
      (s.drain ctx inside found).1 = (s'.drain ctx' inside' found).1 ∧
        (s.drain ctx inside found).2.outcome = (s'.drain ctx' inside' found).2.outcome := by
  fun_induction s.drain ctx inside found with
  | case1 found s found' hdone =>
    intro s' h
    rw [drain_of_done inside' found (h.done ▸ hdone)]
    exact ⟨by simp only [found', h.emitter], h.outcome⟩
  | case2 found s found' hdone ih =>
    intro s' h
    have hempty : s.emptied.Twin w s'.emptied :=
      { h with emitter := by simp only [emptied, h.emitter] }
    have hgoing : s'.done = false := h.done ▸ Bool.eq_false_iff.2 hdone
    have hnext := ih _ (hempty.step hctx hinside)
    simp only [found', h.emitter] at hnext ⊢
    rw [drain_of_going inside' found hgoing]
    exact hnext

end Twin

end State

/-- Regions that are highlighted alike come to the same spans and the same outcome. -/
theorem region_eq_of_twin {w : Pairing} {ctx ctx' : Context} (h : ctx.Twin w ctx') (start : Nat) :
    (region ctx start).spans = (region ctx' start).spans ∧
      (region ctx start).outcome = (region ctx' start).outcome := by
  have hinside : State.Twin.InsideTwin w ctx.inside ctx'.inside := by
    intro e e' he hstart
    have := e.lt_base
    have := e.base_lt_cap
    unfold Context.inside
    rw [← hstart]
    exact region_eq_of_twin he e.start
  have hstart : (State.start start).Twin w (State.start start) :=
    ⟨rfl, rfl, trivial, rfl, rfl, rfl, rfl⟩
  obtain ⟨hspans, houtcome⟩ := State.Twin.drain h hinside #[] _ _ hstart
  rw [region_eq, region_eq]
  exact ⟨congrArg Array.toList hspans, houtcome⟩
termination_by ctx.cap - ctx.base
decreasing_by
  simp only [Embedding.context]
  omega

end Scan

end Highlighter
