import Highlighter.Proofs.Caseless.Sets
import Highlighter.Proofs.Reading.Joined

/-!
Reading a pattern in which the flag `i` stays on. Every set that is read under the flag disregards
case: a character is closed under case, a bracketed class is when it is closed, and the classes that
have a letter for a name, and the full stop, hold both cases of a letter or neither. So all that has
been read does, in the group that is open, in those around it, and in the repetition being read.
-/

namespace Highlighter.Regex.Reader

/-- Whether the flag `i` is on in all states that reading some characters goes through. -/
def keepsCaseless (s : Reader) : List Char → Bool
  | [] => s.flags.caseless
  | c :: cs => s.flags.caseless && (s.step? c).all (·.keepsCaseless cs)

/-- The flag stays on just if it is on behind everything that the characters begin with. -/
theorem keepsCaseless_iff {s : Reader} {cs : List Char} : s.keepsCaseless cs = true ↔
    ∀ front t, front <+: cs → front.foldlM step? s = some t → t.flags.caseless = true := by
  induction cs generalizing s with
  | nil =>
    simp only [keepsCaseless, List.prefix_nil]
    refine ⟨fun h front t hfront ht => ?_, fun h => h [] s rfl rfl⟩
    subst hfront
    cases ht
    exact h
  | cons c cs ih =>
    rw [keepsCaseless, Bool.and_eq_true]
    constructor
    · rintro ⟨hi, hrest⟩ front t hfront ht
      cases front with
      | nil =>
        cases ht
        exact hi
      | cons d front =>
        obtain ⟨rfl, htail⟩ := List.cons_prefix_cons.1 hfront
        rw [List.foldlM_cons] at ht
        obtain ⟨u, hu, ht⟩ := Option.bind_eq_some_iff.1 ht
        rw [hu] at hrest
        exact ih.1 hrest front t htail ht
    · intro h
      refine ⟨h [] s (List.nil_prefix ..) rfl, ?_⟩
      cases hu : s.step? c with
      | none => rfl
      | some u =>
        refine ih.2 fun front t hfront ht => h (c :: front) t ?_ ?_
        · exact List.cons_prefix_cons.2 ⟨rfl, hfront⟩
        · rw [List.foldlM_cons, hu]
          exact ht

namespace InClass

/-- A bracketed class that, if it is closed, disregards case. -/
def IgnoresCase : InClass → Prop
  | closed set _ => set.IgnoresCase
  | inside .. | escape _ => True

end InClass

section Classes

variable {open_ : List Bracket} {low : Atom} {c : Char} {x : InClass}

theorem ignoresCase_chosen (negated : Bool) (set : CharSet) :
    (Bracket.chosen true negated set).IgnoresCase := by
  cases negated
  · exact CharSet.ignoresCase_caseless set
  · exact (CharSet.ignoresCase_caseless set).compl

theorem ignoresCase_betweenMembers (open_ : List Bracket) (c : Char) :
    (betweenMembers true open_ c).IgnoresCase := by
  unfold betweenMembers
  split
  · trivial
  · exact ignoresCase_chosen _ _
  · trivial
  · trivial
  · split <;> trivial

theorem ignoresCase_afterAtom? (h : afterAtom? true open_ low c = some x) : x.IgnoresCase := by
  unfold afterAtom? at h
  split at h
  · cases h
    trivial
  · obtain ⟨open_, -, rfl⟩ := Option.map_eq_some_iff.1 h
    exact ignoresCase_betweenMembers open_ c

theorem ignoresCase_applyOperator (caseless : Bool) (open_ : List Bracket) (op : SetOp) :
    (applyOperator caseless open_ op).IgnoresCase := by
  unfold applyOperator
  split <;> trivial

theorem ignoresCase_upperEnd? (h : upperEnd? open_ low c = some x) : x.IgnoresCase := by
  unfold upperEnd? at h
  split at h
  · cases h
    trivial
  · obtain ⟨open_, -, rfl⟩ := Option.map_eq_some_iff.1 h
    trivial

theorem ignoresCase_afterHyphen? {blanks spaced hash inComment : Bool}
    (h : afterHyphen? true blanks open_ low spaced hash inComment c = some x) :
    x.IgnoresCase := by
  unfold afterHyphen? at h
  split at h
  · cases h
    trivial
  · split at h
    · cases h
      trivial
    · split at h
      · obtain ⟨open_, -, h⟩ := Option.bind_eq_some_iff.1 h
        split at h
        · cases h
          exact ignoresCase_applyOperator ..
        · split at h
          · cases h
            trivial
          · exact ignoresCase_afterAtom? h
      · split at h
        · cases h
          trivial
        · exact ignoresCase_upperEnd? h

theorem ignoresCase_startMembers (h : inClass?.startMembers true open_ c = some x) :
    x.IgnoresCase := by
  unfold inClass?.startMembers at h
  split at h
  · obtain ⟨open_, -, rfl⟩ := Option.map_eq_some_iff.1 h
    trivial
  · split at h
    · obtain ⟨open_, -, rfl⟩ := Option.map_eq_some_iff.1 h
      trivial
    · cases h
      exact ignoresCase_betweenMembers open_ c

/-- A class that is closed under the flag disregards case, whatever its members are. -/
theorem ignoresCase_inClass? {blanks : Bool} {place : Place}
    (h : inClass? true blanks open_ place c = some x) : x.IgnoresCase := by
  unfold inClass? at h
  cases place with
  | opening =>
    dsimp only at h
    split at h
    · split at h
      · cases h
        trivial
      · cases h
    · exact ignoresCase_startMembers h
  | negating => exact ignoresCase_startMembers h
  | hyphens =>
    dsimp only at h
    split at h
    · obtain ⟨open_, -, rfl⟩ := Option.map_eq_some_iff.1 h
      trivial
    · cases h
      exact ignoresCase_betweenMembers open_ c
  | members =>
    cases h
    exact ignoresCase_betweenMembers open_ c
  | doubling d =>
    dsimp only at h
    split at h
    · cases h
      exact ignoresCase_applyOperator ..
    · exact ignoresCase_afterAtom? h
  | after low => exact ignoresCase_afterAtom? h
  | ranging low spaced hash inComment => exact ignoresCase_afterHyphen? h
  | upper low => exact ignoresCase_upperEnd? h
  | naming read => cases h

theorem ignoresCase_inClassName? {caseless : Bool} {read : List Char}
    (h : inClassName? caseless open_ read c = some x) : x.IgnoresCase := by
  unfold inClassName? at h
  dsimp only at h
  split at h
  · obtain ⟨open_, -, rfl⟩ := Option.map_eq_some_iff.1 h
    trivial
  · cases h
    trivial

end Classes

theorem ignoresCase_dot (flags : Flags) : (dot flags).IgnoresCase := by
  have hline : CharSet.IgnoresCase (.one '\n') := CharSet.ignoresCase_one (by decide)
  have hreturn : CharSet.IgnoresCase (.one '\r') := CharSet.ignoresCase_one (by decide)
  unfold dot
  split
  · exact CharSet.ignoresCase_all
  · split
    · exact (hreturn.union hline).compl
    · exact hline.compl

/-- The atom of an escape is a character, a condition, or a set that disregards case. -/
theorem ignoresCase_escaped? {c : Char} {set : CharSet} (h : escaped? c = some (.set set)) :
    set.IgnoresCase := by
  unfold escaped? at h
  split at h
  · cases h
    exact CharSet.ignoresCase_digit
  · cases h
    exact CharSet.ignoresCase_space
  · cases h
    exact CharSet.ignoresCase_word
  · cases h
    exact CharSet.ignoresCase_digit.compl
  · cases h
    exact CharSet.ignoresCase_space.compl
  · cases h
    exact CharSet.ignoresCase_word.compl
  case h_19 =>
    split at h <;> cases h
  all_goals cases h

/-- Some items that hold nothing but expressions that disregard case. -/
def ItemsIgnoreCase (items : List Item) : Prop :=
  ∀ item ∈ items, ∀ r, item.regex? = some r → r.IgnoresCase

/-- Some branches that disregard case. -/
def BranchesIgnoreCase (branches : List Piece) : Prop := ∀ p ∈ branches, p.regex.IgnoresCase

/-- A repetition being read has a body that disregards case. -/
def Mode.IgnoresCase : Mode → Prop
  | repeated body _ _ _ | lower body _ _ | comma body _ | upper body _ _ _ => body.regex.IgnoresCase
  | _ => True

/-- A reader that has read nothing but what disregards case, and does so where it stands. -/
structure IgnoresCase (s : Reader) : Prop where
  items : ItemsIgnoreCase s.items
  branches : BranchesIgnoreCase s.branches
  groups : ∀ g ∈ s.groups, ItemsIgnoreCase g.items ∧ BranchesIgnoreCase g.branches
  mode : s.mode.IgnoresCase

theorem ignoresCase_sequenceOf {items : List Item} (h : ItemsIgnoreCase items) :
    (sequenceOf items).regex.IgnoresCase := by
  refine ignoresCase_sequence fun r hr => ?_
  obtain ⟨item, hitem, hregex⟩ := List.mem_filterMap.1 hr
  exact h item (List.mem_reverse.1 hitem) r hregex

theorem flags_settle (s : Reader) (c : Char) : (s.settle c).flags = s.flags := by
  unfold settle
  split
  · split <;> rfl
  · split <;> rfl
  · split <;> rfl
  · split <;> rfl
  · rfl

variable {s t : Reader} {c : Char}

namespace IgnoresCase

theorem inner (h : s.IgnoresCase) : s.inner.regex.IgnoresCase := by
  refine ignoresCase_factored fun r hr => ?_
  obtain ⟨p, hp, rfl⟩ := List.mem_map.1 hr
  rcases List.mem_cons.1 (List.mem_reverse.1 hp) with rfl | hp
  · exact ignoresCase_sequenceOf h.items
  · exact h.branches p hp

/-- Where the reader goes on with other things than a repetition. -/
theorem withMode (h : s.IgnoresCase) {mode : Mode} {inComment : Bool} (hmode : mode.IgnoresCase) :
    IgnoresCase { s with mode, inComment } := { h with mode := hmode }

theorem push (h : s.IgnoresCase) {r : Regex} (hr : r.IgnoresCase) (depth : Nat) :
    (s.push r depth).IgnoresCase where
  items := by
    refine List.forall_mem_cons.2 ⟨fun r' hr' => ?_, h.items⟩
    cases hr'
    exact hr
  branches := h.branches
  groups := h.groups
  mode := trivial

theorem pushSet (h : s.IgnoresCase) {set : CharSet} (hset : set.IgnoresCase) (depth : Nat) :
    (s.push (.char set) depth).IgnoresCase := h.push (r := .char set) hset depth

theorem pushAnchor (h : s.IgnoresCase) (a : Anchor) : (s.push (.look a)).IgnoresCase :=
  h.push (r := .look a) trivial 0

theorem pushRepeated (h : s.IgnoresCase) {body : Piece} (hbody : body.regex.IgnoresCase) (low : Nat)
    (high : Option Nat) (isLazy : Bool) : (s.pushRepeated body low high isLazy).IgnoresCase :=
  h.push (hbody.bounded _ low high) _

theorem popPiece? (h : s.IgnoresCase) {p : Piece} (hpop : s.popPiece? = some (p, t)) :
    p.regex.IgnoresCase ∧ t.IgnoresCase := by
  unfold Reader.popPiece? at hpop
  split at hpop
  · rename_i p items hitems
    cases hpop
    have hall := h.items
    rw [hitems] at hall
    obtain ⟨hp, hrest⟩ := List.forall_mem_cons.1 hall
    exact ⟨hp _ rfl, { h with items := hrest }⟩
  · cases hpop

theorem repeat? (h : s.IgnoresCase) {low : Nat} {high : Option Nat}
    (ht : s.repeat? low high = some t) : t.IgnoresCase := by
  obtain ⟨⟨p, u⟩, hpop, rfl⟩ := Option.map_eq_some_iff.1 ht
  obtain ⟨hp, hu⟩ := h.popPiece? hpop
  exact hu.withMode hp

theorem openGroup (h : s.IgnoresCase) (capture : Capture) (flags : Flags) :
    (s.openGroup capture flags).IgnoresCase where
  items := fun _ hitem => nomatch hitem
  branches := fun _ hp => nomatch hp
  groups := List.forall_mem_cons.2 ⟨⟨h.items, h.branches⟩, h.groups⟩
  mode := trivial

theorem closeGroup? (h : s.IgnoresCase) (ht : s.closeGroup? = some t) : t.IgnoresCase := by
  unfold Reader.closeGroup? at ht
  split at ht
  · cases ht
  · rename_i g groups hgroups
    cases ht
    have hall := h.groups
    rw [hgroups] at hall
    obtain ⟨hg, hrest⟩ := List.forall_mem_cons.1 hall
    have hinner := h.inner
    refine push (s := { s with flags := g.flags, groups, branches := g.branches, items := g.items })
      { h with items := hg.1, branches := hg.2, groups := hrest } ?_ _
    split <;> exact hinner

section Caseless

variable (h : s.IgnoresCase) (hi : s.flags.caseless = true)

include hi

theorem charPiece (c : Char) : (s.charPiece c).IgnoresCase := by
  unfold Reader.charPiece
  rw [hi, if_pos rfl]
  exact (CharSet.ignoresCase_caseless _).tidied

theorem atomPiece {a : Atom} (ha : ∀ set, a = .set set → set.IgnoresCase) :
    (s.atomPiece a).IgnoresCase := by
  cases a with
  | char c => exact charPiece hi c
  | set set => exact ha set rfl
  | anchor a => trivial

include h

theorem ready? (ht : s.ready? c = some t) : t.IgnoresCase := by
  unfold Reader.ready? at ht
  split at ht
  · cases ht
    exact h.withMode trivial
  · exact h.closeGroup? ht
  · cases ht
    exact {
      items := fun _ hitem => nomatch hitem
      branches := List.forall_mem_cons.2 ⟨ignoresCase_sequenceOf h.items, h.branches⟩
      groups := h.groups
      mode := trivial }
  · cases ht
    exact h.withMode trivial
  · exact h.repeat? ht
  · exact h.repeat? ht
  · exact h.repeat? ht
  · obtain ⟨⟨p, u⟩, hpop, rfl⟩ := Option.map_eq_some_iff.1 ht
    obtain ⟨hp, hu⟩ := h.popPiece? hpop
    exact hu.withMode hp
  · cases ht
    exact h.withMode trivial
  · cases ht
    exact h.pushSet (ignoresCase_dot _) _
  · cases ht
    exact h.pushAnchor _
  · cases ht
    exact h.pushAnchor _
  · cases ht
    exact h.push (charPiece hi c) _

theorem place? {site : Site} {a : Atom} (ha : ∀ set, a = .set set → set.IgnoresCase)
    (ht : s.place? site a = some t) : t.IgnoresCase := by
  unfold Reader.place? at ht
  split at ht
  · cases ht
    exact h.push (atomPiece hi ha) _
  · cases ht
  · cases ht
    exact h.withMode trivial
  · obtain ⟨open_, -, rfl⟩ := Option.map_eq_some_iff.1 ht
    exact h.withMode trivial

theorem hexDigit? {site : Site} {missing value : Nat}
    (ht : s.hexDigit? site missing value c = some t) : t.IgnoresCase := by
  obtain ⟨d, -, ht⟩ := Option.bind_eq_some_iff.1 ht
  dsimp only at ht
  split at ht
  · obtain ⟨c, -, ht⟩ := Option.bind_eq_some_iff.1 ht
    exact h.place? hi (fun _ hset => by cases hset) ht
  · cases ht
    exact h.withMode trivial

end Caseless

theorem lower? (h : s.IgnoresCase) {body : Piece} (hbody : body.regex.IgnoresCase)
    {digits : List Char} {ended : Bool} (ht : s.lower? body digits ended c = some t) :
    t.IgnoresCase := by
  unfold Reader.lower? at ht
  split at ht
  · cases ht
    exact h.withMode hbody
  · split at ht
    · cases ht
      exact h.withMode hbody
    · obtain ⟨low, -, ht⟩ := Option.bind_eq_some_iff.1 ht
      split at ht
      · cases ht
        exact h.withMode hbody
      · split at ht
        · cases ht
          exact h.withMode hbody
        · cases ht

theorem upper? (h : s.IgnoresCase) {body : Piece} (hbody : body.regex.IgnoresCase) {low : Nat}
    {digits : List Char} {ended : Bool} (ht : s.upper? body low digits ended c = some t) :
    t.IgnoresCase := by
  unfold Reader.upper? at ht
  split at ht
  · cases ht
    exact h.withMode hbody
  · split at ht
    · cases ht
      exact h.withMode hbody
    · obtain ⟨high, -, ht⟩ := Option.bind_eq_some_iff.1 ht
      split at ht
      · cases ht
        exact h.withMode hbody
      · cases ht

theorem flag? (h : s.IgnoresCase) {flags : Flags} {letters : List Char} {off dangling : Bool}
    (ht : s.flag? flags letters off dangling c = some t) : t.IgnoresCase := by
  unfold Reader.flag? at ht
  split at ht
  · split at ht
    · cases ht
    · cases ht
      exact h.openGroup _ _
  · split at ht
    · split at ht
      · cases ht
      · cases ht
        exact { h with
          items := List.forall_mem_cons.2 ⟨(fun _ hr => nomatch hr), h.items⟩
          mode := trivial }
    · split at ht
      · split at ht
        · cases ht
        · cases ht
          exact h.withMode trivial
      · split at ht
        · cases ht
        · obtain ⟨flags, -, rfl⟩ := Option.map_eq_some_iff.1 ht
          exact h.withMode trivial

theorem groupName? (h : s.IgnoresCase) {read : List Char} (ht : s.groupName? read c = some t) :
    t.IgnoresCase := by
  unfold Reader.groupName? at ht
  split at ht
  · dsimp only at ht
    split at ht
    · cases ht
    · cases ht
      exact h.openGroup _ _
  · split at ht
    · cases ht
      exact h.withMode trivial
    · cases ht

theorem bracketed (h : s.IgnoresCase) {x : InClass} (hx : x.IgnoresCase) :
    (s.bracketed x).IgnoresCase := by
  cases x with
  | inside open_ place inComment => exact h.withMode trivial
  | escape site => exact h.withMode trivial
  | closed set depth => exact h.pushSet (CharSet.IgnoresCase.tidied hx) _

/-- What is settled disregards case. -/
theorem settle (h : s.IgnoresCase) (c : Char) : (s.settle c).IgnoresCase := by
  have hmode := h.mode
  unfold Reader.settle
  split
  · rename_i hm
    rw [hm] at hmode
    split
    · exact h
    · exact h.pushRepeated hmode _ _ _
  · split
    · exact h
    · exact h.pushAnchor _
  · split
    · exact h
    · exact h.withMode trivial
  · split
    · exact h
    · exact h.withMode trivial
  · exact h

theorem take? (h : s.IgnoresCase) (hi : s.flags.caseless = true) (ht : s.take? c = some t) :
    t.IgnoresCase := by
  have hmode := h.mode
  unfold Reader.take? at ht
  cases hm : s.mode <;> rw [hm] at ht hmode <;> try dsimp only at ht
  case ready => exact h.ready? hi ht
  case repeated body low high spaced =>
    split at ht
    · cases ht
      exact h.pushRepeated hmode _ _ _
    · exact (h.pushRepeated hmode _ _ _).ready? hi ht
  case lower body digits ended => exact h.lower? hmode ht
  case comma body low =>
    split at ht
    · cases ht
      exact h.withMode hmode
    · exact h.upper? hmode ht
  case upper body low digits ended => exact h.upper? hmode ht
  case group =>
    split at ht
    · cases ht
      exact h.withMode trivial
    · exact (h.openGroup _ _).ready? hi ht
  case groupMark =>
    split at ht
    · cases ht
      exact h.withMode trivial
    · split at ht
      · cases ht
        exact h.withMode trivial
      · exact h.flag? ht
  case groupLetter =>
    split at ht
    · cases ht
      exact h.withMode trivial
    · cases ht
  case groupAngle => exact h.groupName? ht
  case groupName read => exact h.groupName? ht
  case flagList flags letters off dangling => exact h.flag? ht
  case escape site =>
    split at ht
    · cases ht
      exact h.withMode trivial
    · split at ht
      · cases ht
        exact h.withMode trivial
      · obtain ⟨a, ha, ht⟩ := Option.bind_eq_some_iff.1 ht
        exact h.place? hi (fun _ hset => ignoresCase_escaped? (hset ▸ ha)) ht
  case hexStart site width =>
    split at ht
    · cases ht
      exact h.withMode trivial
    · exact h.hexDigit? hi ht
  case hexDigits site missing value => exact h.hexDigit? hi ht
  case hexBraced site bare value =>
    split at ht
    · split at ht
      · cases ht
      · obtain ⟨c, -, ht⟩ := Option.bind_eq_some_iff.1 ht
        exact h.place? hi (fun _ hset => by cases hset) ht
    · obtain ⟨d, -, rfl⟩ := Option.map_eq_some_iff.1 ht
      exact h.withMode trivial
  case edge =>
    cases ht
    exact h.withMode trivial
  case edgeBrace =>
    split at ht
    · cases ht
      exact h.withMode trivial
    · refine h.lower? ?_ ht
      trivial
  case edgeName read =>
    split at ht
    · cases ht
      exact h.withMode trivial
    · split at ht
      · obtain ⟨a, -, rfl⟩ := Option.map_eq_some_iff.1 ht
        exact h.pushAnchor a
      · cases ht
  case bracket open_ place =>
    rw [hi] at ht
    cases place with
    | naming read =>
      obtain ⟨x, hx, rfl⟩ := Option.map_eq_some_iff.1 ht
      exact h.bracketed (ignoresCase_inClassName? hx)
    | _ =>
      obtain ⟨x, hx, rfl⟩ := Option.map_eq_some_iff.1 ht
      exact h.bracketed (ignoresCase_inClass? hx)

/-- What is read in one step under the flag disregards case. -/
theorem step? (h : s.IgnoresCase) (hi : s.flags.caseless = true) (ht : s.step? c = some t) :
    t.IgnoresCase := by
  have hsettle := h.settle c
  unfold Reader.step? at ht
  split at ht
  · cases ht
    exact h.withMode h.mode
  · dsimp only at ht
    split at ht
    · cases ht
      exact hsettle.withMode hsettle.mode
    · exact hsettle.take? (s.flags_settle c ▸ hi) ht

/-- What is read while the flag stays on disregards case. -/
theorem foldlM {cs : List Char} (h : s.IgnoresCase) (hkeeps : s.keepsCaseless cs = true)
    (ht : cs.foldlM Reader.step? s = some t) : t.IgnoresCase := by
  induction cs generalizing s with
  | nil =>
    cases ht
    exact h
  | cons c cs ih =>
    rw [keepsCaseless, Bool.and_eq_true] at hkeeps
    rw [List.foldlM_cons] at ht
    obtain ⟨u, hu, ht⟩ := Option.bind_eq_some_iff.1 ht
    have hrest := hkeeps.2
    rw [hu] at hrest
    exact ih (h.step? hkeeps.1 hu) hrest ht

theorem complete (h : s.IgnoresCase) : s.complete.IgnoresCase := by
  have hmode := h.mode
  unfold Reader.complete
  split
  · rename_i hm
    rw [hm] at hmode
    exact h.pushRepeated hmode _ _ _
  · exact h.pushAnchor _
  · exact h

end IgnoresCase

theorem ignoresCase_fresh (flags : Flags) : (fresh flags).IgnoresCase where
  items := fun _ hitem => nomatch hitem
  branches := fun _ hp => nomatch hp
  groups := fun _ hg => nomatch hg
  mode := trivial

end Highlighter.Regex.Reader

namespace Highlighter.Alternative

open Regex.Reader

/-- Whether a pattern that is read under the flag `i` never turns it off. -/
def staysCaseless (pattern : String) : Bool := (fresh (modes true)).keepsCaseless pattern.toList

example : staysCaseless "(?i)a|[a-z](?-s:.)" = true ∧ staysCaseless "a(?-i:b)" = false := by
  decide

/-- An alternative that matches letters in either case. -/
structure IgnoresCase (a : Alternative) : Prop where
  whole : a.IsWhole
  regex : a.regex.IgnoresCase

/-- A pattern that stands alone and leaves the flag on matches letters in either case. -/
theorem StandsAlone.ignoresCase {a : Alternative} (alone : a.StandsAlone)
    (caseless : a.caseless = true) (stays : staysCaseless a.pattern = true) : a.IgnoresCase := by
  obtain ⟨t, hread, hended, hregex⟩ := alone.isWhole
  rw [caseless] at hread
  refine ⟨alone.isWhole, hregex ▸ Regex.ignoresCase_factored (List.forall_mem_singleton.2 ?_)⟩
  exact ((ignoresCase_fresh _).foldlM stays hread).complete.inner

end Highlighter.Alternative
