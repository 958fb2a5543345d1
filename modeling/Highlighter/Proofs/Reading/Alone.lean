import Highlighter.Grammar.Scanner
import Highlighter.Proofs.Reading.Choices
import Highlighter.Proofs.Reading.Within

/-!
The pattern of a rule, read in the group of the rule and read by itself. The two come to the same,
unless the pattern has a parenthesis that closes the group around it: then it may be read in the
group, but is no pattern by itself.
-/

namespace Highlighter

namespace Regex.Reader

/-- The reader when a text is at its end and what it ends in is settled. -/
def complete (s : Reader) : Reader :=
  match s.mode with
  | .repeated body low high _ => s.pushRepeated body low high false
  | .edge => s.push (.look .wordEdge)
  | _ => s

theorem finish?_eq (s : Reader) :
    s.finish? = if s.complete.mode == .ready && s.complete.groups.isEmpty &&
      s.complete.inner.depth ≤ maxDepth then some s.complete.inner.regex else none := rfl

theorem groups_complete (s : Reader) : s.complete.groups = s.groups := by
  unfold complete
  split <;> rfl

theorem inComment_complete (s : Reader) : s.complete.inComment = s.inComment := by
  unfold complete
  split <;> rfl

theorem complete_within (s : Reader) (groups : List Group) (names : List String) :
    (s.within groups names).complete = s.complete.within groups names := by
  have hmode : (s.within groups names).mode = s.mode := rfl
  unfold complete
  rw [hmode]
  split <;> rfl

/-- What can be finished leaves no group open. -/
theorem of_finish? {s : Reader} {r : Regex} (h : s.finish? = some r) :
    s.groups = [] ∧ s.complete.mode = .ready ∧ r = s.complete.inner.regex := by
  rw [finish?_eq] at h
  split at h
  · rename_i hok
    simp only [Bool.and_eq_true, beq_iff_eq, List.isEmpty_iff] at hok
    cases h
    exact ⟨s.groups_complete ▸ hok.1.2, hok.1.1, rfl⟩
  · cases h

theorem ready_complete_congr {s t : Reader} (h : s.bare = t.bare) (hs : s.complete.mode = .ready) :
    t.complete.mode = .ready := by
  have hmode : s.mode.bare = t.mode.bare := congrArg (·.mode) h
  unfold complete at hs ⊢
  cases hm : s.mode <;> cases ht : t.mode <;> simp_all [Mode.bare, pushRepeated, push]

theorem mode_complete_eq_ready_iff {s : Reader} :
    s.complete.mode = .ready ↔ s.mode.ends = true := by
  unfold complete
  cases hm : s.mode <;> simp [Mode.ends, pushRepeated, push, hm]

/-- A character that does not go on with what stands in front of it is read once that is settled. -/
theorem step?_eq_ready? {s : Reader} {c : Char} (hcomment : s.inComment = false)
    (hmode : s.complete.mode = .ready) (hblank : (Text.isSpace c || c == '#') = false)
    (hlazy : c ≠ '?') (hbrace : c ≠ '\x7b') : s.step? c = s.complete.ready? c := by
  have hstep : s.step? c = (s.settle c).take? c := by
    simp [step?, hcomment, hblank]
  rw [hstep]
  obtain ⟨flags, groups, branches, items, names, inComment, mode⟩ := s
  cases mode with
  | ready => rfl
  | repeated body low high spaced =>
    cases spaced <;> simp [settle, take?, complete, hlazy, pushRepeated, push]
  | edge => simp [settle, take?, complete, hbrace, push]
  | _ => cases hmode

/-- A parenthesis closes the innermost group, once what stands in front of it is settled. -/
theorem step?_close {s : Reader} (hc : s.inComment = false) (hm : s.complete.mode = .ready) :
    s.step? ')' = s.complete.closeGroup? :=
  step?_eq_ready? hc hm (by decide +kernel) (by decide) (by decide)

/-- What a group makes of its body. -/
def Capture.wrap : Capture → Regex → Regex
  | .nothing, r => r
  | .unnamed, r => .group none r
  | .named name, r => .group (some name) r

theorem closeGroup?_within {s : Reader} (h : s.groups = []) (g : Group) (groups : List Group)
    (names : List String) :
    (s.within (g :: groups) names).closeGroup? =
      some ⟨g.flags, groups, g.branches,
        .piece ⟨g.capture.wrap s.inner.regex, s.inner.depth + 1⟩ :: g.items, s.names ++ names,
        s.inComment, .ready⟩ := by
  unfold closeGroup? within
  simp only [h, List.nil_append]
  cases g.capture <;> rfl

/-- A reader that has read nothing yet. -/
def fresh (flags : Flags) : Reader := ⟨flags, [], [], [], [], false, .ready⟩

end Regex.Reader

namespace Alternative

open Regex.Reader

/-- The flags under which lines are seen. -/
def lineModes : Flags := { multiLine := true, crlf := true }

/-- The flags under which the pattern of a rule is read. -/
def modes (caseless : Bool) : Flags := { lineModes with caseless }

theorem foldlM_groupStart (caseless : Bool) (groups : List Group) (branches : List Piece)
    (items : List Item) (names : List String) :
    (groupStart caseless).toList.foldlM step?
        ⟨lineModes, groups, branches, items, names, false, .ready⟩ =
      some ((fresh (modes caseless)).within (⟨.nothing, lineModes, branches, items⟩ :: groups)
        names) := by
  cases caseless <;> rfl

theorem foldlM_lineFlags :
    lineFlags.toList.foldlM step? Regex.Reader.start =
      some ⟨lineModes, [], [], [.directive], [], false, .ready⟩ := rfl

/-- What is left of a pattern behind its last character: no group is open and no comment, and what
it ends in can be settled. -/
structure Ended (t : Regex.Reader) : Prop where
  groups_eq : t.groups = []
  inComment_eq : t.inComment = false
  mode_eq : t.complete.mode = .ready

theorem Ended.close {t : Regex.Reader} (h : Ended t) (g : Group) (groups : List Group)
    (names : List String) :
    (t.within (g :: groups) names).step? ')' =
      some ⟨g.flags, groups, g.branches,
        .piece ⟨g.capture.wrap t.complete.inner.regex, t.complete.inner.depth + 1⟩ :: g.items,
        t.complete.names ++ names, t.complete.inComment, .ready⟩ := by
  have hmode : (t.within (g :: groups) names).complete.mode = .ready := by
    rw [complete_within]
    exact h.mode_eq
  rw [@step?_close (t.within (g :: groups) names) h.inComment_eq hmode, complete_within]
  exact closeGroup?_within (t.groups_complete.trans h.groups_eq) g groups names

/-- No group is open that a parenthesis could close. -/
theorem Ended.step?_close_eq_none {t : Regex.Reader} (h : Ended t) : t.step? ')' = none := by
  rw [step?_close h.inComment_eq h.mode_eq, closeGroup?, t.groups_complete, h.groups_eq]

theorem Ended.congr {t t' : Regex.Reader} (h : Ended t) (hbare : t.bare = t'.bare) : Ended t' where
  groups_eq := by
    have hgroups := congrArg (·.groups) hbare
    simpa [Regex.Reader.bare, h.groups_eq] using hgroups.symm
  inComment_eq := (congrArg (·.inComment) hbare).symm.trans h.inComment_eq
  mode_eq := ready_complete_congr hbare h.mode_eq

end Alternative

namespace Regex

open Reader Highlighter.Alternative

/-- What a pattern denotes by itself where some flags are in force. -/
def under? (flags : Flags) (pattern : String) : Option Regex :=
  (pattern.toList.foldlM step? (fresh flags)).bind finish?

/-- A pattern that closes a group it stands in: up to one of its parentheses it is a pattern by
itself. -/
def ClosesOutside (pattern : String) : Prop :=
  ∃ front back t, pattern.toList = front ++ ')' :: back ∧ front.foldlM step? Reader.start = some t ∧
    Ended t

/-- The flags of a rule have no say in which groups a pattern closes. -/
theorem closesOutside_of_modes {pattern : String} {caseless : Bool} {front back : List Char}
    {t : Reader} (hsplit : pattern.toList = front ++ ')' :: back)
    (hread : front.foldlM step? (fresh (modes caseless)) = some t) (ended : Ended t) :
    ClosesOutside pattern := by
  have hbare := @foldlM_step?_congr (fresh (modes caseless)) Reader.start rfl front
  rw [hread] at hbare
  obtain ⟨t₀, hread₀, hsame⟩ := Option.map_eq_some_iff.1 hbare.symm
  exact ⟨front, back, t₀, hsplit, hread₀, ended.congr hsame.symm⟩

/-- A pattern that closes a group around it cannot be read where there is none. -/
theorem ClosesOutside.foldlM_eq_none {pattern : String} (h : ClosesOutside pattern) {s : Reader}
    (hs : s.bare = Reader.start.bare) : pattern.toList.foldlM step? s = none := by
  obtain ⟨front, back, t, hsplit, hread, ended⟩ := h
  have hbare := foldlM_step?_congr hs front
  rw [hread] at hbare
  obtain ⟨t', hread', hsame⟩ := Option.map_eq_some_iff.1 hbare
  rw [hsplit, List.foldlM_append, hread']
  simp only [Option.bind_eq_bind, Option.bind_some, List.foldlM_cons,
    (ended.congr hsame.symm).step?_close_eq_none, Option.bind_none]

theorem not_closesOutside_of_isSome {pattern : String} (alone : (ofPattern? pattern).isSome) :
    ¬ ClosesOutside pattern := by
  intro h
  rw [ofPattern?, h.foldlM_eq_none rfl] at alone
  cases alone

/-- Inside groups a text is read as it is alone, if it closes none of them. -/
theorem exists_foldlM_of_within {s u : Reader} {groups : List Group} {cs : List Char}
    (h : cs.foldlM step? (s.within groups []) = some u)
    (inside : ∀ front back t, cs = front ++ ')' :: back → front.foldlM step? s = some t →
      ¬ Ended t) : ∃ t, cs.foldlM step? s = some t ∧ u = t.within groups [] := by
  induction cs generalizing s with
  | nil =>
    cases h
    exact ⟨s, rfl, rfl⟩
  | cons c cs ih =>
    rw [List.foldlM_cons] at h
    obtain ⟨v, hv, h⟩ := Option.bind_eq_some_iff.1 h
    rcases s.follows_step? c with hsame | ⟨⟨rfl, hgroups, hcomment, hends⟩, -⟩ | ⟨hnone, -⟩
    · rw [hv] at hsame
      obtain ⟨t, ht, rfl⟩ := Option.map_eq_some_iff.1 hsame.symm
      have hrest : ∀ front back t', cs = front ++ ')' :: back → front.foldlM step? t = some t' →
          ¬ Ended t' := by
        intro front back t' hsplit hread
        refine inside (c :: front) back t' (congrArg _ hsplit) ?_
        rw [List.foldlM_cons, ht]
        exact hread
      obtain ⟨t', ht', rfl⟩ := ih h hrest
      refine ⟨t', ?_, rfl⟩
      rw [List.foldlM_cons, ht]
      exact ht'
    · exact absurd ⟨hgroups, hcomment, mode_complete_eq_ready_iff.2 hends⟩ (inside [] cs s rfl rfl)
    · rw [hnone] at hv
      cases hv

end Regex

namespace Alternative

open Regex.Reader

/-- The pattern of a rule that does not close the group of the rule is read in it under the flags of
the rule, and what it denotes there is the body of the group. -/
theorem exists_ended_of_not_closesOutside {pattern : String} {caseless : Bool} {r : Regex}
    (inside : ¬ Regex.ClosesOutside pattern)
    (h : Regex.ofRulePattern? pattern caseless = some r) :
    ∃ t, pattern.toList.foldlM step? (fresh (modes caseless)) = some t ∧ Ended t ∧
      r = t.complete.inner.regex ∧ t.complete.inner.depth ≤ maxDepth := by
  unfold Regex.ofRulePattern? at h
  obtain ⟨v, hv, hfinish⟩ := Option.bind_eq_some_iff.1 h
  simp only [String.toList_append, List.foldlM_append, foldlM_lineFlags, Option.bind_eq_bind,
    Option.bind_some, foldlM_groupStart] at hv
  obtain ⟨u, hu, hv⟩ := Option.bind_eq_some_iff.1 hv
  obtain ⟨t, hread, rfl⟩ := Regex.exists_foldlM_of_within hu fun front back t hsplit hread ended =>
    inside (Regex.closesOutside_of_modes hsplit hread ended)
  rw [show ")".toList = [')'] from rfl, List.foldlM_cons] at hv
  obtain ⟨v', hv', heq⟩ := Option.bind_eq_some_iff.1 hv
  cases heq
  -- The parenthesis behind the pattern closes the group, for otherwise that would be left open.
  have ended : Ended t := by
    rcases t.follows_step? ')' with hsame | ⟨⟨-, hgroups, hcomment, hends⟩, -⟩ | ⟨hnone, -⟩
    · rw [hv'] at hsame
      obtain ⟨t', -, rfl⟩ := Option.map_eq_some_iff.1 hsame.symm
      obtain ⟨hopen, -, -⟩ := of_finish? hfinish
      simp [within] at hopen
    · exact ⟨hgroups, hcomment, mode_complete_eq_ready_iff.2 hends⟩
    · rw [hnone] at hv'
      cases hv'
  rw [ended.close] at hv'
  cases hv'
  rw [finish?_eq] at hfinish
  split at hfinish
  · rename_i hok
    cases hfinish
    refine ⟨t, hread, ended, Regex.factored_factored _, ?_⟩
    simp only [Bool.and_eq_true, decide_eq_true_eq] at hok
    have hdeeper : ∀ depth, depth ≤ depthOf [depthOf [depth + 1, 0]] := by
      intro depth
      simp only [depthOf, List.foldl_cons, List.foldl_nil]
      omega
    exact Nat.le_trans (hdeeper _) hok.2
  · cases hfinish

end Alternative

end Highlighter
