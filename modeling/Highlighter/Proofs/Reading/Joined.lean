import Highlighter.Proofs.Reading.Alone
import Highlighter.Proofs.Reading.Choices

/-!
Reading the joined pattern of a scanner. Each alternative is read in its groups as it is alone, so
the branches of the scanner are the alternatives, each as one group, in order. That holds of
alternatives that are patterns by themselves: one that closes the group it stands in is not.
-/

namespace Highlighter

namespace Alternative

open Regex.Reader

/-- The name of the group around an alternative. -/
def groupName (index : Nat) : String := slotName ++ toString index

theorem isNameChar_of_isDigit {c : Char} (h : c.isDigit = true) :
    isNameChar false c = true ∧ (c == '>') = false := by
  have hbounds : 48 ≤ c.toNat ∧ c.toNat ≤ 57 := by
    simpa [Char.isDigit, UInt32.le_iff_toNat_le] using h
  have hnumeric : Text.isNumeric c = true := by
    rw [Text.isNumeric, if_pos (by omega), h]
  refine ⟨by simp [isNameChar, hnumeric], ?_⟩
  rw [beq_eq_false_iff_ne]
  rintro rfl
  exact absurd h (by decide)

/-- In the name of a group, digits are read as they stand. -/
theorem foldlM_digits {digits : List Char} (hdigits : ∀ c ∈ digits, c.isDigit = true)
    (s : Regex.Reader) {read : List Char} (hread : read ≠ []) (hc : s.inComment = false) :
    digits.foldlM step? { s with mode := .groupName read } =
      some { s with mode := .groupName (digits.reverse ++ read) } := by
  induction digits generalizing read with
  | nil => rfl
  | cons c digits ih =>
    obtain ⟨hname, hangle⟩ := isNameChar_of_isDigit (hdigits c (List.mem_cons_self ..))
    have hstep : Regex.Reader.step? { s with mode := .groupName read } c =
        some { s with mode := .groupName (c :: read) } := by
      have hempty : read.isEmpty = false := by simpa using hread
      simp [step?, hc, settle, Mode.passesBlanks, take?, Regex.Reader.groupName?, hempty, hname,
        hangle]
    rw [List.foldlM_cons, hstep]
    simpa using ih (fun c hc => hdigits c (List.mem_cons_of_mem _ hc)) (List.cons_ne_nil c read)

/-- Opening the group around an alternative, which is refused if its name is taken. -/
theorem foldlM_groupName (index : Nat) (groups : List Group) (branches : List Piece)
    (items : List Item) (names : List String) :
    ("(?P<" ++ slotName ++ toString index ++ ">").toList.foldlM step?
        ⟨lineModes, groups, branches, items, names, false, .ready⟩ =
      if groupName index ∈ names then none
      else some ⟨lineModes, ⟨.named (groupName index), lineModes, branches, items⟩ :: groups, [], [],
        groupName index :: names, false, .ready⟩ := by
  have hdigits : ∀ c ∈ (toString index).toList, c.isDigit = true := by
    rw [Nat.toString_eq_ofList_toDigits, String.toList_ofList]
    exact fun c hc => Nat.isDigit_of_mem_toDigits (by decide) (by decide) hc
  have hfront : ("(?P<" ++ slotName).toList.foldlM step?
      ⟨lineModes, groups, branches, items, names, false, .ready⟩ =
        some ⟨lineModes, groups, branches, items, names, false,
          .groupName slotName.toList.reverse⟩ := rfl
  have hname := foldlM_digits hdigits
    ⟨lineModes, groups, branches, items, names, false, .ready⟩
    (show slotName.toList.reverse ≠ [] by decide) rfl
  have hspelled : String.ofList ((toString index).toList.reverse ++
      slotName.toList.reverse).reverse = groupName index := by
    simp only [List.reverse_append, List.reverse_reverse, String.ofList_append,
      String.ofList_toList]
    rfl
  have hempty : ((toString index).toList.reverse ++ slotName.toList.reverse).isEmpty = false := by
    rw [List.isEmpty_eq_false_iff]
    exact List.append_ne_nil_of_right_ne_nil _ (by decide)
  simp only at hname
  rw [String.toList_append, List.foldlM_append, String.toList_append, List.foldlM_append, hfront]
  simp only [Option.bind_eq_bind, Option.bind_some, hname]
  rw [show ">".toList = ['>'] from rfl, List.foldlM_cons]
  simp only [step?, settle, lineModes, Bool.false_and, Bool.false_eq_true, ↓reduceIte, take?,
    Regex.Reader.groupName?, beq_self_eq_true, hspelled, hempty, Bool.false_or,
    List.contains_eq_mem, decide_eq_true_eq]
  split <;> rfl

/-- A pattern that is valid by itself, not only inside a group, and as that of a rule. -/
structure StandsAlone (a : Alternative) : Prop where
  alone : (Regex.ofPattern? a.pattern).isSome
  inGroup : (Regex.ofRulePattern? a.pattern a.caseless).isSome

/-- What an alternative denotes by itself. -/
def regex (a : Alternative) : Regex :=
  (Regex.ofRulePattern? a.pattern a.caseless).getD .empty

theorem regex_eq {a : Alternative} (h : (Regex.ofRulePattern? a.pattern a.caseless).isSome) :
    Regex.ofRulePattern? a.pattern a.caseless = some a.regex := by
  obtain ⟨r, hr⟩ := Option.isSome_iff_exists.1 h
  simp [regex, hr]

/-- A pattern that ends by itself where it is read under the flags of its rule: no group around it is
closed, and nothing is left open. -/
def IsWhole (a : Alternative) : Prop :=
  ∃ t, a.pattern.toList.foldlM step? (fresh (modes a.caseless)) = some t ∧ Ended t ∧
    a.regex = Regex.factored [t.complete.inner.regex]

/-- An alternative that can be read as the pattern of a rule, and that ends by itself there. -/
structure ReadsWhole (a : Alternative) : Prop where
  inGroup : (Regex.ofRulePattern? a.pattern a.caseless).isSome
  whole : a.IsWhole

/-- An alternative that can be read as the pattern of a rule and does not close the group of that
rule ends by itself. -/
theorem readsWhole_of_not_closesOutside {a : Alternative}
    (inGroup : (Regex.ofRulePattern? a.pattern a.caseless).isSome)
    (inside : ¬ Regex.ClosesOutside a.pattern) : a.ReadsWhole := by
  obtain ⟨r, hr⟩ := Option.isSome_iff_exists.1 inGroup
  obtain ⟨t, hread, ended, heq, -⟩ := exists_ended_of_not_closesOutside inside hr
  refine ⟨inGroup, t, hread, ended, ?_⟩
  rw [regex, hr, Option.getD_some, heq]
  exact (Regex.factored_factored _).symm

theorem StandsAlone.readsWhole {a : Alternative} (h : a.StandsAlone) : a.ReadsWhole :=
  readsWhole_of_not_closesOutside h.inGroup (Regex.not_closesOutside_of_isSome h.alone)

theorem StandsAlone.isWhole {a : Alternative} (h : a.StandsAlone) : a.IsWhole := h.readsWhole.whole

/-- An alternative is read as one group, which holds what its pattern reads as by itself. -/
theorem read_render_eq {a : Alternative} {t : Regex.Reader}
    (hread : a.pattern.toList.foldlM step? (fresh (modes a.caseless)) = some t) (hended : Ended t)
    {index : Nat} {branches : List Piece} {items : List Item} {names : List String}
    {u : Regex.Reader} (h : (a.render index).toList.foldlM step?
      ⟨lineModes, [], branches, items, names, false, .ready⟩ = some u) :
    u = ⟨lineModes, [], branches,
      .piece ⟨.group (some (groupName index)) (Regex.factored [t.complete.inner.regex]),
        t.complete.inner.depth + 2⟩ :: items,
      t.complete.names ++ groupName index :: names, false, .ready⟩ := by
  have hrender : a.render index = ("(?P<" ++ slotName ++ toString index ++ ">") ++
      groupStart a.caseless ++ a.pattern ++ "))" := rfl
  rw [hrender, String.toList_append, List.foldlM_append, String.toList_append, List.foldlM_append,
    String.toList_append, List.foldlM_append] at h
  obtain ⟨v, hv, h⟩ := Option.bind_eq_some_iff.1 h
  obtain ⟨w, hw, hv⟩ := Option.bind_eq_some_iff.1 hv
  obtain ⟨x, hx, hw⟩ := Option.bind_eq_some_iff.1 hw
  rw [foldlM_groupName] at hx
  split at hx
  · cases hx
  cases hx
  rw [foldlM_groupStart] at hw
  cases hw
  cases foldlM_step?_within hread hv
  rw [show "))".toList = [')', ')'] from rfl, List.foldlM_cons, hended.close] at h
  simp only [Option.bind_eq_bind, Option.bind_some, List.foldlM_cons, List.foldlM_nil] at h
  obtain ⟨y, hy, heq⟩ := Option.bind_eq_some_iff.1 h
  cases heq
  rw [t.inComment_complete, hended.inComment_eq, step?_close rfl rfl] at hy
  cases hy
  rfl

/-- What the group holds is what the pattern denotes alone. -/
theorem read_render {a : Alternative} (whole : a.IsWhole) {index : Nat}
    {branches : List Piece} {items : List Item} {names : List String} {u : Regex.Reader}
    (h : (a.render index).toList.foldlM step?
      ⟨lineModes, [], branches, items, names, false, .ready⟩ = some u) :
    ∃ depth names', u = ⟨lineModes, [], branches,
      .piece ⟨.group (some (groupName index)) a.regex, depth⟩ :: items, names', false, .ready⟩ := by
  obtain ⟨t, hread, hended, hregex⟩ := whole
  exact ⟨_, _, hregex ▸ read_render_eq hread hended h⟩

/-- An alternative as a branch of the joined expression. -/
def branch (index : Nat) (a : Alternative) : Regex := .group (some (groupName index)) a.regex

/-- The branches that a reader has read. -/
def choices (s : Regex.Reader) : List Regex :=
  (sequenceOf s.items :: s.branches).reverse.map Piece.regex

theorem regex_inner (s : Regex.Reader) : s.inner.regex = Regex.factored (choices s) := rfl

theorem foldlM_bar (branches : List Piece) (items : List Item) (names : List String) :
    "|".toList.foldlM step? ⟨lineModes, [], branches, items, names, false, .ready⟩ =
      some ⟨lineModes, [], sequenceOf items :: branches, [], names, false, .ready⟩ := rfl

/-- Alternatives with bars between them are read as branches, one after the other. -/
theorem read_joined {alternatives : List Alternative} (hne : alternatives ≠ [])
    (whole : ∀ a ∈ alternatives, a.IsWhole) (first : Nat) {branches : List Piece}
    {items : List Item} {names : List String} {u : Regex.Reader}
    (hitems : items.filterMap Item.regex? = [])
    (h : ("|".intercalate (alternatives.mapIdx fun i => render (i + first))).toList.foldlM step?
      ⟨lineModes, [], branches, items, names, false, .ready⟩ = some u) :
    u.mode = .ready ∧ choices u =
      branches.reverse.map Piece.regex ++ alternatives.mapIdx fun i => branch (i + first) := by
  induction alternatives generalizing first branches items names with
  | nil => exact absurd rfl hne
  | cons a rest ih =>
    have ha := whole a (List.mem_cons_self ..)
    have hone : ∀ depth, (sequenceOf
        (.piece ⟨.group (some (groupName first)) a.regex, depth⟩ :: items)).regex =
          branch first a := by
      intro depth
      simp [sequenceOf, hitems, List.filterMap_append, Item.regex?, Regex.sequence, branch]
    have hshift : ∀ {β : Type} (f : Nat → Alternative → β),
        rest.mapIdx (fun i => f (i + 1 + first)) = rest.mapIdx fun i => f (i + (first + 1)) := by
      intro β f
      congr 1
      funext i
      rw [Nat.add_assoc, Nat.add_comm 1]
    rw [List.mapIdx_cons, hshift render, Nat.zero_add] at h
    rw [List.mapIdx_cons, hshift branch, Nat.zero_add]
    cases rest with
    | nil =>
      simp only [List.mapIdx_nil, String.intercalate_singleton] at h ⊢
      obtain ⟨depth, names', rfl⟩ := read_render ha h
      refine ⟨rfl, ?_⟩
      simp [choices, hone]
    | cons b rest =>
      rw [List.mapIdx_cons, String.intercalate_cons_cons, String.toList_append,
        String.toList_append, List.foldlM_append, List.foldlM_append] at h
      obtain ⟨v, hv, h⟩ := Option.bind_eq_some_iff.1 h
      obtain ⟨w, hw, hbar⟩ := Option.bind_eq_some_iff.1 hv
      obtain ⟨depth, names', rfl⟩ := read_render ha hw
      rw [foldlM_bar] at hbar
      cases hbar
      rw [← List.mapIdx_cons (f := fun i => render (i + (first + 1)))] at h
      obtain ⟨hmode, hchoices⟩ := ih (List.cons_ne_nil b rest)
        (fun a ha => whole a (List.mem_cons_of_mem _ ha)) (first + 1) rfl h
      refine ⟨hmode, hchoices.trans ?_⟩
      simp [hone]

/-- The number in the name of a group is the number of its alternative. -/
theorem slot?_groupName (index : Nat) : slot? (groupName index) = some index := by
  have hname : (groupName index).toList = slotName.toList ++ Nat.toDigits 10 index := by
    rw [groupName, String.toList_append, Nat.toString_eq_ofList_toDigits, String.toList_ofList]
  have hfront : slotName.toList.isPrefixOf (groupName index).toList = true := by
    rw [hname, List.isPrefixOf_iff_prefix]
    exact List.prefix_append ..
  have hdrop : (groupName index).toList.drop slotName.length = Nat.toDigits 10 index := by
    rw [hname]
    exact List.drop_left
  have hdigits : (Nat.toDigits 10 index).all Char.isDigit = true := by
    rw [List.all_eq_true]
    exact fun c hc => Nat.isDigit_of_mem_toDigits (by decide) (by decide) hc
  have hvalue : (Nat.toDigits 10 index).foldl (fun n c => 10 * n + (c.toNat - '0'.toNat)) 0 =
      index := by
    rw [← Nat.ofDigitChars_eq_foldl]
    exact Nat.ofDigitChars_ten_toDigits
  unfold slot?
  simp only [hfront, hdrop, hdigits, hvalue, ↓reduceIte]
  simp [Nat.toDigits_ne_nil]

end Alternative

namespace Scanner

open Regex.Reader Highlighter.Alternative

theorem hitOf_branch {alternatives : List Alternative} {index : Nat} {a : Alternative}
    (h : alternatives[index]? = some a) : hitOf alternatives (a.branch index) = some a.hit := by
  simp [hitOf, branch, Regex.groupNames, slot?_groupName, h]

/-- The branches of a scanner are its alternatives: each stands for what its alternative does, and
looks for what that denotes alone. -/
theorem branches_of_build? {alternatives : List Alternative} {s : Scanner}
    (h : build? alternatives = some s) (whole : ∀ a ∈ alternatives, a.IsWhole) :
    s.branches = alternatives.mapIdx fun i a => (some a.hit, a.branch i) := by
  unfold build? at h
  split at h
  · rename_i hempty
    cases h
    rw [List.isEmpty_iff.1 hempty]
    rfl
  · rename_i hne
    rw [List.isEmpty_iff] at hne
    obtain ⟨r, hr, rfl⟩ := Option.map_eq_some_iff.1 h
    obtain ⟨u, hu, hfinish⟩ := Option.bind_eq_some_iff.1 hr
    rw [pattern, String.toList_append, List.foldlM_append, foldlM_lineFlags] at hu
    obtain ⟨hmode, hchoices⟩ := read_joined hne whole 0 rfl hu
    obtain ⟨-, -, rfl⟩ := of_finish? hfinish
    have hcomplete : u.complete = u := by
      rw [complete, hmode]
    have hgroups : ∀ r ∈ alternatives.mapIdx (fun i a => a.branch i), r.isGroup = true := by
      intro r hr
      obtain ⟨i, hi, rfl⟩ := List.mem_mapIdx.1 hr
      rfl
    have hnonempty : alternatives.mapIdx (fun i a => a.branch i) ≠ [] := by simpa using hne
    have hbranches : (Regex.factored (choices u)).branches =
        alternatives.mapIdx fun i a => a.branch i := by
      rw [hchoices]
      exact Regex.branches_factored_of_isGroup hnonempty hgroups
    rw [hcomplete, regex_inner, hbranches]
    apply List.ext_getElem?
    intro i
    simp only [List.getElem?_map, List.getElem?_mapIdx, Option.map_map]
    cases ha : alternatives[i]? with
    | none => rfl
    | some a => simp [hitOf_branch ha]

end Scanner

end Highlighter
