import Highlighter.Proofs.Reading.Joined

/-!
Alternatives that can be read one by one can be read together. The names of the groups around them
differ, so nothing is refused where no pattern gives names of its own; and the joined pattern nests
hardly deeper than its parts.
-/

namespace Highlighter.Regex.Reader

variable {s t : Reader} {c : Char}

theorem names_closeGroup? (h : s.closeGroup? = some t) : t.names = s.names := by
  unfold closeGroup? at h
  split at h
  · cases h
  · cases h
    rfl

theorem names_popPiece? {p : Piece} (h : s.popPiece? = some (p, t)) : t.names = s.names := by
  unfold popPiece? at h
  split at h
  · cases h
    rfl
  · cases h

theorem names_repeat? {low : Nat} {high : Option Nat} (h : s.repeat? low high = some t) :
    t.names = s.names := by
  obtain ⟨⟨p, u⟩, hpop, rfl⟩ := Option.map_eq_some_iff.1 h
  exact (names_popPiece? hpop :)

theorem names_ready? (h : s.ready? c = some t) : t.names = s.names := by
  unfold ready? at h
  split at h
  · cases h
    rfl
  · exact names_closeGroup? h
  · cases h
    rfl
  · cases h
    rfl
  · exact names_repeat? h
  · exact names_repeat? h
  · exact names_repeat? h
  · obtain ⟨⟨p, u⟩, hpop, rfl⟩ := Option.map_eq_some_iff.1 h
    exact (names_popPiece? hpop :)
  all_goals
    cases h
    rfl

theorem names_place? {site : Site} {a : Atom} (h : s.place? site a = some t) :
    t.names = s.names := by
  unfold place? at h
  split at h
  · cases h
    rfl
  · cases h
  · cases h
    rfl
  · obtain ⟨open_, -, rfl⟩ := Option.map_eq_some_iff.1 h
    rfl

theorem names_lower? {body : Piece} {digits : List Char} {ended : Bool}
    (h : s.lower? body digits ended c = some t) : t.names = s.names := by
  unfold lower? at h
  grind [= Option.bind_eq_some_iff]

theorem names_upper? {body : Piece} {low : Nat} {digits : List Char} {ended : Bool}
    (h : s.upper? body low digits ended c = some t) : t.names = s.names := by
  unfold upper? at h
  grind [= Option.bind_eq_some_iff]

theorem names_flag? {flags : Flags} {letters : List Char} {off dangling : Bool}
    (h : s.flag? flags letters off dangling c = some t) : t.names = s.names := by
  unfold flag? at h
  grind [= Option.map_eq_some_iff, openGroup]

/-- The name of a group is added to the names that are taken, if it is not one of them. -/
theorem names_groupName? {read : List Char} (h : s.groupName? read c = some t) :
    t.names = s.names ∨ ∃ name, name ∉ s.names ∧ t.names = name :: s.names := by
  unfold groupName? at h
  grind [openGroup]

theorem names_hexDigit? {site : Site} {missing value : Nat}
    (h : s.hexDigit? site missing value c = some t) : t.names = s.names := by
  unfold hexDigit? at h
  grind [= Option.bind_eq_some_iff, names_place?]

theorem names_bracketed (x : InClass) : (s.bracketed x).names = s.names := by
  cases x <;> rfl

attribute [local grind →] names_ready? names_place? names_lower? names_upper? names_flag? names_groupName? names_hexDigit?
attribute [local grind =] names_bracketed

theorem names_take? (h : s.take? c = some t) :
    t.names = s.names ∨ ∃ name, name ∉ s.names ∧ t.names = name :: s.names := by
  have hrepeated : ∀ body low high isLazy, (s.pushRepeated body low high isLazy).names = s.names :=
    fun _ _ _ _ => rfl
  have hopened : (s.openGroup .unnamed s.flags).names = s.names := rfl
  have hpush : ∀ r depth, (s.push r depth).names = s.names := fun _ _ => rfl
  unfold take? at h
  split at h <;> grind [= Option.map_eq_some_iff, = Option.bind_eq_some_iff]

theorem names_settle : (s.settle c).names = s.names := by
  unfold settle
  split
  · split <;> rfl
  · split <;> rfl
  · split <;> rfl
  · split <;> rfl
  · rfl

/-- One character gives no name, or one that is not taken. -/
theorem names_step? (h : s.step? c = some t) :
    t.names = s.names ∨ ∃ name, name ∉ s.names ∧ t.names = name :: s.names := by
  unfold step? at h
  have := @names_settle s c
  grind [names_take?]

/-- A text gives some names in front of those that are taken, and none of them twice. -/
theorem names_foldlM {cs : List Char} (h : cs.foldlM step? s = some t) :
    ∃ given, t.names = given ++ s.names ∧ (s.names.Nodup → t.names.Nodup) := by
  induction cs generalizing s with
  | nil =>
    cases h
    exact ⟨[], rfl, id⟩
  | cons c cs ih =>
    rw [List.foldlM_cons] at h
    obtain ⟨u, hu, h⟩ := Option.bind_eq_some_iff.1 h
    obtain ⟨given, hgiven, hnodup⟩ := ih h
    rcases names_step? hu with hsame | ⟨name, hname, hnew⟩
    · exact ⟨given, hsame ▸ hgiven, fun free => hnodup (hsame ▸ free)⟩
    · refine ⟨given ++ [name], ?_, fun free => hnodup ?_⟩
      · rw [hgiven, hnew, List.append_assoc, List.singleton_append]
      · rw [hnew]
        exact List.nodup_cons.2 ⟨hname, free⟩

theorem subset_foldlM {cs : List Char} (h : cs.foldlM step? s = some t) : s.names ⊆ t.names := by
  obtain ⟨given, hgiven, -⟩ := names_foldlM h
  rw [hgiven]
  exact List.subset_append_right ..

theorem nodup_foldlM {cs : List Char} (free : s.names.Nodup) (h : cs.foldlM step? s = some t) :
    t.names.Nodup := by
  obtain ⟨-, -, hnodup⟩ := names_foldlM h
  exact hnodup free

/-- A text that can be read alone can be read inside groups, if it gives no name that is taken
there. -/
theorem foldlM_within (groups : List Group) {names : List String} {cs : List Char}
    (h : cs.foldlM step? s = some t) (hfree : ∀ name ∈ names, name ∉ t.names) :
    cs.foldlM step? (s.within groups names) = some (t.within groups names) := by
  induction cs generalizing s with
  | nil =>
    cases h
    rfl
  | cons c cs ih =>
    rw [List.foldlM_cons] at h ⊢
    obtain ⟨u, hu, h⟩ := Option.bind_eq_some_iff.1 h
    rcases s.keeps_step? c u hu with hsame | ⟨-, name, htaken, hname⟩
    · rw [hsame]
      exact ih h
    · exact absurd (subset_foldlM h hname) (hfree name htaken)

theorem names_complete (s : Reader) : s.complete.names = s.names := by
  unfold complete
  split <;> rfl

theorem depthOf_le {depths : List Nat} {bound : Nat} (h : ∀ depth ∈ depths, depth ≤ bound) :
    depthOf depths ≤ bound + 1 := by
  have hmax : ∀ (depths : List Nat) (first : Nat), first ≤ bound →
      (∀ depth ∈ depths, depth ≤ bound) → depths.foldl max first ≤ bound := by
    intro depths
    induction depths with
    | nil => exact fun first hfirst _ => hfirst
    | cons depth depths ih =>
      intro first hfirst h
      obtain ⟨hdepth, h⟩ := List.forall_mem_cons.1 h
      exact ih _ (Nat.max_le.2 ⟨hfirst, hdepth⟩) h
  unfold depthOf
  split
  · exact Nat.zero_le _
  · exact Nat.le_succ_of_le (h _ (List.mem_singleton_self _))
  · exact Nat.succ_le_succ (hmax _ 0 (Nat.zero_le _) h)

/-- A choice nests at most two deeper than the items in its branches. -/
theorem depth_inner_le {s : Reader} {bound : Nat} (hitems : ∀ item ∈ s.items, item.depth ≤ bound)
    (hbranches : ∀ p ∈ s.branches, p.depth ≤ bound + 1) : s.inner.depth ≤ bound + 2 := by
  refine depthOf_le fun depth hdepth => ?_
  obtain ⟨p, hp, rfl⟩ := List.mem_map.1 hdepth
  rcases List.mem_cons.1 hp with rfl | hp
  · exact depthOf_le (List.forall_mem_map.2 hitems)
  · exact hbranches p hp

end Highlighter.Regex.Reader

namespace Highlighter

namespace Alternative

open Regex.Reader

/-- What the pattern of a rule reads as, if it leaves nothing open and gives no names. -/
def piece? (pattern : String) (caseless : Bool) : Option Piece :=
  (pattern.toList.foldlM step? (fresh (modes caseless))).bind fun t =>
    if t.groups.isEmpty && !t.inComment && t.complete.mode == .ready && t.names.isEmpty then
      some t.complete.inner
    else none

theorem piece?_eq_some {pattern : String} {caseless : Bool} {p : Piece} :
    piece? pattern caseless = some p ↔
      ∃ t, pattern.toList.foldlM step? (fresh (modes caseless)) = some t ∧ Ended t ∧
        t.names = [] ∧ t.complete.inner = p := by
  unfold piece?
  rw [Option.bind_eq_some_iff]
  refine exists_congr fun t => and_congr_right fun _ => ?_
  constructor
  · intro h
    split at h
    · rename_i hended
      simp only [Bool.and_eq_true, List.isEmpty_iff, Bool.not_eq_true', beq_iff_eq] at hended
      cases h
      exact ⟨⟨hended.1.1.1, hended.1.1.2, hended.1.2⟩, hended.2, rfl⟩
    · cases h
  · rintro ⟨hended, hnames, rfl⟩
    simp [hended.groups_eq, hended.inComment_eq, hended.mode_eq, hnames]

/-- A pattern that reads as a piece denotes that piece. -/
theorem ofRulePattern?_of_piece? {pattern : String} {caseless : Bool} {p : Piece}
    (h : piece? pattern caseless = some p) (hdepth : p.depth + 3 ≤ maxDepth) :
    Regex.ofRulePattern? pattern caseless = some (Regex.factored [p.regex]) := by
  obtain ⟨t, hread, hended, -, hp⟩ := piece?_eq_some.1 h
  have hfree : ∀ name ∈ [], name ∉ t.names := nofun
  have hwithin := foldlM_within [⟨.nothing, lineModes, [], [.directive]⟩] hread hfree
  unfold Regex.ofRulePattern? Regex.ofPattern?
  simp only [String.toList_append, List.foldlM_append, foldlM_lineFlags, Option.bind_eq_bind,
    Option.bind_some, foldlM_groupStart, hwithin]
  rw [show ")".toList = [')'] from rfl, List.foldlM_cons, hended.close, hp]
  simp only [Option.bind_eq_bind, Option.bind_some, List.foldlM_nil, Option.pure_def]
  rw [finish?_eq, if_pos]
  · rfl
  · have hle : ∀ v : Regex.Reader, v.items = [.piece ⟨p.regex, p.depth + 1⟩, .directive] →
        v.branches = [] → v.inner.depth ≤ maxDepth := by
      intro v hitems hbranches
      have hle : ∀ item ∈ v.items, item.depth ≤ p.depth + 1 := by simp [hitems, Item.depth]
      exact Nat.le_trans (depth_inner_le hle (by simp [hbranches])) hdepth
    simpa [complete] using hle _ rfl rfl

/-- An alternative that ends by itself can be read as one group, if neither the name of the group nor
one that its pattern gives is taken. -/
theorem foldlM_render_of_ended {a : Alternative} {t : Regex.Reader}
    (hread : a.pattern.toList.foldlM step? (fresh (modes a.caseless)) = some t) (hended : Ended t)
    {index : Nat} {names : List String} (hfree : groupName index ∉ names)
    (hnew : ∀ name ∈ groupName index :: names, name ∉ t.names)
    (branches : List Piece) (items : List Item) :
    (a.render index).toList.foldlM step?
        ⟨lineModes, [], branches, items, names, false, .ready⟩ =
      some ⟨lineModes, [], branches,
        .piece ⟨.group (some (groupName index)) (Regex.factored [t.complete.inner.regex]),
          t.complete.inner.depth + 2⟩ :: items,
        t.names ++ groupName index :: names, false, .ready⟩ := by
  have hrender : a.render index = ("(?P<" ++ slotName ++ toString index ++ ">") ++
      groupStart a.caseless ++ a.pattern ++ "))" := rfl
  have hwithin := fun groups => foldlM_within groups hread hnew
  rw [hrender, String.toList_append, List.foldlM_append, String.toList_append, List.foldlM_append,
    String.toList_append, List.foldlM_append, foldlM_groupName, if_neg hfree]
  simp only [Option.bind_eq_bind, Option.bind_some, foldlM_groupStart, hwithin]
  rw [show "))".toList = [')', ')'] from rfl, List.foldlM_cons, hended.close]
  simp only [Option.bind_eq_bind, Option.bind_some, List.foldlM_cons, List.foldlM_nil,
    t.inComment_complete, t.names_complete, hended.inComment_eq]
  rw [step?_close rfl rfl]
  rfl

/-- An alternative is read as one group, which holds what its pattern denotes. -/
theorem foldlM_render {a : Alternative} {p : Piece} (h : piece? a.pattern a.caseless = some p)
    {index : Nat} {names : List String} (hfree : groupName index ∉ names)
    (branches : List Piece) (items : List Item) :
    (a.render index).toList.foldlM step?
        ⟨lineModes, [], branches, items, names, false, .ready⟩ =
      some ⟨lineModes, [], branches,
        .piece ⟨.group (some (groupName index)) (Regex.factored [p.regex]), p.depth + 2⟩ :: items,
        groupName index :: names, false, .ready⟩ := by
  obtain ⟨t, hread, hended, hnames, rfl⟩ := piece?_eq_some.1 h
  rw [foldlM_render_of_ended hread hended hfree (by simp [hnames]), hnames, List.nil_append]

/-- Alternatives with bars between them are read one after the other, and what has been read nests
hardly deeper than the deepest of them. -/
theorem exists_read_joined {alternatives : List Alternative} (hne : alternatives ≠ []) {bound : Nat}
    (h : ∀ a ∈ alternatives, ∃ p, piece? a.pattern a.caseless = some p ∧ p.depth + 2 ≤ bound)
    (first : Nat) (branches : List Piece) (items : List Item) (names : List String)
    (hbranches : ∀ p ∈ branches, p.depth ≤ bound + 1) (hitems : ∀ item ∈ items, item.depth ≤ bound)
    (hfree : ∀ i, first ≤ i → groupName i ∉ names) :
    ∃ u, ("|".intercalate (alternatives.mapIdx fun i => render (i + first))).toList.foldlM step?
        ⟨lineModes, [], branches, items, names, false, .ready⟩ = some u ∧ u.groups = [] ∧
      u.mode = .ready ∧ u.inner.depth ≤ bound + 2 := by
  induction alternatives generalizing first branches items names with
  | nil => exact absurd rfl hne
  | cons a rest ih =>
    obtain ⟨p, hp, hdepth⟩ := h a (List.mem_cons_self ..)
    have hone := foldlM_render hp (hfree first (Nat.le_refl _)) branches items
    have hmore : ∀ item ∈ .piece ⟨.group (some (groupName first)) (Regex.factored [p.regex]),
        p.depth + 2⟩ :: items, item.depth ≤ bound := List.forall_mem_cons.2 ⟨hdepth, hitems⟩
    have hshift : rest.mapIdx (fun i => render (i + 1 + first)) =
        rest.mapIdx fun i => render (i + (first + 1)) := by
      congr 1
      funext i
      rw [Nat.add_assoc, Nat.add_comm 1]
    rw [List.mapIdx_cons, hshift, Nat.zero_add]
    cases rest with
    | nil =>
      rw [List.mapIdx_nil, String.intercalate_singleton]
      exact ⟨_, hone, rfl, rfl, depth_inner_le hmore hbranches⟩
    | cons b rest =>
      have hnames : ∀ i, first + 1 ≤ i → groupName i ∉ groupName first :: names := by
        intro i hi
        rw [List.mem_cons, not_or]
        refine ⟨fun heq => ?_, hfree i (by omega)⟩
        have hslot := congrArg slot? heq
        rw [slot?_groupName, slot?_groupName, Option.some.injEq] at hslot
        omega
      have hnone : ∀ item ∈ ([] : List Item), item.depth ≤ bound := nofun
      have hbranch : (sequenceOf _).depth ≤ bound + 1 := depthOf_le (List.forall_mem_map.2 hmore)
      obtain ⟨u, hu, hread⟩ := ih (List.cons_ne_nil b rest)
        (fun a ha => h a (List.mem_cons_of_mem _ ha)) (first + 1) _ _ _
        (List.forall_mem_cons.2 ⟨hbranch, hbranches⟩) hnone hnames
      refine ⟨u, ?_, hread⟩
      rw [List.mapIdx_cons, String.intercalate_cons_cons, String.toList_append,
        String.toList_append, List.foldlM_append, List.foldlM_append, hone,
        ← List.mapIdx_cons (f := fun i => render (i + (first + 1)))]
      simp only [Option.bind_eq_bind, Option.bind_some, foldlM_bar, hu]

/-- Whether the pattern of an alternative leaves nothing open, gives no names, and does not nest too
deep to be one of several. -/
def joins (a : Alternative) : Bool :=
  (piece? a.pattern a.caseless).any (·.depth + 4 ≤ maxDepth)

theorem joins_iff {a : Alternative} :
    a.joins = true ↔ ∃ p, piece? a.pattern a.caseless = some p ∧ p.depth + 4 ≤ maxDepth := by
  simp [joins, Option.any_eq_true]

theorem regex_eq_of_piece? {a : Alternative} {p : Piece}
    (h : piece? a.pattern a.caseless = some p) (hdepth : p.depth + 4 ≤ maxDepth) :
    Regex.ofRulePattern? a.pattern a.caseless = some a.regex ∧
      a.regex = Regex.factored [p.regex] := by
  have hr := ofRulePattern?_of_piece? h (Nat.le_of_succ_le hdepth)
  have hregex : a.regex = Regex.factored [p.regex] := by
    rw [regex, hr]
    rfl
  exact ⟨hregex ▸ hr, hregex⟩

theorem isWhole_of_joins {a : Alternative} (h : a.joins = true) : a.IsWhole := by
  obtain ⟨p, hp, hdepth⟩ := joins_iff.1 h
  obtain ⟨t, hread, hended, -, rfl⟩ := piece?_eq_some.1 hp
  exact ⟨t, hread, hended, (regex_eq_of_piece? hp hdepth).2⟩

/-- Alternatives that may be joined have a scanner. -/
theorem isSome_build? {alternatives : List Alternative} (h : ∀ a ∈ alternatives, a.joins = true) :
    (Scanner.build? alternatives).isSome := by
  unfold Scanner.build?
  split
  · rfl
  · rename_i hne
    rw [List.isEmpty_iff] at hne
    have hbound : ∀ a ∈ alternatives, ∃ p, piece? a.pattern a.caseless = some p ∧
        p.depth + 2 ≤ maxDepth - 2 := by
      intro a ha
      obtain ⟨p, hp, hdepth⟩ := joins_iff.1 (h a ha)
      exact ⟨p, hp, Nat.le_sub_of_add_le hdepth⟩
    have hitems : ∀ item ∈ [Item.directive], item.depth ≤ maxDepth - 2 := by simp [Item.depth]
    obtain ⟨u, hu, hgroups, hmode, hdepth⟩ :=
      exists_read_joined hne hbound 0 [] _ [] nofun hitems nofun
    have hread : (Scanner.pattern alternatives).toList.foldlM step? Regex.Reader.start = some u := by
      rw [Scanner.pattern, String.toList_append, List.foldlM_append, foldlM_lineFlags]
      exact hu
    have hcomplete : u.complete = u := by rw [complete, hmode]
    have hfinish : u.finish? = some u.inner.regex := by
      rw [finish?_eq, hcomplete, if_pos]
      simp only [hmode, hgroups, beq_self_eq_true, List.isEmpty_nil, Bool.and_self, Bool.true_and,
        decide_eq_true_eq]
      exact hdepth
    rw [Option.isSome_map, Regex.ofPattern?, hread, Option.bind_some, hfinish]
    rfl

end Alternative

end Highlighter
