import Highlighter.Proofs.Reading.Nested

/-!
The last of several alternatives has a scanner of its own. Read behind the others, it gives no name
that is given there, and so not that of the first group, which is its own when it is alone; and alone
it nests no deeper.
-/

namespace Highlighter.Regex.Reader

variable {s : Reader}

theorem le_foldl_max {depths : List Nat} {first depth : Nat} (h : depth ∈ first :: depths) :
    depth ≤ depths.foldl max first := by
  induction depths generalizing first depth with
  | nil => exact Nat.le_of_eq (List.mem_singleton.1 h)
  | cons next depths ih =>
    rw [List.foldl_cons]
    rcases List.mem_cons.1 h with rfl | h
    · exact Nat.le_trans (Nat.le_max_left ..) (ih (List.mem_cons_self ..))
    · rcases List.mem_cons.1 h with rfl | h
      · exact Nat.le_trans (Nat.le_max_right ..) (ih (List.mem_cons_self ..))
      · exact ih (List.mem_cons_of_mem _ h)

/-- What stands with others nests deeper than each of them. -/
theorem lt_depthOf {depths : List Nat} {depth : Nat} (h : depth ∈ depths)
    (several : 2 ≤ depths.length) : depth < depthOf depths := by
  match depths, several with
  | first :: next :: depths, _ =>
    exact Nat.lt_succ_of_le (le_foldl_max (List.mem_cons_of_mem 0 h))

theorem le_depthOf {depths : List Nat} {depth : Nat} (h : depth ∈ depths) :
    depth ≤ depthOf depths := by
  match depths with
  | [first] => exact Nat.le_of_eq (List.mem_singleton.1 h)
  | first :: next :: depths =>
    exact Nat.le_of_lt (lt_depthOf h (Nat.le_add_left 2 depths.length))

/-- A choice nests deeper than each item in its last branch. -/
theorem lt_depth_inner {item : Item} (hitem : item ∈ s.items) (hbranches : s.branches ≠ []) :
    item.depth < s.inner.depth := by
  have hbranch : item.depth ≤ (sequenceOf s.items).depth := le_depthOf (List.mem_map_of_mem hitem)
  have hchoice : (sequenceOf s.items).depth < s.inner.depth := by
    refine lt_depthOf (List.mem_map_of_mem (List.mem_cons_self ..)) ?_
    have := List.length_pos_iff.2 hbranches
    simp only [List.map_cons, List.length_cons, List.length_map]
    omega
  omega

end Highlighter.Regex.Reader

namespace Highlighter

namespace Alternative

open Regex.Reader

variable {front : List Alternative} {a : Alternative} {t : Regex.Reader}

theorem mapIdx_shift {β : Type} (alternatives : List Alternative) (f : Nat → Alternative → β)
    (first : Nat) : alternatives.mapIdx (fun i => f (i + 1 + first)) =
      alternatives.mapIdx fun i => f (i + (first + 1)) := by
  congr 1
  funext i
  rw [Nat.add_assoc, Nat.add_comm 1]

/-- The last of some alternatives is read as a group, behind bars, and gives no name that is taken. -/
theorem last_of_joined
    (hread : a.pattern.toList.foldlM step? (fresh (modes a.caseless)) = some t) (hended : Ended t)
    (whole : ∀ b ∈ front, b.IsWhole) {name : String} (first : Nat) {branches : List Piece}
    {items : List Item} {names : List String} {u : Regex.Reader} (hbranches : branches ≠ [])
    (hname : name ∈ names) (free : names.Nodup)
    (h : ("|".intercalate ((front ++ [a]).mapIdx fun i => render (i + first))).toList.foldlM step?
      ⟨lineModes, [], branches, items, names, false, .ready⟩ = some u) :
    name ∉ t.names ∧ t.complete.inner.depth + 3 ≤ u.inner.depth := by
  induction front generalizing first branches items names with
  | nil =>
    simp only [List.nil_append, List.mapIdx_cons, List.mapIdx_nil, String.intercalate_singleton] at h
    have hnodup := nodup_foldlM (s := ⟨lineModes, [], branches, items, names, false, .ready⟩) free h
    have hu := read_render_eq hread hended h
    have hitem : Item.piece ⟨.group (some (groupName (0 + first)))
        (Regex.factored [t.complete.inner.regex]), t.complete.inner.depth + 2⟩ ∈ u.items :=
      hu ▸ List.mem_cons_self ..
    refine ⟨fun hmem => ?_, lt_depth_inner hitem (hu ▸ hbranches)⟩
    rw [hu, t.names_complete] at hnodup
    exact (List.nodup_append.1 hnodup).2.2 name hmem name (List.mem_cons_of_mem _ hname) rfl
  | cons b rest ih =>
    obtain ⟨hwhole, hrest⟩ := List.forall_mem_cons.1 whole
    obtain ⟨c, others, hothers⟩ := List.exists_cons_of_ne_nil (List.concat_ne_nil a rest)
    rw [List.cons_append, List.mapIdx_cons, mapIdx_shift, Nat.zero_add, hothers, List.mapIdx_cons,
      String.intercalate_cons_cons, String.toList_append, String.toList_append,
      List.foldlM_append, List.foldlM_append] at h
    obtain ⟨v, hv, h⟩ := Option.bind_eq_some_iff.1 h
    obtain ⟨w, hw, hbar⟩ := Option.bind_eq_some_iff.1 hv
    have hnodup := nodup_foldlM (s := ⟨lineModes, [], branches, items, names, false, .ready⟩) free hw
    have hnames := subset_foldlM hw hname
    obtain ⟨depth, names', rfl⟩ := read_render hwhole hw
    rw [foldlM_bar] at hbar
    cases hbar
    rw [← List.mapIdx_cons (f := fun i => render (i + (first + 1))), ← hothers] at h
    exact ih hrest (first + 1) (List.cons_ne_nil _ _) hnames hnodup h

end Alternative

namespace Scanner

open Regex.Reader Highlighter.Alternative

/-- Alternatives have a scanner if, with bars between them, they read as a pattern. -/
theorem isSome_build?_iff {alternatives : List Alternative} (hne : alternatives ≠ []) :
    (build? alternatives).isSome ↔ ∃ u,
      ("|".intercalate (alternatives.mapIdx render)).toList.foldlM step?
        ⟨lineModes, [], [], [.directive], [], false, .ready⟩ = some u ∧ u.finish?.isSome := by
  unfold build?
  rw [if_neg (by simpa using hne), Option.isSome_map, Regex.ofPattern?, pattern,
    String.toList_append, List.foldlM_append, foldlM_lineFlags]
  simp only [Option.bind_eq_bind, Option.bind_some]
  constructor
  · intro h
    obtain ⟨r, hr⟩ := Option.isSome_iff_exists.1 h
    obtain ⟨u, hu, hfinish⟩ := Option.bind_eq_some_iff.1 hr
    exact ⟨u, hu, Option.isSome_of_eq_some hfinish⟩
  · rintro ⟨u, hu, hfinish⟩
    rw [hu]
    exact hfinish

/-- What has been read is a pattern if it leaves nothing open and does not nest too deep. -/
theorem isSome_finish?_iff {u : Regex.Reader} (hmode : u.mode = .ready) :
    u.finish?.isSome ↔ u.groups = [] ∧ u.inner.depth ≤ maxDepth := by
  have hcomplete : u.complete = u := by rw [complete, hmode]
  rw [finish?_eq, hcomplete]
  simp only [hmode, beq_self_eq_true, Bool.true_and, Bool.and_eq_true, List.isEmpty_iff,
    decide_eq_true_eq]
  split <;> simp_all

/-- The last of some alternatives that have a scanner has one by itself. -/
theorem isSome_build?_last {front : List Alternative} {a : Alternative}
    (whole : ∀ b ∈ front ++ [a], b.IsWhole) (h : (build? (front ++ [a])).isSome) :
    (build? [a]).isSome := by
  cases front with
  | nil => exact h
  | cons b rest =>
    rw [List.cons_append] at whole h
    obtain ⟨t, hread, hended, -⟩ := whole a (by simp)
    obtain ⟨hwhole, hrest⟩ := List.forall_mem_cons.1 whole
    obtain ⟨u, hu, hfinish⟩ := (isSome_build?_iff (List.cons_ne_nil _ _)).1 h
    obtain ⟨hmode, -⟩ := read_joined (List.cons_ne_nil _ _) whole 0 rfl hu
    -- Behind the first alternative the name of the first group is taken.
    have hlast : groupName 0 ∉ t.names ∧ t.complete.inner.depth + 3 ≤ u.inner.depth := by
      obtain ⟨t', hread', hended', -⟩ := hwhole
      obtain ⟨c, others, hothers⟩ := List.exists_cons_of_ne_nil (List.concat_ne_nil a rest)
      rw [List.mapIdx_cons, hothers, List.mapIdx_cons,
        String.intercalate_cons_cons, String.toList_append, String.toList_append,
        List.foldlM_append, List.foldlM_append] at hu
      obtain ⟨v, hv, hu⟩ := Option.bind_eq_some_iff.1 hu
      obtain ⟨w, hw, hbar⟩ := Option.bind_eq_some_iff.1 hv
      have hnodup := nodup_foldlM (by exact List.nodup_nil) hw
      obtain rfl := read_render_eq hread' hended' hw
      rw [foldlM_bar] at hbar
      cases hbar
      rw [← List.mapIdx_cons (f := fun i => render (i + 1)), ← hothers] at hu
      exact last_of_joined hread hended (fun d hd => hrest d (List.mem_append_left _ hd)) 1
        (List.cons_ne_nil _ _) (List.mem_append_right _ (List.mem_cons_self ..)) hnodup hu
    have halone := foldlM_render_of_ended hread hended (List.not_mem_nil (a := groupName 0))
      (by simpa using hlast.1) [] [.directive]
    refine (isSome_build?_iff (List.cons_ne_nil _ _)).2 ⟨_, halone, ?_⟩
    have hdepth := ((isSome_finish?_iff hmode).1 hfinish).2
    refine (isSome_finish?_iff rfl).2 ⟨rfl, ?_⟩
    change depthOf [depthOf [t.complete.inner.depth + 2, 0]] ≤ maxDepth
    simp only [depthOf, List.foldl_cons, List.foldl_nil]
    omega

end Scanner

end Highlighter
