import Highlighter.Grammar.Spec

/-!
Lists that are sorted by their keys. A value is put in its place among the others, and a list is
built up again from its own entries.
-/

namespace Highlighter

section Lists

variable {α β : Type} [DecidableEq α] {key : α} {value : β} {entries : List (α × β)}

/-- A new key is entered beside the others. -/
theorem perm_putSorted {less : α → α → Bool} (hnew : key ∉ entries.map Prod.fst) :
    (putSorted less key value entries).Perm ((key, value) :: entries) := by
  fun_induction putSorted less key value entries with
  | case1 => exact .refl _
  | case2 entry rest hkey => exact absurd (hkey ▸ List.mem_cons_self) hnew
  | case3 entry rest hkey hless => exact .refl _
  | case4 entry rest hkey hless ih =>
    have hrest : key ∉ rest.map Prod.fst := fun h => hnew (List.mem_cons_of_mem _ h)
    exact ((ih hrest).cons entry).trans (.swap _ _ _)

theorem mem_of_mem_putSorted {less : α → α → Bool} {entry : α × β}
    (h : entry ∈ putSorted less key value entries) : entry = (key, value) ∨ entry ∈ entries := by
  fun_induction putSorted less key value entries with
  | case1 => simpa using h
  | case2 first rest same =>
    rw [List.mem_cons] at h ⊢
    exact h.imp_right .inr
  | case3 first rest other before => exact List.mem_cons.1 h
  | case4 first rest other behind ih =>
    rw [List.mem_cons] at h ⊢
    rcases h with rfl | h
    · exact .inr (.inl rfl)
    · exact (ih h).imp_right .inr

variable (less : α → α → Prop) [DecidableRel less]

/-- A sorted list stays sorted when a value is put into it. -/
theorem pairwise_putSorted (htrans : ∀ a b c, less a b → less b c → less a c)
    (htotal : ∀ a b, a ≠ b → ¬ less a b → less b a) (sorted : entries.Pairwise (less ·.1 ·.1)) :
    (putSorted (less · ·) key value entries).Pairwise (less ·.1 ·.1) := by
  fun_induction putSorted (fun a b => decide (less a b)) key value entries with
  | case1 => exact List.pairwise_singleton ..
  | case2 first rest same =>
    rw [List.pairwise_cons] at sorted ⊢
    exact ⟨same ▸ sorted.1, sorted.2⟩
  | case3 first rest other before =>
    have hbefore : less key first.1 := of_decide_eq_true before
    refine List.pairwise_cons.2 ⟨fun entry hentry => ?_, sorted⟩
    rcases List.mem_cons.1 hentry with rfl | hentry
    · exact hbefore
    · exact htrans _ _ _ hbefore (List.rel_of_pairwise_cons sorted hentry)
  | case4 first rest other behind ih =>
    refine List.pairwise_cons.2 ⟨fun entry hentry => ?_, ih sorted.of_cons⟩
    rcases mem_of_mem_putSorted hentry with rfl | hentry
    · exact htotal _ _ other (by simpa using behind)
    · exact List.rel_of_pairwise_cons sorted hentry

/-- What comes behind all others is put at the end. -/
theorem putSorted_of_forall_less (hasymm : ∀ a b, less a b → ¬ less b a)
    (h : ∀ entry ∈ entries, less entry.1 key) :
    putSorted (less · ·) key value entries = entries ++ [(key, value)] := by
  induction entries with
  | nil => rfl
  | cons first rest ih =>
    obtain ⟨hfirst, hrest⟩ := List.forall_mem_cons.1 h
    have hbehind : ¬ less key first.1 := hasymm _ _ hfirst
    have hother : key ≠ first.1 := fun heq => hbehind (by rwa [heq] at hfirst ⊢)
    rw [putSorted, if_neg hother, if_neg (by simpa using hbehind), ih hrest, List.cons_append]

/-- A sorted list is built up from its own entries. -/
theorem foldlM_putSorted {ε γ : Type} (hasymm : ∀ a b, less a b → ¬ less b a)
    {add : List (α × β) → γ → Except ε (List (α × β))} {written : α × β → γ}
    (hadd : ∀ acc entry, add acc (written entry) = .ok (putSorted (less · ·) entry.1 entry.2 acc))
    {before : List (α × β)} (sorted : (before ++ entries).Pairwise (less ·.1 ·.1)) :
    (entries.map written).foldlM add before = .ok (before ++ entries) := by
  induction entries generalizing before with
  | nil =>
    rw [List.append_nil]
    rfl
  | cons entry entries ih =>
    have hless : ∀ other ∈ before, less other.1 entry.1 := fun other hother =>
      (List.pairwise_append.1 sorted).2.2 other hother entry (List.mem_cons_self ..)
    rw [List.append_cons] at sorted ⊢
    rw [List.map_cons, List.foldlM_cons, hadd, putSorted_of_forall_less less hasymm hless]
    exact ih sorted

end Lists

section Keys

variable {α : Type} {value : α}

/-- Entries stay in the order of their names, one to a name, when one is set. -/
theorem pairwise_putSorted_name {name : String} {entries : List (String × α)}
    (sorted : entries.Pairwise (·.1 < ·.1)) :
    (putSorted (· < ·) name value entries).Pairwise (·.1 < ·.1) := by
  refine pairwise_putSorted (fun a b : String => a < b) (fun _ _ _ => String.lt_trans) ?_ sorted
  intro a b hne hle
  exact Decidable.byContradiction fun hge => hne (String.le_antisymm hge hle)

theorem Kind.eq_of_rank_eq {a b : Kind} (h : a.rank = b.rank) : a = b := by
  rw [← Kind.ofNat_ctorIdx a, ← Kind.ofNat_ctorIdx b]
  exact congrArg Kind.ofNat h

/-- Entries stay in the order of the kinds, one to a kind, when one is set. -/
theorem pairwise_putSorted_kind {kind : Kind} {entries : List (Kind × α)}
    (sorted : entries.Pairwise (·.1.rank < ·.1.rank)) :
    (putSorted (·.rank < ·.rank) kind value entries).Pairwise (·.1.rank < ·.1.rank) := by
  refine pairwise_putSorted (fun a b : Kind => a.rank < b.rank) (fun _ _ _ => Nat.lt_trans) ?_ sorted
  intro a b hne hle
  exact Nat.lt_of_le_of_ne (Nat.not_lt.1 hle) fun heq => hne (Kind.eq_of_rank_eq heq.symm)

end Keys

end Highlighter
