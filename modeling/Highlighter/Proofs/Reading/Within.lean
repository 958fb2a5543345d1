import Highlighter.Proofs.Reading.Bare

/-!
Reading inside open groups. What is read goes to the innermost group, so a text that can be read by
itself is read inside groups as it is alone. Only the name of a group may be refused there, because
it is taken.
-/

namespace Highlighter.Regex.Reader

/-- The reader with more groups open around it, and with more names taken. -/
def within (s : Reader) (groups : List Group) (names : List String) : Reader :=
  { s with groups := s.groups ++ groups, names := s.names ++ names }

/-- What `x` comes to, `y` comes to inside groups, unless a name is refused there. -/
def Keeps (groups : List Group) (names : List String) (x y : Option Reader) : Prop :=
  ∀ t, x = some t →
    y = some (t.within groups names) ∨ y = none ∧ ∃ name ∈ names, name ∈ t.names

/-- `y` is `x` inside groups. It need not be where a name is refused inside them, and where one of
them would be closed, which alone is refused. -/
def Follows (groups : List Group) (names : List String) (closes : Prop) (x y : Option Reader) :
    Prop :=
  y = x.map (·.within groups names) ∨ (closes ∧ x = none) ∨
    y = none ∧ ∃ t, x = some t ∧ ∃ name ∈ names, name ∈ t.names

variable {groups : List Group} {names : List String} (s : Reader)

theorem Follows.imp {closes closes' : Prop} {x y : Option Reader}
    (h : Follows groups names closes x y) (himp : closes → closes') :
    Follows groups names closes' x y :=
  h.imp_right (Or.imp_left (And.imp_left himp))

theorem Follows.keeps {closes : Prop} {x y : Option Reader}
    (h : Follows groups names closes x y) : Keeps groups names x y := by
  rintro t rfl
  rcases h with hsame | ⟨-, hnone⟩ | ⟨hnone, t', ht', htaken⟩
  · exact .inl hsame
  · cases hnone
  · cases ht'
    exact .inr ⟨hnone, htaken⟩

theorem openGroup_within (capture : Capture) (flags : Flags) :
    (s.within groups names).openGroup capture flags =
      (s.openGroup capture flags).within groups names := by
  cases capture <;> rfl

theorem popPiece?_within :
    (s.within groups names).popPiece? =
      s.popPiece?.map fun (p, t) => (p, t.within groups names) := by
  unfold popPiece? within
  simp only
  split <;> rfl

theorem repeat?_within (low : Nat) (high : Option Nat) :
    (s.within groups names).repeat? low high =
      (s.repeat? low high).map (·.within groups names) := by
  unfold repeat?
  rw [popPiece?_within, Option.map_map, Option.map_map]
  rfl

theorem closeGroup?_within_of_ne_nil (h : s.groups ≠ []) :
    (s.within groups names).closeGroup? = s.closeGroup?.map (·.within groups names) := by
  cases hg : s.groups with
  | nil => exact absurd hg h
  | cons g rest => simp [closeGroup?, within, hg, inner, push]

theorem ready?_within {c : Char} (h : c = ')' → s.groups ≠ []) :
    (s.within groups names).ready? c = (s.ready? c).map (·.within groups names) := by
  unfold ready?
  split
  · rfl
  · exact s.closeGroup?_within_of_ne_nil (h rfl)
  · rfl
  · rfl
  · exact s.repeat?_within ..
  · exact s.repeat?_within ..
  · exact s.repeat?_within ..
  · rw [popPiece?_within, Option.map_map, Option.map_map]
    rfl
  all_goals rfl

theorem follows_ready? (c : Char) :
    Follows groups names (c = ')' ∧ s.groups = []) (s.ready? c)
      ((s.within groups names).ready? c) := by
  by_cases h : c = ')' ∧ s.groups = []
  · refine .inr (.inl ⟨h, ?_⟩)
    rw [h.1]
    simp [ready?, closeGroup?, h.2]
  · exact .inl (s.ready?_within fun hc hgroups => h ⟨hc, hgroups⟩)

theorem place?_within (site : Site) (a : Atom) :
    (s.within groups names).place? site a = (s.place? site a).map (·.within groups names) := by
  unfold place?
  split
  · cases a <;> rfl
  · rfl
  · rfl
  · rw [Option.map_map]
    rfl

theorem lower?_within (body : Piece) (digits : List Char) (ended : Bool) (c : Char) :
    (s.within groups names).lower? body digits ended c =
      (s.lower? body digits ended c).map (·.within groups names) := by
  unfold lower?
  split
  · rfl
  · split
    · rfl
    · cases bound? digits with
      | none => rfl
      | some low =>
        simp only [Option.bind_some]
        split
        · rfl
        · split <;> rfl

theorem upper?_within (body : Piece) (low : Nat) (digits : List Char) (ended : Bool) (c : Char) :
    (s.within groups names).upper? body low digits ended c =
      (s.upper? body low digits ended c).map (·.within groups names) := by
  unfold upper?
  split
  · rfl
  · split
    · rfl
    · cases bound? digits with
      | none => rfl
      | some high =>
        simp only [Option.bind_some]
        split <;> rfl

theorem flag?_within (flags : Flags) (letters : List Char) (off dangling : Bool) (c : Char) :
    (s.within groups names).flag? flags letters off dangling c =
      (s.flag? flags letters off dangling c).map (·.within groups names) := by
  unfold flag?
  rw [openGroup_within]
  split
  · split <;> rfl
  · split
    · split <;> rfl
    · split
      · split <;> rfl
      · split
        · rfl
        · rw [Option.map_map]
          rfl

theorem follows_groupName? (closes : Prop) (read : List Char) (c : Char) :
    Follows groups names closes (s.groupName? read c)
      ((s.within groups names).groupName? read c) := by
  unfold groupName?
  split
  · simp only [openGroup_within]
    split
    · rename_i hrefused
      refine .inl (if_pos ?_)
      simp only [within, Bool.or_eq_true, List.contains_eq_mem, decide_eq_true_eq,
        List.mem_append] at hrefused ⊢
      exact hrefused.imp_right .inl
    · rename_i hfree
      split
      · rename_i htaken
        refine .inr (.inr ⟨rfl, _, rfl, String.ofList read.reverse, ?_, List.mem_cons_self ..⟩)
        simp only [within, Bool.or_eq_true, List.contains_eq_mem, decide_eq_true_eq,
          List.mem_append] at hfree htaken
        rcases htaken with hempty | hold | hmem
        · exact absurd (.inl hempty) hfree
        · exact absurd (.inr hold) hfree
        · exact hmem
      · exact .inl rfl
  · split
    · exact .inl rfl
    · exact .inl rfl

theorem hexDigit?_within (site : Site) (missing value : Nat) (c : Char) :
    (s.within groups names).hexDigit? site missing value c =
      (s.hexDigit? site missing value c).map (·.within groups names) := by
  unfold hexDigit?
  cases hexValue? c with
  | none => rfl
  | some d =>
    simp only [Option.bind_some]
    split
    · cases character? (16 * value + d) with
      | none => rfl
      | some c => exact s.place?_within site _
    · rfl

theorem bracketed_within (x : InClass) :
    (s.within groups names).bracketed x = (s.bracketed x).within groups names := by
  cases x <;> rfl

/-- Whether a pattern may end here. -/
def Mode.ends : Mode → Bool
  | ready | repeated .. | edge => true
  | _ => false

theorem follows_take? (c : Char) :
    Follows groups names (c = ')' ∧ s.groups = [] ∧ s.mode.ends = true) (s.take? c)
      ((s.within groups names).take? c) := by
  have hmode : (s.within groups names).mode = s.mode := rfl
  have hends : ∀ mode : Mode, mode.ends = true → c = ')' ∧ s.groups = [] →
      c = ')' ∧ s.groups = [] ∧ mode.ends = true := fun _ h hc => ⟨hc.1, hc.2, h⟩
  unfold take?
  rw [hmode]
  cases s.mode <;> try dsimp only
  case ready => exact (s.follows_ready? c).imp (hends _ rfl)
  case repeated body low high spaced =>
    split
    · exact .inl rfl
    · exact ((s.pushRepeated body low high false).follows_ready? c).imp (hends _ rfl)
  case lower body digits ended => exact .inl (s.lower?_within ..)
  case comma body low =>
    split
    · exact .inl rfl
    · exact .inl (s.upper?_within ..)
  case upper body low digits ended => exact .inl (s.upper?_within ..)
  case group =>
    split
    · exact .inl rfl
    -- The group that has just been opened is closed before one outside.
    · exact .inl ((s.openGroup .unnamed s.flags).ready?_within fun _ => List.cons_ne_nil _ _)
  case groupMark =>
    split
    · exact .inl rfl
    · split
      · exact .inl rfl
      · exact .inl (s.flag?_within ..)
  case groupLetter => split <;> exact .inl rfl
  case groupAngle => exact s.follows_groupName? _ [] c
  case groupName read => exact s.follows_groupName? _ read c
  case flagList flags letters off dangling => exact .inl (s.flag?_within ..)
  case escape site =>
    refine .inl ?_
    split
    · rfl
    · split
      · rfl
      · cases escaped? c with
        | none => rfl
        | some a => exact s.place?_within site a
  case hexStart site width =>
    split
    · exact .inl rfl
    · exact .inl (s.hexDigit?_within ..)
  case hexDigits site missing value => exact .inl (s.hexDigit?_within ..)
  case hexBraced site bare value =>
    refine .inl ?_
    split
    · split
      · rfl
      · cases character? value with
        | none => rfl
        | some c => exact s.place?_within site _
    · rw [Option.map_map]
      rfl
  case edge => exact .inl rfl
  case edgeBrace =>
    split
    · exact .inl rfl
    · exact .inl (s.lower?_within ..)
  case edgeName read =>
    refine .inl ?_
    split
    · rfl
    · split
      · rw [Option.map_map]
        rfl
      · rfl
  case bracket open_ place =>
    refine .inl ?_
    cases place <;> simp only [Option.map_map] <;> congr 1 <;> funext x <;>
      exact s.bracketed_within x

theorem settle_within (c : Char) :
    (s.within groups names).settle c = (s.settle c).within groups names := by
  have hmode : (s.within groups names).mode = s.mode := rfl
  unfold settle
  rw [hmode]
  split
  · split <;> rfl
  · split <;> rfl
  · split <;> rfl
  · split <;> rfl
  · rfl

theorem groups_settle (c : Char) : (s.settle c).groups = s.groups := by
  unfold settle
  split
  · split <;> rfl
  · split <;> rfl
  · split <;> rfl
  · split <;> rfl
  · rfl

theorem ends_of_settle {c : Char} (h : (s.settle c).mode.ends = true) : s.mode.ends = true := by
  unfold settle at h
  split at h
  · rename_i hm
    rw [hm]
    rfl
  · rename_i hm
    rw [hm]
    rfl
  · split at h
    · exact h
    · cases h
  · split at h
    · exact h
    · cases h
  · exact h

/-- A character is read inside groups as it is alone, unless a name is refused or it is a
parenthesis that closes one of the groups. -/
theorem follows_step? (c : Char) :
    Follows groups names (c = ')' ∧ s.groups = [] ∧ s.inComment = false ∧ s.mode.ends = true)
      (s.step? c) ((s.within groups names).step? c) := by
  have hcomment : (s.within groups names).inComment = s.inComment := rfl
  have hspaced : ((s.settle c).within groups names).flags = (s.settle c).flags := rfl
  have hblanks : ((s.settle c).within groups names).mode = (s.settle c).mode := rfl
  unfold step?
  rw [hcomment]
  split
  · exact .inl rfl
  · rename_i hc
    simp only [settle_within, hspaced, hblanks]
    split
    · exact .inl rfl
    · refine ((s.settle c).follows_take? c).imp ?_
      rintro ⟨hclose, hgroups, hends⟩
      exact ⟨hclose, s.groups_settle c ▸ hgroups, Bool.eq_false_iff.2 hc, s.ends_of_settle hends⟩

/-- A character that can be read alone is read so inside groups, unless it is refused there. -/
theorem keeps_step? (c : Char) :
    Keeps groups names (s.step? c) ((s.within groups names).step? c) :=
  (s.follows_step? c).keeps

/-- A text that can be read alone is read so inside groups, if it can be read there. -/
theorem foldlM_step?_within {s t u : Reader} {cs : List Char} (h : cs.foldlM step? s = some t)
    (hu : cs.foldlM step? (s.within groups names) = some u) : u = t.within groups names := by
  induction cs generalizing s with
  | nil =>
    cases h
    cases hu
    rfl
  | cons c cs ih =>
    rw [List.foldlM_cons] at h hu
    obtain ⟨a, ha, h⟩ := Option.bind_eq_some_iff.1 h
    obtain ⟨b, hb, hu⟩ := Option.bind_eq_some_iff.1 hu
    rcases s.keeps_step? c a ha with hsame | ⟨hnone, -⟩
    · rw [hsame] at hb
      cases hb
      exact ih h hu
    · rw [hnone] at hb
      cases hb

end Highlighter.Regex.Reader
