import Highlighter.Text.Lowercase

/-!
A text in lower case is left as it is. The runs of the table of lower case letters lead to characters
that no run moves on, and what is written for the two letters that need more than a table stays as
well.
-/

namespace Highlighter.Text

namespace Run

variable {r q : Run} {n : Nat}

/-- The code points that a run moves are all even or all odd. -/
def alternates (r : Run) : Bool := r.step % 2 == 0 || r.first == r.last

/-- What the one run moves lies beside what the other one moves, or between that. -/
def leadsPast (r q : Run) : Bool :=
  (r.target + (r.last - r.first)).blt q.first || q.last.blt r.target ||
    (r.alternates && q.alternates && (r.target + q.first) % 2 == 1)

theorem moves_iff : r.moves n = true ↔ r.first ≤ n ∧ n ≤ r.last ∧ (n - r.first) % r.step = 0 := by
  simp [moves, and_assoc]

theorem even_of_alternates (halt : r.alternates = true) (hn : r.moves n = true) :
    (n - r.first) % 2 = 0 := by
  obtain ⟨hfirst, hlast, hstep⟩ := moves_iff.1 hn
  unfold alternates at halt
  rw [Bool.or_eq_true, beq_iff_eq, beq_iff_eq] at halt
  rcases halt with heven | hone
  · exact Nat.mod_eq_zero_of_dvd
      (Nat.dvd_trans (Nat.dvd_of_mod_eq_zero heven) (Nat.dvd_of_mod_eq_zero hstep))
  · omega

theorem moves_image_of_leadsPast (h : r.leadsPast q = true) (hn : r.moves n = true) :
    q.moves (r.image n) = false := by
  rw [← Bool.not_eq_true]
  intro hq
  obtain ⟨hfirst, hlast, -⟩ := moves_iff.1 hn
  obtain ⟨hqfirst, hqlast, -⟩ := moves_iff.1 hq
  unfold leadsPast at h
  simp only [Bool.or_eq_true, Bool.and_eq_true, Nat.blt_eq, beq_iff_eq] at h
  unfold image at hqfirst hqlast hq
  rcases h with (hbelow | habove) | ⟨⟨halt, haltq⟩, hodd⟩
  · omega
  · omega
  · have heven := even_of_alternates halt hn
    have hevenq := even_of_alternates haltq hq
    omega

end Run

/-- The characters that have another lower case: those of the table, and the dotted capital I. -/
def lowered : List Run := ⟨0x130, 0x130, 1, 0x69⟩ :: lowering

/-- A character that is its own lower case. -/
def IsLower (c : Char) : Prop := ∀ r ∈ lowered, r.moves c.toNat = false

instance (c : Char) : Decidable (IsLower c) := inferInstanceAs (Decidable (∀ r ∈ lowered, _))

theorem leadsPast_of_lowering {r q : Run} (hr : r ∈ lowering) (hq : q ∈ lowered) :
    r.leadsPast q = true := by
  have hall : (lowering.all fun r => lowered.all r.leadsPast) = true := by decide +kernel
  exact List.all_eq_true.1 (List.all_eq_true.1 hall r hr) q hq

/-- Characters are moved to characters. -/
theorem valid_of_lowering : ∀ r ∈ lowering, r.target + (r.last - r.first) < 0xD800 ∨
    0xDFFF < r.target ∧ r.target + (r.last - r.first) < 0x110000 := by
  decide +kernel

/-- The table holds for letters of ASCII as well. -/
theorem lowerChar_eq (c : Char) : lowerChar c =
    match lowering.find? fun r => r.moves c.toNat with
    | some r => Char.ofNat (r.image c.toNat)
    | none => c := by
  unfold lowerChar
  split
  · rename_i hascii
    have hsame : ∀ n < 0x80, (Char.ofNat n).toLower =
        match lowering.find? fun r => r.moves n with
        | some r => Char.ofNat (r.image n)
        | none => Char.ofNat n := by
      decide +kernel
    simpa using hsame c.toNat hascii
  · rfl

theorem isLower_lowerChar {c : Char} (hc : c ≠ '\u0130') : IsLower (lowerChar c) := by
  rw [lowerChar_eq]
  intro q hq
  cases hr : lowering.find? fun r => r.moves c.toNat with
  | none =>
    rcases List.mem_cons.1 hq with rfl | hq
    · rw [← Bool.not_eq_true, Run.moves_iff]
      rintro ⟨hfirst, hlast, -⟩
      exact hc (Char.toNat_inj.1 (Nat.le_antisymm hlast hfirst))
    · exact Bool.not_eq_true _ ▸ List.find?_eq_none.1 hr q hq
  | some r =>
    have hmem := List.mem_of_find?_eq_some hr
    have hmoves : r.moves c.toNat = true := by simpa using List.find?_some hr
    have htoNat : (Char.ofNat (r.image c.toNat)).toNat = r.image c.toNat := by
      have hvalid := valid_of_lowering r hmem
      obtain ⟨hfirst, hlast, -⟩ := Run.moves_iff.1 hmoves
      have himage : (r.image c.toNat).isValidChar := by
        unfold Nat.isValidChar Run.image
        omega
      rw [Char.ofNat, dif_pos himage]
      rfl
    rw [htoNat]
    exact Run.moves_image_of_leadsPast (leadsPast_of_lowering hmem hq) hmoves

theorem isLower_of_mem_lowerAfter {before cs : List Char} :
    ∀ c ∈ lowerAfter before cs, IsLower c := by
  induction cs generalizing before with
  | nil => exact nofun
  | cons d cs ih =>
    intro c hc
    rw [lowerAfter, List.mem_append] at hc
    rcases hc with hc | hc
    · split at hc
      · rw [List.mem_singleton] at hc
        subst hc
        split <;> decide +kernel
      · split at hc
        · rw [List.mem_cons, List.mem_singleton] at hc
          rcases hc with rfl | rfl <;> decide +kernel
        · rename_i hdotted
          rw [List.mem_singleton] at hc
          subst hc
          exact isLower_lowerChar (by simpa using hdotted)
    · exact ih c hc

theorem lowerAfter_of_isLower {before cs : List Char} (h : ∀ c ∈ cs, IsLower c) :
    lowerAfter before cs = cs := by
  induction cs generalizing before with
  | nil => rfl
  | cons c cs ih =>
    obtain ⟨hc, hcs⟩ := List.forall_mem_cons.1 h
    have hsigma : c ≠ '\u03a3' := by
      rintro rfl
      exact absurd hc (by decide +kernel)
    have hdotted : c ≠ '\u0130' := by
      rintro rfl
      exact absurd hc (by decide +kernel)
    have hnone : (lowering.find? fun r => r.moves c.toNat) = none :=
      List.find?_eq_none.2 fun r hr => Bool.not_eq_true _ ▸ hc r (List.mem_cons_of_mem _ hr)
    have hself : lowerChar c = c := by rw [lowerChar_eq, hnone]
    simp [lowerAfter, hsigma, hdotted, hself, ih hcs]

theorem lowercase_lowercase (s : String) : lowercase (lowercase s) = lowercase s := by
  unfold lowercase
  rw [String.toList_ofList, lowerAfter_of_isLower isLower_of_mem_lowerAfter]

end Highlighter.Text
