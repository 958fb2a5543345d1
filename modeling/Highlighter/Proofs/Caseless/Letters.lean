import Highlighter.Proofs.Twins.Recased
import Highlighter.Text.Lowercase
import Highlighter.Text.Source

/-!
Texts that differ in the case of ASCII letters only. Characters that differ so are of the same
classes, take up as many bytes, and have one lower case, also where that depends on the characters
around them.
-/

namespace Highlighter

namespace Text

/-- A character is a capital, a small letter, or neither. -/
theorem otherCase_cases : ∀ c : Char,
    otherCase c = c ∧ c.toLower = c ∨
    (65 ≤ c.toNat ∧ c.toNat < 91 ∧ otherCase c = Char.ofNat (c.toNat + 32) ∧
      c.toLower = otherCase c) ∨
    97 ≤ c.toNat ∧ c.toNat < 123 ∧ otherCase c = Char.ofNat (c.toNat - 32) ∧ c.toLower = c :=
  forall_char (by decide +kernel) fun _ h =>
    .inl ⟨otherCase_of_wide h, toLower_of_not_isUpper (isUpper_of_wide h)⟩

/-- What is the same of every capital and its small letter does not depend on case. -/
theorem map_otherCase {α : Type} {f : Char → α}
    (h : ∀ n < 26, f (Char.ofNat (65 + n)) = f (Char.ofNat (97 + n))) (c : Char) :
    f (otherCase c) = f c := by
  rcases otherCase_cases c with ⟨hc, -⟩ | ⟨hle, hlt, hc, -⟩ | ⟨hle, hlt, hc, -⟩
  · rw [hc]
  · have hn := h (c.toNat - 65) (by omega)
    rw [show 65 + (c.toNat - 65) = c.toNat by omega,
      show 97 + (c.toNat - 65) = c.toNat + 32 by omega, Char.ofNat_toNat] at hn
    rw [hc, hn]
  · have hn := h (c.toNat - 97) (by omega)
    rw [show 65 + (c.toNat - 97) = c.toNat - 32 by omega,
      show 97 + (c.toNat - 97) = c.toNat by omega, Char.ofNat_toNat] at hn
    rw [hc, hn]

/-- What is the same of a letter in either case is the same of characters that differ in case. -/
theorem congr_of_toLower_eq {α : Type} {f : Char → α} (hf : ∀ c, f (otherCase c) = f c) {c d : Char}
    (h : c.toLower = d.toLower) : f c = f d := by
  have hlower : ∀ c : Char, f c.toLower = f c := by
    intro c
    rcases otherCase_cases c with ⟨-, hc⟩ | ⟨-, -, -, hc⟩ | ⟨-, -, -, hc⟩
    · rw [hc]
    · rw [hc, hf]
    · rw [hc]
  rw [← hlower c, h, hlower]

theorem map_congr_of_toLower_eq {α : Type} {f : Char → α} (hf : ∀ c, f (otherCase c) = f c)
    {cs ds : List Char} (h : cs.map Char.toLower = ds.map Char.toLower) : cs.map f = ds.map f := by
  induction cs generalizing ds with
  | nil =>
    cases ds with
    | nil => rfl
    | cons d ds => cases h
  | cons c cs ih =>
    cases ds with
    | nil => cases h
    | cons d ds =>
      rw [List.map_cons, List.map_cons, List.cons.injEq] at h
      rw [List.map_cons, List.map_cons, congr_of_toLower_eq hf h.1, ih h.2]

theorem isWord_otherCase : ∀ c : Char, isWord (otherCase c) = isWord c := map_otherCase (by decide)

theorem isDecimal_otherCase : ∀ c : Char, isDecimal (otherCase c) = isDecimal c :=
  map_otherCase (by decide)

theorem lowerChar_otherCase : ∀ c : Char, lowerChar (otherCase c) = lowerChar c :=
  map_otherCase (by decide)

theorem fold_otherCase : ∀ c : Char, fold (otherCase c) = fold c := map_otherCase (by decide)

theorem utf8Size_otherCase : ∀ c : Char, (otherCase c).utf8Size = c.utf8Size :=
  map_otherCase (by decide)

theorem isWide_otherCase : ∀ c : Char,
    decide (0x80 ≤ (otherCase c).toNat) = decide (0x80 ≤ c.toNat) :=
  map_otherCase (f := fun c => decide (0x80 ≤ c.toNat)) (by decide)

/-- A table has a character below a bound in one of the ranges that begin below it. -/
theorem Ranges.has_filter (ranges : Ranges) {c : Char} {bound : Nat} (h : c.toNat < bound) :
    Ranges.has (ranges.filter (·.1 < bound)) c = ranges.has c := by
  unfold has
  rw [List.any_filter]
  congr 1
  funext r
  by_cases hle : r.1 ≤ c.toNat
  · simp [hle, Nat.lt_of_le_of_lt hle h]
  · simp [hle]

/-- A table that has letters in both cases, by its first ranges. -/
theorem Ranges.has_otherCase {ranges narrow : Ranges} (hnarrow : ranges.filter (·.1 < 128) = narrow)
    (h : ∀ n < 26, narrow.has (Char.ofNat (65 + n)) = narrow.has (Char.ofNat (97 + n))) (c : Char) :
    ranges.has (otherCase c) = ranges.has c := by
  have hascii : ∀ n < 26, (Char.ofNat (65 + n)).toNat < 128 ∧ (Char.ofNat (97 + n)).toNat < 128 := by
    decide
  refine map_otherCase (fun n hn => ?_) c
  rw [← ranges.has_filter (hascii n hn).1, ← ranges.has_filter (hascii n hn).2, hnarrow, h n hn]

theorem isCased_otherCase (c : Char) : isCased (otherCase c) = isCased c :=
  Ranges.has_otherCase (show cased.filter (·.1 < 128) = [(0x41, 0x5A), (0x61, 0x7A)] by rfl)
    (by decide) c

theorem filter_caseIgnorable : caseIgnorable.filter (·.1 < 128) =
    [(0x27, 0x27), (0x2E, 0x2E), (0x3A, 0x3A), (0x5E, 0x5E), (0x60, 0x60)] := by decide +kernel

theorem isCaseIgnorable_otherCase (c : Char) :
    isCaseIgnorable (otherCase c) = isCaseIgnorable c :=
  Ranges.has_otherCase filter_caseIgnorable (by decide) c

theorem isSpace_otherCase (c : Char) : isSpace (otherCase c) = isSpace c :=
  Ranges.has_otherCase (show spaces.filter (·.1 < 128) = [(0x9, 0xD), (0x20, 0x20)] by rfl)
    (by decide) c

/-- A character that is no letter is told from all others, whatever their case. -/
theorem beq_otherCase {d : Char} (hd : otherCase d = d) (c : Char) :
    (otherCase c == d) = (c == d) := by
  rw [Bool.eq_iff_iff, beq_iff_eq, beq_iff_eq]
  constructor
  · intro h
    rw [← h, otherCase_otherCase] at hd
    rw [← h, ← hd]
  · rintro rfl
    exact hd

theorem startsCased_cons (c : Char) (cs : List Char) :
    startsCased (c :: cs) = if isCaseIgnorable c then startsCased cs else isCased c := by
  unfold startsCased
  rw [List.dropWhile_cons]
  cases isCaseIgnorable c <;> rfl

/-- Whether the next letter has a case does not depend on the case that it has. -/
theorem startsCased_congr {cs ds : List Char} (h : cs.map Char.toLower = ds.map Char.toLower) :
    startsCased cs = startsCased ds := by
  induction cs generalizing ds with
  | nil =>
    cases ds with
    | nil => rfl
    | cons d ds => cases h
  | cons c cs ih =>
    cases ds with
    | nil => cases h
    | cons d ds =>
      rw [List.map_cons, List.map_cons, List.cons.injEq] at h
      rw [startsCased_cons, startsCased_cons, congr_of_toLower_eq isCaseIgnorable_otherCase h.1,
        congr_of_toLower_eq isCased_otherCase h.1, ih h.2]

theorem lowerAfter_congr {cs ds : List Char} (h : cs.map Char.toLower = ds.map Char.toLower) :
    ∀ before before' : List Char, before.map Char.toLower = before'.map Char.toLower →
      lowerAfter before cs = lowerAfter before' ds := by
  induction cs generalizing ds with
  | nil =>
    cases ds with
    | nil => exact fun _ _ _ => rfl
    | cons d ds => cases h
  | cons c cs ih =>
    cases ds with
    | nil => cases h
    | cons d ds =>
      intro before before' hbefore
      rw [List.map_cons, List.map_cons, List.cons.injEq] at h
      have hsigma := congr_of_toLower_eq (f := (· == '\u03a3')) (beq_otherCase (by decide)) h.1
      have hdotted := congr_of_toLower_eq (f := (· == '\u0130')) (beq_otherCase (by decide)) h.1
      have hmore : (c :: before).map Char.toLower = (d :: before').map Char.toLower := by
        rw [List.map_cons, List.map_cons, h.1, hbefore]
      rw [lowerAfter, lowerAfter, ih h.2 _ _ hmore]
      simp only [hsigma, hdotted, startsCased_congr hbefore, startsCased_congr h.2,
        congr_of_toLower_eq lowerChar_otherCase h.1]

/-- Texts are the same but for the case of ASCII letters if they are so character by character. -/
theorem asciiLowercase_eq_iff {s t : String} :
    asciiLowercase s = asciiLowercase t ↔ s.toList.map Char.toLower = t.toList.map Char.toLower := by
  rw [asciiLowercase, asciiLowercase, ← String.toList_inj, String.toList_map, String.toList_map]

/-- Texts that differ in case have one lower case. -/
theorem lowercase_congr {s t : String} (h : asciiLowercase s = asciiLowercase t) :
    lowercase s = lowercase t := by
  rw [lowercase, lowercase, lowerAfter_congr (asciiLowercase_eq_iff.1 h) [] [] rfl]

end Text

end Highlighter
