import Highlighter.Text.Quoted

/-!
Quoted texts can be told apart. No escape is the beginning of another, so of what has been quoted
one character after the other can be read back; and a quoted text stands on one line.
-/

namespace Highlighter

/-- Where a character first stands, a text is cut in one way. -/
theorem cut_inj {α : Type} {a : α} {xs ys us vs : List α} (hxs : a ∉ xs) (hys : a ∉ ys)
    (h : xs ++ a :: us = ys ++ a :: vs) : xs = ys ∧ us = vs := by
  induction xs generalizing ys with
  | nil =>
    cases ys with
    | nil => exact ⟨rfl, (List.cons.inj h).2⟩
    | cons y ys => exact absurd ((List.cons.inj h).1 ▸ List.mem_cons_self) hys
  | cons x xs ih =>
    cases ys with
    | nil => exact absurd ((List.cons.inj h).1 ▸ List.mem_cons_self) hxs
    | cons y ys =>
      obtain ⟨rfl, hrest⟩ := List.cons.inj h
      obtain ⟨rfl, rfl⟩ :=
        ih (List.not_mem_of_not_mem_cons hxs) (List.not_mem_of_not_mem_cons hys) hrest
      exact ⟨rfl, rfl⟩

/-- Where a character last stands, too. -/
theorem cut_last_inj {α : Type} {a : α} {xs ys us vs : List α} (hus : a ∉ us) (hvs : a ∉ vs)
    (h : xs ++ a :: us = ys ++ a :: vs) : xs = ys ∧ us = vs := by
  have hreverse : us.reverse ++ a :: xs.reverse = vs.reverse ++ a :: ys.reverse := by
    simpa using congrArg List.reverse h
  obtain ⟨hback, hfront⟩ := cut_inj (by simpa using hus) (by simpa using hvs) hreverse
  exact ⟨List.reverse_inj.1 hfront, List.reverse_inj.1 hback⟩

namespace Text

theorem mem_digits_of_mem_toDigits {n : Nat} {c : Char} (h : c ∈ Nat.toDigits 16 n) :
    ∃ d < 16, c = d.digitChar := by
  induction n using Nat.strongRecOn with
  | ind n ih =>
    rw [Nat.toDigits_eq_if (by decide)] at h
    split at h
    · rename_i hlt
      exact ⟨n, hlt, List.mem_singleton.1 h⟩
    · rename_i hge
      rcases List.mem_append.1 h with h | h
      · exact ih (n / 16) (by omega) h
      · exact ⟨n % 16, Nat.mod_lt _ (by decide), List.mem_singleton.1 h⟩

theorem digitChar_inj {d e : Nat} (hd : d < 16) (he : e < 16) (h : d.digitChar = e.digitChar) :
    d = e := by
  have hall : ∀ d < 16, ∀ e < 16, d.digitChar = e.digitChar → d = e := by decide
  exact hall d hd e he h

/-- Numbers with the same hexadecimal digits are the same. -/
theorem toDigits_inj {n m : Nat} (h : Nat.toDigits 16 n = Nat.toDigits 16 m) : n = m := by
  induction n using Nat.strongRecOn generalizing m with
  | ind n ih =>
    rw [Nat.toDigits_eq_if (b := 16) (n := n) (by decide),
      Nat.toDigits_eq_if (b := 16) (n := m) (by decide)] at h
    split at h <;> split at h
    · rename_i hn hm
      exact digitChar_inj hn hm (List.cons.inj h).1
    · exact absurd h.symm (by simp [List.append_eq_singleton_iff])
    · exact absurd h (by simp [List.append_eq_singleton_iff])
    · rename_i hn hm
      obtain ⟨hfront, hlast⟩ := List.append_inj' h rfl
      have hquot := ih (n / 16) (by omega) hfront
      have hrem := digitChar_inj (Nat.mod_lt _ (by decide)) (Nat.mod_lt _ (by decide))
        (List.cons.inj hlast).1
      omega

/-- The characters that have a letter behind a backslash. -/
def letterEscapes : List (Char × Char) :=
  [('\x00', '0'), ('\t', 't'), ('\r', 'r'), ('\n', 'n'), ('\\', '\\'), ('"', '"')]

/-- How a character may stand in a quoted text: as a letter behind a backslash, as it is, or by its
number. -/
theorem escape_cases (c : Char) :
    (∃ letter, (c, letter) ∈ letterEscapes ∧ escape c = ['\\', letter]) ∨
      (c ∉ ['\\', '"', '\n'] ∧ escape c = [c]) ∨
      escape c = '\\' :: 'u' :: '\x7b' :: (Nat.toDigits 16 c.toNat ++ ['\x7d']) := by
  unfold escape
  by_cases hshort : ∃ letter, (c, letter) ∈ letterEscapes
  · obtain ⟨letter, hmem⟩ := hshort
    refine .inl ⟨letter, hmem, ?_⟩
    simp only [letterEscapes, List.mem_cons, Prod.mk.injEq, List.not_mem_nil, or_false] at hmem
    rcases hmem with ⟨rfl, rfl⟩ | ⟨rfl, rfl⟩ | ⟨rfl, rfl⟩ | ⟨rfl, rfl⟩ | ⟨rfl, rfl⟩ | ⟨rfl, rfl⟩ <;>
      rfl
  · right
    simp only [letterEscapes, List.mem_cons, Prod.mk.injEq, List.not_mem_nil, or_false, exists_or,
      exists_eq_right, not_or] at hshort
    obtain ⟨hzero, htab, hreturn, hbreak, hslash, hquote⟩ := hshort
    simp only [beq_iff_eq, hzero, htab, hreturn, hbreak, hslash, hquote, ↓reduceIte]
    split
    · exact .inl ⟨by simp [hslash, hquote, hbreak], rfl⟩
    · exact .inr (by simp)

theorem eq_of_letter {c d letter : Char} (hc : (c, letter) ∈ letterEscapes)
    (hd : (d, letter) ∈ letterEscapes) : c = d := by
  have hall : ∀ p ∈ letterEscapes, ∀ q ∈ letterEscapes, p.2 = q.2 → p.1 = q.1 := by decide
  exact hall _ hc _ hd rfl

theorem letter_ne_u {c letter : Char} (h : (c, letter) ∈ letterEscapes) : letter ≠ 'u' := by
  have hall : ∀ p ∈ letterEscapes, p.2 ≠ 'u' := by decide
  exact hall _ h

theorem brace_notMem_toDigits (n : Nat) : '\x7d' ∉ Nat.toDigits 16 n := by
  intro h
  obtain ⟨d, hd, heq⟩ := mem_digits_of_mem_toDigits h
  have hall : ∀ d < 16, '\x7d' ≠ d.digitChar := by decide
  exact hall d hd heq

/-- What stands in front of a text shows which character it is, and where it ends. -/
theorem escape_append_inj {c d : Char} {us vs : List Char}
    (h : escape c ++ us = escape d ++ vs) : c = d ∧ us = vs := by
  rcases escape_cases c with ⟨letter, hc, heq⟩ | ⟨hc, heq⟩ | heq <;>
    rcases escape_cases d with ⟨letter', hd, heq'⟩ | ⟨hd, heq'⟩ | heq' <;>
    rw [heq, heq'] at h
  case inl.inl =>
    obtain ⟨rfl, rfl⟩ : letter = letter' ∧ us = vs := by simpa using h
    exact ⟨eq_of_letter hc hd, rfl⟩
  case inl.inr.inl =>
    obtain ⟨rfl, -⟩ := List.cons.inj h
    simp at hd
  case inl.inr.inr =>
    have hu : letter = 'u' := (List.cons.inj (List.cons.inj h).2).1
    exact absurd hu (letter_ne_u hc)
  case inr.inl.inl =>
    obtain ⟨rfl, -⟩ := List.cons.inj h
    simp at hc
  case inr.inl.inr.inl => exact List.cons.inj h
  case inr.inl.inr.inr =>
    obtain ⟨rfl, -⟩ := List.cons.inj h
    simp at hc
  case inr.inr.inl =>
    have hu : 'u' = letter' := (List.cons.inj (List.cons.inj h).2).1
    exact absurd hu.symm (letter_ne_u hd)
  case inr.inr.inr.inl =>
    obtain ⟨rfl, -⟩ := List.cons.inj h
    simp at hd
  case inr.inr.inr.inr =>
    have hnumber : Nat.toDigits 16 c.toNat ++ '\x7d' :: us =
        Nat.toDigits 16 d.toNat ++ '\x7d' :: vs := by simpa using h
    obtain ⟨hdigits, rfl⟩ :=
      cut_inj (brace_notMem_toDigits _) (brace_notMem_toDigits _) hnumber
    exact ⟨Char.toNat_inj.1 (toDigits_inj hdigits), rfl⟩

theorem escape_ne_nil (c : Char) : escape c ≠ [] := by
  rcases escape_cases c with ⟨letter, -, heq⟩ | ⟨-, heq⟩ | heq <;> simp [heq]

/-- Nothing is lost when a text is quoted. -/
theorem quoted_inj {s t : String} (h : quoted s = quoted t) : s = t := by
  have hflat : ∀ cs ds : List Char, cs.flatMap escape = ds.flatMap escape → cs = ds := by
    intro cs
    induction cs with
    | nil =>
      intro ds h
      cases ds with
      | nil => rfl
      | cons d ds => simp [escape_ne_nil] at h
    | cons c cs ih =>
      intro ds h
      cases ds with
      | nil => simp [escape_ne_nil] at h
      | cons d ds =>
        rw [List.flatMap_cons, List.flatMap_cons] at h
        obtain ⟨rfl, hrest⟩ := escape_append_inj h
        rw [ih ds hrest]
  have hquotes : s.toList.flatMap escape ++ ['"'] = t.toList.flatMap escape ++ ['"'] := by
    simpa [quoted, ← String.toList_inj] using h
  exact String.toList_inj.1 (hflat _ _ (List.append_cancel_right hquotes))

theorem break_notMem_escape (c : Char) : '\n' ∉ escape c := by
  rcases escape_cases c with ⟨letter, hc, heq⟩ | ⟨hc, heq⟩ | heq
  · have hall : ∀ p ∈ letterEscapes, '\n' ∉ ['\\', p.2] := by decide
    exact heq ▸ hall _ hc
  · simp only [List.mem_cons, not_or] at hc
    simp [heq, Ne.symm hc.2.2.1]
  · rw [heq]
    intro h
    simp only [List.mem_cons, List.mem_append, List.not_mem_nil, or_false, Char.reduceEq,
      false_or] at h
    obtain ⟨d, hd, hdigit⟩ := mem_digits_of_mem_toDigits h
    have hall : ∀ d < 16, '\n' ≠ d.digitChar := by decide
    exact hall d hd hdigit

/-- A quoted text stands on one line. -/
theorem break_notMem_quoted (s : String) : '\n' ∉ (quoted s).toList := by
  simp [quoted, break_notMem_escape]

theorem toList_quoted (s : String) :
    (quoted s).toList = '"' :: (s.toList.flatMap escape ++ ['"']) := by
  simp [quoted]

end Text

end Highlighter
