import Highlighter.Data.Json.Printer
import Highlighter.Data.Json.Reader

/-!
Single values in JSON. A text and a number are read back from what is written of them, whatever stands
behind: a text because its closing quote is the first that is not escaped, a number as long as what
stands behind cannot go on with it.
-/

namespace Highlighter.Json

/-- What may stand behind a value: its end, or what separates it from the next. -/
def Delimits (rest : List Char) : Prop := ∀ c ∈ rest.head?, c = ',' ∨ c = ']' ∨ c = '\x7d'

theorem delimits_nil : Delimits [] := nofun

theorem delimits_cons {c : Char} (h : c = ',' ∨ c = ']' ∨ c = '\x7d') (rest : List Char) :
    Delimits (c :: rest) := by
  rintro d hd
  cases hd
  exact h

section Texts

theorem hexUnit?_append {cs back : List Char} {n : Nat} (h : hexUnit? cs = some (n, back))
    (rest : List Char) : hexUnit? (cs ++ rest) = some (n, back ++ rest) := by
  match cs, h with
  | a :: b :: c :: d :: cs, h =>
    simp only [hexUnit?, Option.bind_eq_bind, Option.bind_eq_some_iff, Option.pure_def] at h
    obtain ⟨a', ha, b', hb, c', hc, d', hd, h⟩ := h
    cases h
    simp [hexUnit?, ha, hb, hc, hd]

/-- A number below those of surrogates is that of its character. -/
theorem unicode?_of_hexUnit? {cs rest : List Char} {n : Nat} (h : hexUnit? cs = some (n, rest))
    (hn : n < 0xD800) : unicode? cs = some (Char.ofNat n, rest) := by
  have hlow : ¬ 0xDC00 ≤ n := by omega
  have hhigh : ¬ 0xD800 ≤ n := by omega
  simp [unicode?, h, hlow, hhigh]

theorem string?_plain (fuel : Nat) (read : List Char) {c : Char} (rest : List Char) (hquote : c ≠ '"')
    (hbackslash : c ≠ '\\') (hcontrol : ¬ c.toNat < 0x20) :
    string? (fuel + 1) read (c :: rest) = string? fuel (c :: read) rest := by
  simp [string?, hbackslash, hcontrol]

/-- A control character is read back from the digits of its number. -/
theorem string?_control (fuel : Nat) (read : List Char) {c : Char} (rest : List Char)
    (hc : c.toNat < 0x20) :
    let ds := Nat.toDigits 16 c.toNat
    string? (fuel + 1) read (['\\', 'u'] ++ List.replicate (4 - ds.length) '0' ++ ds ++ rest) =
      string? fuel (c :: read) rest := by
  have hall : ∀ n < 0x20, let ds := Nat.toDigits 16 n
      hexUnit? (List.replicate (4 - ds.length) '0' ++ ds) = some (n, []) := by decide
  intro ds
  have hread := unicode?_of_hexUnit? (hexUnit?_append (hall c.toNat hc) rest) (by omega)
  simp only [List.cons_append, List.nil_append, List.append_assoc] at hread ⊢
  rw [string?, hread, Char.ofNat_toNat]
  rfl

/-- Each character is read back from how it stands in a string. -/
theorem string?_escape (fuel : Nat) (read : List Char) (c : Char) (rest : List Char) :
    string? (fuel + 1) read (escape c ++ rest) = string? fuel (c :: read) rest := by
  unfold escape
  simp only [beq_iff_eq]
  split
  case isTrue h => subst h; rfl
  split
  case isTrue h => subst h; rfl
  split
  case isTrue h => subst h; rfl
  split
  case isTrue h => subst h; rfl
  split
  case isTrue h => subst h; rfl
  split
  case isTrue h => subst h; rfl
  split
  case isTrue h => subst h; rfl
  split
  case isTrue hc => exact string?_control fuel read rest hc
  case isFalse hquote hbackslash _ _ _ _ _ hc =>
    exact string?_plain fuel read rest hquote hbackslash hc

theorem string?_escaped {fuel : Nat} (read : List Char) {cs : List Char} (hfuel : cs.length ≤ fuel)
    (rest : List Char) : string? fuel read (cs.flatMap escape ++ '"' :: rest) =
      some (String.ofList (read.reverse ++ cs), rest) := by
  induction cs generalizing fuel read with
  | nil => cases fuel <;> simp [string?]
  | cons c cs ih =>
    obtain ⟨fuel, rfl⟩ := Nat.exists_eq_add_of_le' (Nat.le_trans (Nat.le_add_left 1 _) hfuel)
    rw [List.flatMap_cons, List.append_assoc, string?_escape,
      ih (c :: read) (Nat.le_of_succ_le_succ hfuel)]
    simp

theorem length_le_escaped (cs : List Char) : cs.length ≤ (cs.flatMap escape).length := by
  have hpos : ∀ c, 1 ≤ (escape c).length := by
    intro c
    unfold escape
    repeat' split
    all_goals simp
  induction cs with
  | nil => exact Nat.zero_le _
  | cons c cs ih =>
    have := hpos c
    rw [List.flatMap_cons, List.length_append, List.length_cons]
    omega

theorem toList_quote (s : String) :
    (quote s).toList = '"' :: (s.toList.flatMap escape ++ ['"']) :=
  String.toList_ofList

/-- A text is read back from its quotation. -/
theorem string?_quote (s : String) (rest : List Char) :
    ∃ body, (quote s).toList ++ rest = '"' :: body ∧
      string? body.length [] body = some (s, rest) := by
  refine ⟨s.toList.flatMap escape ++ '"' :: rest, by simp [toList_quote], ?_⟩
  rw [string?_escaped]
  · simp
  · have := length_le_escaped s.toList
    rw [List.length_append]
    omega

end Texts

section Numbers

variable {rest : List Char}

theorem head?_toDigits_ne_zero {n : Nat} (hn : 0 < n) : (Nat.toDigits 10 n).head? ≠ some '0' := by
  induction n using Nat.strongRecOn with
  | _ n ih =>
    by_cases hlt : n < 10
    · rw [Nat.toDigits_of_lt_base hlt]
      simp
      omega
    · rw [Nat.toDigits_of_base_le (by decide) (Nat.not_lt.1 hlt), List.head?_append]
      have hfront := ih (n / 10) (by omega) (by omega)
      cases hds : (Nat.toDigits 10 (n / 10)).head? with
      | none => exact absurd (List.head?_eq_none_iff.1 hds) Nat.toDigits_ne_nil
      | some d => rwa [hds] at hfront

/-- The digits of a number are all that is read of it, unless more digits stand behind. -/
theorem digits_toDigits (n : Nat) (h : ∀ c ∈ rest.head?, c.isDigit = false) :
    digits (Nat.toDigits 10 n ++ rest) = (Nat.toDigits 10 n, rest) := by
  have hall : ∀ c ∈ Nat.toDigits 10 n, c.isDigit = true :=
    fun c hc => Nat.isDigit_of_mem_toDigits (by decide) (by decide) hc
  have hrest : rest.takeWhile Char.isDigit = [] ∧ rest.dropWhile Char.isDigit = rest := by
    cases rest with
    | nil => exact ⟨rfl, rfl⟩
    | cons c rest => simp [h c rfl]
  rw [digits, List.takeWhile_append_of_pos hall, List.dropWhile_append_of_pos hall, hrest.1, hrest.2,
    List.append_nil]

/-- What may stand behind a value does not go on with a number. -/
theorem Delimits.head (h : Delimits rest) :
    ∀ c ∈ rest.head?, c.isDigit = false ∧ c ≠ '.' ∧ c ≠ 'e' ∧ c ≠ 'E' := by
  intro c hc
  rcases h c hc with rfl | rfl | rfl <;> decide

theorem exponent?_of_delimits (h : Delimits rest) : exponent? rest = some (false, 0, rest) := by
  cases rest with
  | nil => rfl
  | cons c rest =>
    obtain ⟨-, -, hsmall, hlarge⟩ := h.head c rfl
    simp [exponent?, hsmall, hlarge]

theorem head_toDigits (n : Nat) : ∃ d ds, Nat.toDigits 10 n = d :: ds ∧ d.isDigit = true ∧
    ((d :: ds).length > 1 && (d :: ds).head? == some '0') = false := by
  obtain ⟨d, ds, hds⟩ := List.exists_cons_of_ne_nil (Nat.toDigits_ne_nil (n := n) (b := 10))
  have hdigit : d.isDigit = true :=
    Nat.isDigit_of_mem_toDigits (by decide) (by decide) (hds ▸ List.mem_cons_self ..)
  refine ⟨d, ds, hds, hdigit, ?_⟩
  cases n with
  | zero =>
    rw [Nat.toDigits_zero] at hds
    cases hds
    rfl
  | succ n =>
    have hhead := head?_toDigits_ne_zero (Nat.succ_pos n)
    rw [hds] at hhead
    rw [beq_false_of_ne hhead, Bool.and_false]

/-- A number is read back from its digits. -/
theorem number?_toDigits {n : Nat} (hn : n < UInt64.size) (h : Delimits rest) :
    number? (Nat.toDigits 10 n ++ rest) = some (.int n, rest) := by
  have hdigits := digits_toDigits n fun c hc => (h.head c hc).1
  have hvalue : valueOf (Nat.toDigits 10 n) = n := Nat.ofDigitChars_ten_toDigits
  obtain ⟨d, ds, hds, hdigit, hzero⟩ := head_toDigits n
  rw [hds] at hdigits hvalue ⊢
  unfold number?
  split
  rename_i negative cs hsign
  obtain ⟨rfl, rfl⟩ : negative = false ∧ cs = d :: ds ++ rest := by
    split at hsign
    · rename_i heq
      rw [List.cons_append] at heq
      rw [(List.cons.inj heq).1] at hdigit
      exact absurd hdigit (by decide)
    · cases hsign
      exact ⟨rfl, rfl⟩
  simp only [hdigits, List.isEmpty_cons, hzero, Bool.or_self, Bool.false_eq_true, ↓reduceIte]
  split
  · exact absurd rfl (h.head '.' rfl).2.1
  · simp [exponent?_of_delimits h, hvalue, hn]

end Numbers

/-- A single value that JSON tells from every other: a number is one without a sign or a point, of 64
bits. -/
def IsPlain : Scalar → Prop
  | .int n => 0 ≤ n ∧ n < UInt64.size
  | .float _ => False
  | .null | .bool _ | .string _ => True

/-- How a single value begins: not with a blank, and not like a list or a map or the end of one. -/
def Begins (cs : List Char) : Prop :=
  ∃ c rest, cs = c :: rest ∧ isBlank c = false ∧ c ≠ '[' ∧ c ≠ ']' ∧ c ≠ '\x7b'

/-- A single value is read back from how it is written. -/
theorem scalar?_scalar {s : Scalar} (hs : IsPlain s) {rest : List Char} (h : Delimits rest) :
    Begins ((scalar s).toList ++ rest) ∧ scalar? ((scalar s).toList ++ rest) = some (s, rest) := by
  match s, hs with
  | .null, _ => exact ⟨⟨'n', _, rfl, by decide⟩, rfl⟩
  | .bool true, _ => exact ⟨⟨'t', _, rfl, by decide⟩, rfl⟩
  | .bool false, _ => exact ⟨⟨'f', _, rfl, by decide⟩, rfl⟩
  | .string s, _ =>
    obtain ⟨body, hbody, hread⟩ := string?_quote s rest
    rw [scalar, hbody]
    refine ⟨⟨'"', body, rfl, by decide⟩, ?_⟩
    rw [scalar?, hread]
    rfl
  | .int n, hs =>
    obtain ⟨n, rfl⟩ := Int.eq_ofNat_of_zero_le hs.1
    have htext : (scalar (.int n)).toList = Nat.toDigits 10 n := Nat.toList_repr
    have hread := number?_toDigits (Int.ofNat_lt.1 hs.2) h
    obtain ⟨d, ds, hds, hdigit, -⟩ := head_toDigits n
    rw [htext]
    rw [hds] at hread ⊢
    have hhead : ∀ c : Char, c.isDigit = false → d ≠ c := by
      rintro c hc rfl
      rw [hdigit] at hc
      cases hc
    refine ⟨⟨d, ds ++ rest, rfl, ?_, hhead _ rfl, hhead _ rfl, hhead _ rfl⟩, ?_⟩
    · simp [isBlank, hhead]
    · rw [scalar?, hread]
      all_goals
        intro behind heq
        exact absurd (List.cons.inj heq).1 (hhead _ rfl)

end Highlighter.Json
