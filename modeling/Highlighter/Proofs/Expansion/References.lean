import Highlighter.Proofs.Reading.Words
import Mathlib.Data.List.TakeWhile

/-!
References as they are written, told without the search for them. References do not overlap, so the
search, which goes on behind each that it finds, comes to all that stand in a pattern.
-/

namespace Highlighter.Fragment

/-- A name that can be referred to: a letter or an underscore, and then digits as well. -/
def IsName (name : String) : Prop :=
  ∃ c cs, name.toList = c :: cs ∧ isNameStart c = true ∧ ∀ d ∈ cs, isNameChar d = true

/-- A reference as it is written: a name in double braces, where blanks may stand around the name. -/
def IsReference (name : String) (ref : List Char) : Prop :=
  ∃ before behind, IsName name ∧ (∀ c ∈ before, Text.isSpace c = true) ∧
    (∀ c ∈ behind, Text.isSpace c = true) ∧
    ref = '{' :: '{' :: (before ++ (name.toList ++ (behind ++ ['}', '}'])))

/-- A text begins with a reference, and this is what stands behind it. -/
def Starts (cs : List Char) (name : String) (behind : List Char) : Prop :=
  ∃ ref, IsReference name ref ∧ cs = ref ++ behind

/-- A reference to a name stands somewhere in a text. -/
def Mentions (cs : List Char) (name : String) : Prop :=
  ∃ before ref behind, IsReference name ref ∧ cs = before ++ (ref ++ behind)

theorem isNameChar_of_isNameStart {c : Char} (h : isNameStart c = true) : isNameChar c = true := by
  unfold isNameStart at h
  unfold isNameChar Char.isAlphanum
  rcases Bool.or_eq_true_iff.1 h with h | h <;> simp [h]

theorem not_isNameChar_of_isSpace {c : Char} (h : Text.isSpace c = true) : isNameChar c = false := by
  rw [← Bool.not_eq_true]
  intro hname
  rw [isSpace_of_isNameChar hname] at h
  cases h

theorem IsName.isNameChar {name : String} (h : IsName name) :
    ∀ c ∈ name.toList, isNameChar c = true := by
  obtain ⟨c, cs, hname, hstart, hchars⟩ := h
  rw [hname]
  exact List.forall_mem_cons.2 ⟨isNameChar_of_isNameStart hstart, hchars⟩

/-- A reference is found just where one is written. -/
theorem reference?_eq_some_iff {cs : List Char} {name : String} {behind : List Char} :
    reference? cs = some (name, behind) ↔ Starts cs name behind := by
  constructor
  · intro h
    unfold reference? at h
    split at h
    · rename_i rest
      split at h
      · rename_i c cs hrest
        split at h
        · rename_i hstart
          obtain ⟨closed, hclosed, h⟩ := Option.map_eq_some_iff.1 h
          cases h
          have hend : (cs.dropWhile isNameChar).dropWhile Text.isSpace = '}' :: '}' :: behind := by
            unfold closed? at hclosed
            split at hclosed
            · rename_i heq
              cases hclosed
              exact heq
            · cases hclosed
          refine ⟨_, ⟨rest.takeWhile Text.isSpace, (cs.dropWhile isNameChar).takeWhile Text.isSpace,
            ⟨c, cs.takeWhile isNameChar, String.toList_ofList, hstart,
              fun d hd => List.mem_takeWhile_imp hd⟩,
            fun d hd => List.mem_takeWhile_imp hd, fun d hd => List.mem_takeWhile_imp hd, rfl⟩, ?_⟩
          simp only [String.toList_ofList, List.cons_append, List.append_assoc, List.nil_append]
          rw [← hend, List.takeWhile_append_dropWhile, List.takeWhile_append_dropWhile, ← hrest,
            List.takeWhile_append_dropWhile]
        · cases h
      · cases h
    · cases h
  · rintro ⟨_, ⟨before, blanks, ⟨c, cs, hname, hstart, hchars⟩, hbefore, hblanks, rfl⟩, rfl⟩
    have hspace : Text.isSpace c = false :=
      isSpace_of_isNameChar (isNameChar_of_isNameStart hstart)
    have hbrace : Text.isSpace '}' = false := by decide +kernel
    -- neither a blank nor a brace goes on with the name
    have hbehind : (blanks ++ '}' :: '}' :: behind).takeWhile isNameChar = [] ∧
        (blanks ++ '}' :: '}' :: behind).dropWhile isNameChar = blanks ++ '}' :: '}' :: behind := by
      cases blanks with
      | nil => exact ⟨rfl, rfl⟩
      | cons d ds =>
        have hd := not_isNameChar_of_isSpace (hblanks d List.mem_cons_self)
        simp [hd]
    have hsplit : '{' :: '{' :: (before ++ (name.toList ++ (blanks ++ ['}', '}']))) ++ behind =
        '{' :: '{' :: (before ++ c :: (cs ++ (blanks ++ '}' :: '}' :: behind))) := by
      simp [hname]
    rw [hsplit, reference?, List.dropWhile_append_of_pos hbefore]
    simp only [List.dropWhile_cons, hspace, Bool.false_eq_true, ↓reduceIte, hstart]
    rw [List.dropWhile_append_of_pos hchars, List.takeWhile_append_of_pos hchars, hbehind.1,
      hbehind.2, List.dropWhile_append_of_pos hblanks, List.dropWhile_cons_of_neg (by simp [hbrace]),
      List.append_nil, ← hname, String.ofList_toList]
    rfl

/-- What follows the opening braces of a reference. -/
theorem IsReference.exists_body {name : String} {ref : List Char} (h : IsReference name ref) :
    ∃ body, ref = '{' :: '{' :: body ∧ body ≠ [] ∧
      ∀ c ∈ body, Text.isSpace c = true ∨ isNameChar c = true ∨ c = '}' := by
  obtain ⟨before, behind, hname, hbefore, hbehind, rfl⟩ := h
  refine ⟨_, rfl, by simp, ?_⟩
  simp only [List.mem_append]
  rintro c (hc | hc | hc | hc)
  · exact .inl (hbefore c hc)
  · exact .inr (.inl (hname.isNameChar c hc))
  · exact .inl (hbehind c hc)
  · exact .inr (.inr (by simpa using hc))

/-- Characters that stand in no reference. -/
theorem IsReference.notMem {name : String} {ref : List Char} (h : IsReference name ref) {c : Char}
    (hc : c ∈ ['(', '?', ':', ')']) : c ∉ ref := by
  have hall : ['(', '?', ':', ')'].all (fun c =>
      !Text.isSpace c && !isNameChar c && c != '}' && c != '{') = true := by decide +kernel
  have hnone := List.all_eq_true.1 hall c hc
  simp only [Bool.and_eq_true, Bool.not_eq_true', bne_iff_ne, ne_eq] at hnone
  obtain ⟨⟨⟨hspace, hname⟩, hclosing⟩, hopening⟩ := hnone
  obtain ⟨body, rfl, -, hbody⟩ := h.exists_body
  simp only [List.mem_cons, not_or]
  refine ⟨hopening, hopening, fun hmem => ?_⟩
  rcases hbody c hmem with h | h | h
  · exact absurd h (by simp [hspace])
  · exact absurd h (by simp [hname])
  · exact hclosing h

theorem IsReference.brace_notMem_body {name : String} {body : List Char}
    (h : IsReference name ('{' :: '{' :: body)) : body ≠ [] ∧ '{' ∉ body := by
  obtain ⟨body', heq, hne, hbody⟩ := h.exists_body
  cases heq
  refine ⟨hne, fun hmem => ?_⟩
  have hnone : Text.isSpace '{' = false ∧ isNameChar '{' = false := by decide +kernel
  rcases hbody '{' hmem with h | h | h
  · exact absurd h (by simp [hnone.1])
  · exact absurd h (by simp [hnone.2])
  · exact absurd h (by decide)

theorem Starts.unique {cs : List Char} {name name' : String} {behind behind' : List Char}
    (h : Starts cs name behind) (h' : Starts cs name' behind') : name = name' ∧ behind = behind' := by
  have heq := (reference?_eq_some_iff.2 h).symm.trans (reference?_eq_some_iff.2 h')
  simpa using heq

theorem Starts.length_lt {cs : List Char} {name : String} {behind : List Char}
    (h : Starts cs name behind) : behind.length < cs.length := by
  obtain ⟨ref, href, rfl⟩ := h
  obtain ⟨body, rfl, -⟩ := href.exists_body
  simp only [List.cons_append, List.length_cons, List.length_append]
  omega

theorem reference?_eq_none_iff {cs : List Char} :
    reference? cs = none ↔ ∀ name behind, ¬ Starts cs name behind := by
  simp only [← reference?_eq_some_iff, Option.eq_none_iff_forall_ne_some, Prod.forall, ne_eq]

/-- Where no reference begins, one character stands for itself. -/
theorem pieces_char {c : Char} {rest : List Char}
    (h : ∀ name behind, ¬ Starts (c :: rest) name behind) :
    pieces (c :: rest) = .char c :: pieces rest := by
  rw [pieces, reference?_eq_none_iff.2 h]

theorem pieces_reference {cs : List Char} {name : String} {behind : List Char}
    (h : Starts cs name behind) : pieces cs = .reference name :: pieces behind := by
  cases cs with
  | nil => exact absurd h.length_lt (Nat.not_lt_zero _)
  | cons c rest =>
    rw [pieces, reference?_eq_some_iff.2 h]
    exact if_pos h.length_lt

/-- What holds of every text if it holds of a text that begins with a reference because of what is
behind that, and of any other because of what is behind its first character. -/
theorem text_induction {P : List Char → Prop} (nil : P [])
    (char : ∀ c rest, (∀ name behind, ¬ Starts (c :: rest) name behind) → P rest → P (c :: rest))
    (reference : ∀ cs name behind, Starts cs name behind → P behind → P cs) (cs : List Char) :
    P cs := by
  induction hn : cs.length using Nat.strongRecOn generalizing cs with
  | _ n ih =>
    subst hn
    cases hfound : reference? cs with
    | some found =>
      have hstarts := reference?_eq_some_iff.1 hfound
      exact reference cs _ _ hstarts (ih _ hstarts.length_lt _ rfl)
    | none =>
      cases cs with
      | nil => exact nil
      | cons c rest =>
        exact char c rest (reference?_eq_none_iff.1 hfound) (ih _ (Nat.lt_succ_self _) rest rfl)

theorem Mentions.of_starts {cs : List Char} {name : String} {behind : List Char}
    (h : Starts cs name behind) : Mentions cs name := by
  obtain ⟨ref, href, rfl⟩ := h
  exact ⟨[], ref, behind, href, rfl⟩

theorem Mentions.append {cs : List Char} {name : String} (h : Mentions cs name) (front : List Char) :
    Mentions (front ++ cs) name := by
  obtain ⟨before, ref, behind, href, rfl⟩ := h
  exact ⟨front ++ before, ref, behind, href, by simp⟩

/-- A reference that does not begin a text stands behind the first character. -/
theorem mentions_cons {c : Char} {rest : List Char} {name : String} :
    Mentions (c :: rest) name ↔ (∃ behind, Starts (c :: rest) name behind) ∨ Mentions rest name := by
  constructor
  · rintro ⟨before, ref, behind, href, heq⟩
    cases before with
    | nil => exact .inl ⟨behind, ref, href, heq⟩
    | cons b before =>
      cases heq
      exact .inr ⟨before, ref, behind, href, rfl⟩
  · rintro (⟨behind, h⟩ | h)
    · exact .of_starts h
    · exact h.append [c]

/-- Behind the first braces of a reference no other begins before its end. -/
theorem mentions_of_starts {cs : List Char} {name name' : String} {behind : List Char}
    (h : Starts cs name behind) (hmentions : Mentions cs name') :
    name' = name ∨ Mentions behind name' := by
  obtain ⟨ref, href, rfl⟩ := h
  obtain ⟨before, ref', behind', href', heq⟩ := hmentions
  obtain ⟨body, rfl, -⟩ := href.exists_body
  obtain ⟨hne, hbrace⟩ := href.brace_notMem_body
  obtain ⟨body', rfl, -⟩ := href'.exists_body
  match before with
  | [] =>
    have hsame : name' = name :=
      (Starts.unique ⟨_, href', heq⟩ ⟨_, href, rfl⟩).1
    exact .inl hsame
  | [b] =>
    obtain ⟨d, ds, rfl⟩ := List.exists_cons_of_ne_nil hne
    simp only [List.cons_append, List.nil_append, List.cons.injEq] at heq
    exact absurd List.mem_cons_self (heq.2.2.1 ▸ hbrace)
  | b :: b' :: before =>
    simp only [List.cons_append, List.cons.injEq] at heq
    rcases List.append_eq_append_iff.1 heq.2.2 with ⟨t, rfl, hbehind⟩ | ⟨t, rfl, ht⟩
    · exact .inr ⟨t, _, behind', href', hbehind⟩
    · cases t with
      | nil => exact .inr ⟨[], _, behind', href', by simpa using ht.symm⟩
      | cons d ds =>
        obtain rfl : '{' = d := (List.cons.inj ht).1
        exact absurd (List.mem_append_right _ List.mem_cons_self) hbrace

/-- The pieces of a pattern refer to what is mentioned in it. -/
theorem reference_mem_pieces_iff {cs : List Char} {name : String} :
    .reference name ∈ pieces cs ↔ Mentions cs name := by
  induction cs using text_induction with
  | nil =>
    rw [pieces]
    refine ⟨fun h => absurd h List.not_mem_nil, ?_⟩
    rintro ⟨before, ref, behind, href, heq⟩
    obtain ⟨body, rfl, -⟩ := href.exists_body
    simp at heq
  | char c rest none ih =>
    rw [pieces_char none, mentions_cons, ← ih, List.mem_cons]
    constructor
    · rintro (h | h)
      · cases h
      · exact .inr h
    · rintro (⟨behind, h⟩ | h)
      · exact absurd h (none _ _)
      · exact .inr h
  | reference cs name' behind starts ih =>
    rw [pieces_reference starts, List.mem_cons, ih]
    constructor
    · rintro (h | h)
      · cases h
        exact .of_starts starts
      · obtain ⟨ref, href, rfl⟩ := starts
        exact h.append ref
    · intro h
      rcases mentions_of_starts starts h with rfl | h
      · exact .inl rfl
      · exact .inr h

end Highlighter.Fragment
