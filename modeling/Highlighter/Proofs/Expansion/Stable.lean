import Highlighter.Proofs.Expansion.Substitution

/-!
What has been expanded holds no reference. The text between two references has none, and no new one
comes about where the expansion of a fragment joins it, because the group around that is written with
characters that stand in no reference. So a pattern that has been expanded is expanded to itself.
-/

namespace Highlighter

namespace Fragment

/-- A text that does not hold some character stands on one side of it. -/
theorem exists_split_of_notMem {α : Type} {x : α} {a b before ref behind : List α} (hx : x ∉ ref)
    (h : a ++ x :: b = before ++ (ref ++ behind)) :
    (∃ after, a = before ++ (ref ++ after)) ∨ ∃ front, b = front ++ (ref ++ behind) := by
  rcases List.append_eq_append_iff.1 h with ⟨t, rfl, ht⟩ | ⟨t, rfl, ht⟩
  · cases t with
    | nil =>
      cases ref with
      | nil => exact .inl ⟨[], by simp⟩
      | cons r ref => exact absurd ((List.cons.inj ht).1 ▸ List.mem_cons_self) hx
    | cons y front => exact .inr ⟨front, (List.cons.inj ht).2⟩
  · rcases List.append_eq_append_iff.1 ht with ⟨u, rfl, hu⟩ | ⟨u, rfl, hu⟩
    · exact .inl ⟨u, rfl⟩
    · cases u with
      | nil => exact .inl ⟨[], by simp⟩
      | cons y u =>
        obtain rfl : x = y := (List.cons.inj hu).1
        exact absurd (List.mem_append_right _ List.mem_cons_self) hx

/-- No reference stands across a character that stands in none. -/
theorem mentions_append_cons {x : Char} (hx : x ∈ ['(', '?', ':', ')']) {a b : List Char}
    {name : String} (h : Mentions (a ++ x :: b) name) : Mentions a name ∨ Mentions b name := by
  obtain ⟨before, ref, behind, href, heq⟩ := h
  rcases exists_split_of_notMem (href.notMem hx) heq with ⟨after, rfl⟩ | ⟨front, rfl⟩
  · exact .inl ⟨before, ref, after, href, rfl⟩
  · exact .inr ⟨front, ref, behind, href, rfl⟩

theorem not_mentions_nil (name : String) : ¬ Mentions [] name := by
  rw [← reference_mem_pieces_iff, pieces]
  exact List.not_mem_nil

/-- A group mentions what the text in it mentions. -/
theorem mentions_group {inner s name : String}
    (h : Mentions ("(?:" ++ inner ++ ")" ++ s).toList name) :
    Mentions inner.toList name ∨ Mentions s.toList name := by
  have hsplit : ("(?:" ++ inner ++ ")" ++ s).toList =
      [] ++ '(' :: ([] ++ '?' :: ([] ++ ':' :: (inner.toList ++ ')' :: s.toList))) := by
    simp [String.toList_append]
  rw [hsplit] at h
  have h := (mentions_append_cons (by simp) h).resolve_left (not_mentions_nil name)
  have h := (mentions_append_cons (by simp) h).resolve_left (not_mentions_nil name)
  have h := (mentions_append_cons (by simp) h).resolve_left (not_mentions_nil name)
  exact mentions_append_cons (by simp) h

variable {source? : String → Option String}

/-- Up to the first group, a text that has been substituted is the text as it was. -/
theorem Substituted.stands_first {cs : List Char} {s : String} (h : Substituted source? cs s)
    {front : List Char} (hfront : '(' ∉ front) (hstands : front <+: s.toList) : front <+: cs := by
  induction h generalizing front with
  | nil => exact hstands
  | @char c rest s none substituted ih =>
    cases front with
    | nil => exact List.nil_prefix
    | cons d front =>
      rw [String.toList_append, String.toList_singleton, List.singleton_append,
        List.cons_prefix_cons] at hstands
      rw [List.mem_cons, not_or] at hfront
      exact List.cons_prefix_cons.2 ⟨hstands.1, ih hfront.2 hstands.2⟩
  | @replaced cs behind name source inner s starts found fragment substituted ihFragment ih =>
    cases front with
    | nil => exact List.nil_prefix
    | cons d front =>
      have hgroup : ("(?:" ++ inner ++ ")" ++ s).toList =
          '(' :: ("?:" ++ inner ++ ")" ++ s).toList := by
        simp [String.toList_append]
      rw [hgroup, List.cons_prefix_cons] at hstands
      exact absurd (hstands.1 ▸ List.mem_cons_self) hfront

/-- A text that has been substituted mentions nothing. -/
theorem Substituted.not_mentions {cs : List Char} {s : String} (h : Substituted source? cs s)
    (name : String) : ¬ Mentions s.toList name := by
  induction h with
  | nil => exact not_mentions_nil name
  | @char c rest s none substituted ih =>
    rw [String.toList_append, String.toList_singleton, List.singleton_append, mentions_cons, not_or]
    refine ⟨?_, ih⟩
    rintro ⟨behind, ref, href, heq⟩
    -- a reference in front would have been written there before the references behind were replaced
    obtain ⟨after, hafter⟩ : ref <+: c :: rest := by
      refine (Substituted.char none substituted).stands_first (href.notMem (by simp)) ?_
      rw [String.toList_append, String.toList_singleton, List.singleton_append, heq]
      exact List.prefix_append ref behind
    exact none name after ⟨ref, href, hafter.symm⟩
  | replaced starts found fragment substituted ihFragment ih =>
    exact fun h => (mentions_group h).elim ihFragment ih

/-- A pattern that mentions nothing is made of characters. -/
theorem pieces_of_not_mentions {cs : List Char} (h : ∀ name, ¬ Mentions cs name) :
    pieces cs = cs.map .char := by
  induction cs with
  | nil => rw [pieces, List.map_nil]
  | cons c rest ih =>
    simp only [mentions_cons, not_or, not_exists] at h
    rw [pieces_char fun name => (h name).1, ih fun name => (h name).2, List.map_cons]

theorem expand_of_not_mentions {nesting : Nat} {pattern : String}
    (h : ∀ name, ¬ Mentions pattern.toList name) :
    expand source? nesting pattern = .ok pattern := by
  rw [expand_eq_mapM, pieces_of_not_mentions h, mapM_char, Except.map, join_singleton,
    String.ofList_toList]

end Fragment

open Fragment

/-- What a pattern has been expanded to holds no reference, and is expanded to itself with any library
and any fragments. -/
theorem Library.expand_stable {lib : Library} {own : String → Option String} {pattern s : String}
    (h : lib.expand own pattern = .ok s) :
    (∀ name, ¬ Mentions s.toList name) ∧
      ∀ (lib' : Library) (own' : String → Option String), lib'.expand own' s = .ok s := by
  have hsubstituted := (expand_eq_iff.1 h).substituted
  exact ⟨hsubstituted.not_mentions, fun _ _ => expand_of_not_mentions hsubstituted.not_mentions⟩

/-- Braces that are left over around references do not make another. -/
theorem Library.expand_braces :
    let lib : Library := { fragments := [("a", "\x7b"), ("b", "a\x7d\x7d")] }
    let s := "\x7b(?:\x7b)(?:a\x7d\x7d)\x7d \x7b\x7bc \x7b(?:\x7b)a \x7d\x7d"
    lib.expand (fun _ => none)
        "\x7b\x7b\x7ba\x7d\x7d\x7b\x7b b\x7d\x7d\x7d \x7b\x7bc \x7b\x7b\x7ba\x7d\x7da \x7d\x7d" =
      .ok s ∧
    (∀ name, ¬ Mentions s.toList name) ∧
      ({} : Library).expand (fun name => some name) s = .ok s := by
  intro lib s
  have hexpand : lib.expand (fun _ => none)
      "\x7b\x7b\x7ba\x7d\x7d\x7b\x7b b\x7d\x7d\x7d \x7b\x7bc \x7b\x7b\x7ba\x7d\x7da \x7d\x7d" =
        .ok s := by
    decide +kernel
  obtain ⟨hnone, hsame⟩ := Library.expand_stable hexpand
  exact ⟨hexpand, hnone, hsame {} _⟩

end Highlighter
