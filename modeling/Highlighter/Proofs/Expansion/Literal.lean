import Highlighter.Proofs.Expansion.Stable
import Highlighter.Proofs.Extending
import Highlighter.Proofs.Reading.Spelled

/-!
Fragments of words stay literal. Every brace in a word is escaped, so the pattern of the words refers
to nothing; and a pattern that is nothing but a reference to them matches the first of the words that
the text goes on with.
-/

namespace Highlighter

namespace Fragment

/-- A text in which no opening brace follows anything but a backslash refers to nothing. -/
theorem not_mentions_of_isChain {cs : List Char} (h : cs.IsChain fun a b => b = '\x7b' → a = '\\')
    (name : String) : ¬ Mentions cs name := by
  rintro ⟨before, ref, behind, href, rfl⟩
  obtain ⟨body, rfl, -⟩ := href.exists_body
  have hbraces := h.right_of_append.left_of_append
  rw [List.isChain_cons_cons] at hbraces
  exact absurd (hbraces.1 rfl) (by decide)

/-- An escaped text has no opening brace that does not follow a backslash, whatever stands in front. -/
theorem isChain_escaped {rest : List Char}
    (hrest : ∀ a, (a :: rest).IsChain fun a b => b = '\x7b' → a = '\\') (cs : List Char) (a : Char) :
    (a :: (cs.flatMap escaped ++ rest)).IsChain fun a b => b = '\x7b' → a = '\\' := by
  induction cs generalizing a with
  | nil => exact hrest a
  | cons c cs ih =>
    rw [List.flatMap_cons, List.append_assoc]
    by_cases hc : c ∈ Regex.Reader.metaCharacters
    · rw [escaped_of_meta hc]
      simp only [List.cons_append, List.nil_append, List.isChain_cons_cons]
      exact ⟨by simp, fun _ => trivial, ih c⟩
    · rw [escaped_of_not_meta hc, List.singleton_append, List.isChain_cons_cons]
      exact ⟨fun hbrace => absurd (by simp [hbrace, Regex.Reader.metaCharacters]) hc, ih c⟩

theorem isChain_toPattern (ws : List String) (a : Char) :
    (a :: (FragmentSpec.words ws).toPattern.toList).IsChain fun a b => b = '\x7b' → a = '\\' := by
  induction ws generalizing a with
  | nil => exact .singleton a
  | cons w ws ih =>
    cases ws with
    | nil =>
      have hword := isChain_escaped .singleton (Text.trim w).toList a
      rwa [List.append_nil, ← toList_escapePattern, ← toPattern_singleton] at hword
    | cons w' ws =>
      rw [toPattern_cons, String.toList_append, String.toList_append, toList_escapePattern,
        List.append_assoc]
      refine isChain_escaped (fun b => ?_) _ a
      exact List.isChain_cons_cons.2 ⟨fun hbar => absurd hbar (by decide), ih '|'⟩

/-- A pattern that is nothing but a reference is one piece. -/
theorem pieces_isReference {name : String} {ref : List Char} (h : IsReference name ref) :
    pieces ref = [.reference name] := by
  rw [pieces_reference ⟨ref, h, (List.append_nil ref).symm⟩, pieces]

end Fragment

open Fragment

namespace Alternative

open Regex.Reader

/-- Words in a group are read as the words. -/
theorem ofRulePattern?_group_words {ws : List String} (hne : ws ≠ []) (caseless : Bool) :
    Regex.ofRulePattern? ("(?:" ++ (FragmentSpec.words ws).toPattern ++ ")") caseless =
      some (wordsPiece caseless (ws.map Text.trim)).regex := by
  let flags := modes caseless
  let words := wordsPiece caseless (ws.map Text.trim)
  obtain ⟨branches, items, hread, heq⟩ :=
    foldlM_toPattern (show flags.spaced = false from rfl) [⟨.nothing, flags, [], []⟩] [] [] hne
  have hwords : choiceOf (sequenceOf items :: branches) = words := by
    rw [heq, List.append_nil]
    rfl
  have hfront : "(?:".toList.foldlM step? (fresh flags) =
      some ⟨flags, [⟨.nothing, flags, [], []⟩], [], [], [], false, .ready⟩ := rfl
  have hclose : step? ⟨flags, [⟨.nothing, flags, [], []⟩], branches, items, [], false, .ready⟩ ')' =
      some ⟨flags, [], [], [.piece ⟨words.regex, words.depth + 1⟩], [], false, .ready⟩ := by
    rw [step?_close rfl rfl, ← hwords]
    rfl
  have hpiece : piece? ("(?:" ++ (FragmentSpec.words ws).toPattern ++ ")") caseless =
      some ⟨Regex.factored [words.regex], words.depth + 1⟩ := by
    refine piece?_eq_some.2
      ⟨⟨flags, [], [], [.piece ⟨words.regex, words.depth + 1⟩], [], false, .ready⟩, ?_,
        ⟨rfl, rfl, rfl⟩, rfl, rfl⟩
    rw [String.toList_append, List.foldlM_append, String.toList_append, List.foldlM_append, hfront]
    simp only [Option.bind_eq_bind, Option.bind_some, hread]
    rw [show ")".toList = [')'] from rfl, List.foldlM_cons, hclose]
    rfl
  have hdepth : words.depth + 1 + 3 ≤ maxDepth :=
    Nat.le_trans (Nat.add_le_add_right (depth_wordsPiece_le caseless (ws.map Text.trim)) 4) (by decide)
  have hregex : Regex.factored [words.regex] = words.regex := by
    rw [regex_wordsPiece]
    exact Regex.factored_factored _
  rw [ofRulePattern?_of_piece? hpiece hdepth, hregex, hregex]

end Alternative

/-- The words of a fragment stay literal. The pattern of the words contains no reference, so a reference
to them becomes a group of just that pattern; and as a pattern of its own, where case matters, it
matches just where the text goes on with one of the words, and then the first of those in the list. -/
theorem FragmentSpec.words_literal {ws : List String} (hne : ws ≠ []) :
    (∀ name, ¬ Mentions (FragmentSpec.words ws).toPattern.toList name) ∧
      ∀ (ctx : Compile.Context) (name : String) (ref : List Char), IsReference name ref →
        ctx.spec.fragment? name = some (.words ws) →
          let group := "(?:" ++ (FragmentSpec.words ws).toPattern ++ ")"
          ctx.expand (String.ofList ref) = .ok group ∧
            ∃ r, ctx.check group false = .ok r ∧ ∀ (h : Haystack) (p : Nat),
              r.endAt? h p = (ws.map Text.trim).findSome? fun w => h.spelled? p w.toList := by
  have hnone : ∀ name, ¬ Mentions (FragmentSpec.words ws).toPattern.toList name :=
    fun name hmentions =>
      not_mentions_of_isChain (isChain_toPattern ws ' ') name (hmentions.append [' '])
  refine ⟨hnone, fun ctx name ref href hfragment => ⟨?_, ?_⟩⟩
  · have hsource : ctx.source? name = some (FragmentSpec.words ws).toPattern := by
      rw [Compile.Context.source?, hfragment]
      rfl
    have hpieces : pieces (String.ofList ref).toList =
        "".toList.map .char ++ .reference name :: "".toList.map .char := by
      rw [String.toList_ofList, pieces_isReference href]
      rfl
    refine Compile.Context.expand_eq_ok.2
      ((expand_reference name hpieces hsource (expand_of_not_mentions hnone)).trans ?_)
    rw [String.empty_append, String.append_empty]
  · refine ⟨(Regex.Reader.wordsPiece false (ws.map Text.trim)).regex, ?_, fun h p => ?_⟩
    · rw [Compile.Context.check, Alternative.ofRulePattern?_group_words hne false]
    · have hwords : (Regex.Reader.wordsPiece false (ws.map Text.trim)).regex =
          Regex.factored ((ws.map fun w => (Text.trim w).toList).map Regex.word) := by
        rw [Regex.Reader.regex_wordsPiece, List.map_map, List.map_map]
        rfl
      rw [hwords, Regex.endAt?_factored_words (by simpa using hne), List.findSome?_map,
        List.findSome?_map]
      rfl

/-- Words with a dot, a bar and braces in them, one of them the beginning of another, match only
themselves. -/
theorem FragmentSpec.words_literal_braces :
    let ws := ["a.b", " \x7b\x7bx\x7d\x7d ", "a|", "a"]
    let ctx : Compile.Context := ⟨{ name := "words", fragments := [("some", .words ws)] }, {}⟩
    (∀ name, ¬ Mentions (FragmentSpec.words ws).toPattern.toList name) ∧
      ctx.expand "\x7b\x7b some\x7d\x7d" =
        .ok "(?:a\\.b|\\\x7b\\\x7bx\\\x7d\\\x7d|a\\||a)" ∧
      ∃ r, ctx.check "(?:a\\.b|\\\x7b\\\x7bx\\\x7d\\\x7d|a\\||a)" false = .ok r ∧
        r.endAt? ⟨#['a', '|', 'b'], 3⟩ 0 = some 2 ∧ r.endAt? ⟨#['a', 'x', 'b'], 3⟩ 0 = some 1 ∧
        r.endAt? ⟨#['\x7b', '\x7b', 'x', '\x7d', '\x7d'], 5⟩ 0 = some 5 ∧
        r.endAt? ⟨#['x'], 1⟩ 0 = none := by
  intro ws ctx
  have href : IsReference "some" "\x7b\x7b some\x7d\x7d".toList := by
    have hname : IsName "some" :=
      ⟨'s', ['o', 'm', 'e'], rfl, rfl, List.all_eq_true.1 (by decide)⟩
    exact ⟨[' '], [], hname, List.forall_mem_singleton.2 (by decide), nofun, rfl⟩
  obtain ⟨hnone, hwords⟩ := FragmentSpec.words_literal (show ws ≠ [] from List.cons_ne_nil _ _)
  obtain ⟨hexpand, r, hcheck, hmatch⟩ := hwords ctx "some" _ href rfl
  rw [String.ofList_toList] at hexpand
  have hpattern : "(?:" ++ (FragmentSpec.words ws).toPattern ++ ")" =
      "(?:a\\.b|\\\x7b\\\x7bx\\\x7d\\\x7d|a\\||a)" := by decide +kernel
  rw [hpattern] at hexpand hcheck
  have htrim : ws.map Text.trim = ["a.b", "\x7b\x7bx\x7d\x7d", "a|", "a"] := by decide +kernel
  simp only [htrim] at hmatch
  refine ⟨hnone, hexpand, r, hcheck, ?_⟩
  simp only [hmatch]
  decide +kernel

end Highlighter
