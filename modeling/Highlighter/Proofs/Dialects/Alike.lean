import Highlighter.Proofs.Dialects.Rules
import Highlighter.Proofs.Keywords
import Highlighter.Proofs.Registry.Orders
import Highlighter.Proofs.Twins.Recased
import Highlighter.Proofs.Twins.Text

/-!
The bundled grammars highlight alike. Their scanners look for the same functions in two spellings,
which are one where case is disregarded, and the language that the one embeds is for it what the
language that the other embeds is for that.
-/

namespace Highlighter

open Regex Regex.Reader Fragment

namespace Regex.Reader

theorem letter_otherCase (c : Char) : letter true (Text.otherCase c) = (letter true c).recased := by
  simp only [letter, ↓reduceIte, recased, mapSets, ← recased_tidied]
  rfl

/-- Words in the other case. -/
theorem regex_wordsPiece_recased {ws : List String}
    (h : ∀ w ∈ ws, ∀ c ∈ w.toList, Text.otherCase c = c.toUpper) :
    (wordsPiece true (ws.map String.toUpper)).regex = (wordsPiece true ws).regex.recased := by
  rw [regex_wordsPiece, regex_wordsPiece, ← factored_recased, List.map_map, List.map_map]
  congr 1
  refine List.map_congr_left fun w hw => ?_
  simp only [Function.comp_apply, ← recased_sequence, String.toUpper, String.toList_map,
    List.map_map]
  congr 1
  refine List.map_congr_left fun c hc => ?_
  simp only [Function.comp_apply, ← letter_otherCase, h w hw c hc]

end Regex.Reader

namespace Alternative

theorem callRegex_recased {ws : List String}
    (h : ∀ w ∈ ws, ∀ c ∈ w.toList, Text.otherCase c = c.toUpper) :
    callRegex (ws.map String.toUpper) = (callRegex ws).recased := by
  have hwords : factored [(wordsPiece true (ws.map String.toUpper)).regex] =
      (factored [(wordsPiece true ws).regex]).recased := by
    rw [regex_wordsPiece_recased h]
    exact factored_recased [(wordsPiece true ws).regex]
  unfold callRegex
  rw [hwords]
  exact factored_recased [sequence [.look .wordEdge,
    .group none (factored [(wordsPiece true ws).regex]), .star true (.char .space),
    .char (.one '(')]]

theorem regex_call {ws : List String} (hne : ws ≠ []) (h : ∀ w ∈ ws, IsWord w) (hit : Hit) :
    regex ⟨callOpening ws, true, hit⟩ = factored [callRegex ws] := by
  obtain ⟨p, hp, hregex, hdepth⟩ := piece?_call hne h
  rw [← hregex]
  exact (regex_eq_of_piece? (a := ⟨callOpening ws, true, hit⟩) hp
    (Nat.le_trans (Nat.add_le_add_right hdepth 4) (by decide))).2

/-- Calls of functions are found whatever the case of the functions. -/
theorem endAt?_call {ws : List String} (hne : ws ≠ []) (h : ∀ w ∈ ws, IsWord w)
    (hupper : ∀ w ∈ ws.map String.toUpper, IsWord w)
    (hcase : ∀ w ∈ ws, ∀ c ∈ w.toList, Text.otherCase c = c.toUpper) (hit : Hit) (text : Haystack)
    (p : Nat) :
    (regex ⟨callOpening (ws.map String.toUpper), true, hit⟩).endAt? text p =
      (regex ⟨callOpening ws, true, hit⟩).endAt? text p := by
  have hne' : ws.map String.toUpper ≠ [] := by simpa using hne
  rw [regex_call hne h, regex_call hne' hupper, callRegex_recased hcase,
    ← endAt?_recased (factored [callRegex ws]), ← factored_recased]
  rfl

end Alternative

namespace Registry

section Pair

variable {g g' : Grammar} (apart : g.Apart g')

include apart

/-- Two grammars with keys of their own can be registered one after the other. -/
theorem fits_pair : Registry.Fits {} [g, g'] := fits_empty.2 (List.pairwise_pair.2 apart)

theorem inStep_pair : Registry.InStep { grammars := [g, g'] } :=
  ((inStep_empty .standard).foldl_push (fits_pair apart)).1

theorem ofSpecs_pair {a b : GrammarSpec} (hg : a.compile .standard = .ok g)
    (hg' : b.compile .standard = .ok g') (hvalid : Registry.validate { grammars := [g, g'] } = .ok ()) :
    ofSpecs [a, b] = .ok { grammars := [g, g'] } := by
  have hempty := inStep_empty .standard
  obtain ⟨free, hrest⟩ := fits_cons.1 (fits_pair apart)
  have hboth : [a, b].foldlM (fun r spec => (registerSpec r spec).map Prod.fst) ({} : Registry) =
      .ok { grammars := [g, g'] } := by
    simp only [List.foldlM_cons, List.foldlM_nil, hempty.registerSpec_of_free hg free,
      Except.map, bind, Except.bind, pure, Except.pure]
    rw [(hempty.push free).registerSpec_of_free hg' (hrest.free g' List.mem_cons_self)]
    rfl
  simp only [ofSpecs, hboth, hvalid, bind, Except.bind, pure, Except.pure]

end Pair

end Registry

namespace Bundled

open Compile Scan

/-- A grammar that speaks a dialect: it is compiled from it, and its rules are those of all
dialects. -/
structure Speaks (shared : Shared) (name byname : String) (ws : List String) (g : Grammar) : Prop where
  compiles : Compiles (dialect name byname ws) .standard g
  rules : g.rules = shared.rules (Alternative.callOpening ws) byname

variable {shared : Shared} {name byname : String} {ws : List String}

theorem Shared.Fit.joins (fit : shared.Fit) (language : String) (hne : ws ≠ [])
    (hws : ∀ w ∈ ws, IsWord w) :
    ∀ rule ∈ shared.rules (Alternative.callOpening ws) language, rule.joins = true := by
  refine List.forall_mem_cons.2 ⟨?_, List.forall_mem_cons.2 ⟨fit.types.joins,
    List.forall_mem_cons.2 ⟨fit.quoted.joins, List.forall_mem_cons.2 ⟨fit.dollar.2,
      fun rule hrule => (fit.rest rule hrule).joins⟩⟩⟩⟩
  rw [Rule.joins, fit.call.2.2]
  exact Alternative.joins_call hne hws _

/-- The keywords of a dialect can be read. -/
theorem exists_keywords (name byname : String) (ws : List String) (caseless : Bool) :
    ∃ table, KeywordTable.ofLists (dialect name byname ws).keywords caseless = .ok table := by
  have hbars : ∀ w ∈ keywords, '|' ∉ w.toList := by
    have hall : keywords.all (fun w => !w.toList.contains '|') = true := by decide +kernel
    intro w hw
    simpa using List.all_eq_true.1 hall w hw
  have hgroups : '|' ∉ (" ".intercalate keywords).toList := by
    intro hmem
    rcases mem_intercalate hmem with hspace | ⟨w, hw, hc⟩
    · exact absurd hspace (by decide)
    · exact hbars w hw hc
  refine KeywordTable.exists_ofLists caseless fun item hitem entry hentry => ?_
  have hbar : ∀ {text : String}, item.2 = .text text → '|' ∉ text.toList →
      entry.isEmpty = false ∧ '|' ∉ entry.toList := by
    intro text htext hbar
    rw [htext] at hentry
    obtain ⟨hne, hsub⟩ := Text.within_of_mem_words hentry
    exact ⟨hne, fun hmem => hbar (hsub _ hmem)⟩
  rcases List.mem_cons.1 hitem with rfl | hitem
  · exact hbar rfl hgroups
  · cases List.mem_singleton.1 hitem
    exact hbar rfl (by decide)

theorem exists_grammar (fit : shared.Fit) (hne : ws ≠ []) (hws : ∀ w ∈ ws, IsWord w)
    (hname : (Text.trim name).isEmpty = false)
    (hrules : compileRules (context name byname ws) maxReferences (rules byname) .root 0 true =
        .ok (shared.rules (Alternative.callOpening ws) byname)) :
    ∃ g, (dialect name byname ws).compile .standard = .ok g ∧ Speaks shared name byname ws g := by
  obtain ⟨keywords, hkeywords⟩ := exists_keywords name byname ws true
  obtain ⟨s, hs⟩ := Option.isSome_iff_exists.1
    (Alternative.isSome_build? (joins_openings (fit.joins byname hne hws)))
  have hroot : rootScanner (context name byname ws)
      (shared.rules (Alternative.callOpening ws) byname) = .ok s := by
    have hillegal : illegalAlternatives (context name byname ws) = .ok [] := rfl
    simp only [rootScanner, hillegal, bind, Except.bind, List.append_nil, Context.scanner, hs]
  have hword : wordRegex (context name byname ws) = .ok (.plus true (.char .word)) := rfl
  obtain ⟨g, hg, hgrules⟩ := @exists_compile (dialect name byname ws) .standard keywords _ _ s hname
    hkeywords hword hrules hroot
  exact ⟨g, hg, compiles_of_compile hg, hgrules⟩

/-- The scanner of a dialect finds the first opening of its rules. -/
theorem Speaks.find?_eq_first? (fit : shared.Fit) (hne : ws ≠ []) (hws : ∀ w ∈ ws, IsWord w)
    {g : Grammar} (hg : Speaks shared name byname ws g) (text : Haystack) (p : Nat) :
    g.scanner.find? text p =
      (text.first? (Scanner.foundAt? (openings g.rules) text) p).map fun (first, hit, stop) =>
        (hit, first, stop) := by
  have hbuild := build?_of_rootScanner hg.compiles.scanner rfl
  rw [List.append_nil] at hbuild
  exact Scanner.find?_eq_first? hbuild (fun a ha => Alternative.isWhole_of_joins
    (joins_openings (hg.rules ▸ fit.joins byname hne hws) a ha)) text p

/-- The scanners of two dialects find the same. -/
theorem Speaks.scanner_eq (fit : shared.Fit) (hne : ws ≠ []) (hws : ∀ w ∈ ws, IsWord w)
    (hupper : ∀ w ∈ ws.map String.toUpper, IsWord w)
    (hcase : ∀ w ∈ ws, ∀ c ∈ w.toList, Text.otherCase c = c.toUpper) {name' byname' : String}
    {g g' : Grammar} (hg : Speaks shared name byname ws g)
    (hg' : Speaks shared name' byname' (ws.map String.toUpper) g') :
    g.scanner.find? = g'.scanner.find? := by
  have hfound : ∀ text, Scanner.foundAt? (openings g.rules) text =
      Scanner.foundAt? (openings g'.rules) text := by
    intro text
    funext p
    rw [hg.rules, hg'.rules]
    simp only [Shared.rules, openings, List.mapIdx_cons, Scanner.foundAt?, List.findSome?_cons, fit.call.2.2,
      Alternative.endAt?_call hne hws hupper hcase]
  funext text p
  rw [hg.find?_eq_first? fit hne hws, hg'.find?_eq_first? fit (by simpa using hne) hupper, hfound]

section Twins

variable {w : Pairing} (same : w.SameText) {name' byname' : String} {g g' : Grammar}

include same

theorem plain_twin {rule : Rule} (hplain : Plain rule) (hsound : rule.Sound) : rule.Twin w rule :=
  same.rule_twin (fun name hname => by rw [hplain.languages] at hname; cases hname) hsound

/-- A rule without rules inside it acts alike under another opening and for another language. -/
theorem leaf_twin (rule : Rule) (hinner : rule.inner = []) (opening : String)
    {language : Option String} (hlanguage : Option.Rel w.language rule.language language) :
    rule.Twin w { rule with opening, language } :=
  .intro (same.rule_alike rule opening hlanguage) rfl fun i r r' hr => by
    rw [hinner] at hr
    cases hr

theorem Speaks.rules_twin (fit : shared.Fit) (hlanguage : w.language byname byname')
    {ws ws' : List String} (hg : Speaks shared name byname ws g)
    (hg' : Speaks shared name' byname' ws' g') (i : Nat) :
    Option.Rel (Rule.Twin w) g.rules[i]? g'.rules[i]? := by
  have hsound := g.rules_sound
  rw [hg.rules] at hsound
  obtain ⟨-, hsound⟩ := List.forall_mem_cons.1 hsound
  obtain ⟨htypes, hsound⟩ := List.forall_mem_cons.1 hsound
  obtain ⟨hquoted, hsound⟩ := List.forall_mem_cons.1 hsound
  obtain ⟨-, hrest⟩ := List.forall_mem_cons.1 hsound
  rw [hg.rules, hg'.rules]
  have hnone : Option.Rel w.language shared.call.language shared.call.language := by
    rw [fit.call.2.1]
    exact .none
  have hshared : ∀ i : Nat, Option.Rel (Rule.Twin w) shared.rest[i]? shared.rest[i]? :=
    rel_getElem?_self fun r hmem => plain_twin same (fit.rest r hmem) (hrest r hmem)
  match i with
  | 0 => exact .some (leaf_twin same { shared.call with opening := _ } fit.call.1 _ hnone)
  | 1 => exact .some (plain_twin same fit.types htypes)
  | 2 => exact .some (plain_twin same fit.quoted hquoted)
  | 3 => exact .some (leaf_twin same { shared.dollar with language := some byname } fit.dollar.1 _
      (.some hlanguage))
  | i + 4 => exact hshared i

theorem Speaks.twin (fit : shared.Fit) (hlanguage : w.language byname byname') (hne : ws ≠ [])
    (hws : ∀ w ∈ ws, IsWord w) (hupper : ∀ w ∈ ws.map String.toUpper, IsWord w)
    (hcase : ∀ w ∈ ws, ∀ c ∈ w.toList, Text.otherCase c = c.toUpper)
    (hg : Speaks shared name byname ws g)
    (hg' : Speaks shared name' byname' (ws.map String.toUpper) g') : g.Twin w g' where
  rules := Speaks.rules_twin same fit hlanguage hg hg'
  scanner := by
    rw [hg.scanner_eq fit hne hws hupper hcase hg']
    exact same.finds_scanner g'.scanner
  word := by
    rw [Except.ok.inj (hg.compiles.word.symm.trans hg'.compiles.word)]
    exact same.finds_word g'.word
  keyword := by
    intro a b hb
    rw [same.slice_eq a hb, Except.ok.inj (hg.compiles.keywords.symm.trans hg'.compiles.keywords)]
  key := by
    intro a b hb
    rw [same.slice_eq a hb, Except.ok.inj (hg.compiles.keywords.symm.trans hg'.compiles.keywords)]

end Twins

/-- The functions are words in lower case, and in upper case they are words as well. -/
theorem functions_words : (∀ w ∈ functions, IsWord w) ∧
    (∀ w ∈ functions.map String.toUpper, IsWord w) ∧
    ∀ w ∈ functions, ∀ c ∈ w.toList, Text.otherCase c = c.toUpper := by
  have hall : functions.all (fun w => w.toList.all fun c =>
      isNameChar c && isNameChar c.toUpper && Text.otherCase c == c.toUpper) = true := by
    decide +kernel
  have hchar : ∀ w ∈ functions, ∀ c ∈ w.toList, isNameChar c = true ∧ isNameChar c.toUpper = true ∧
      Text.otherCase c = c.toUpper := by
    intro w hw c hc
    have h := List.all_eq_true.1 (List.all_eq_true.1 hall w hw) c hc
    simpa only [Bool.and_eq_true, beq_iff_eq, and_assoc] using h
  refine ⟨fun w hw c hc => (hchar w hw c hc).1, fun w hw c hc => ?_,
    fun w hw c hc => (hchar w hw c hc).2.2⟩
  obtain ⟨v, hv, rfl⟩ := List.mem_map.1 hw
  rw [String.toUpper, String.toList_map] at hc
  obtain ⟨d, hd, rfl⟩ := List.mem_map.1 hc
  exact (hchar v hv d hd).2.1

/-- A dialect embeds no language but itself. -/
theorem Speaks.languages (fit : shared.Fit) {g : Grammar} (hg : Speaks shared name byname ws g) :
    ∀ language ∈ g.languages, language = byname := by
  intro language h
  rw [Grammar.languages, List.mem_eraseDups, hg.rules] at h
  obtain ⟨rule, hrule, h⟩ := Rule.mem_languagesOf.1 h
  have hplain : Plain rule → language = byname := by
    intro hplain
    rw [hplain.languages] at h
    cases h
  simp only [Shared.rules, List.mem_cons] at hrule
  rcases hrule with rfl | rfl | rfl | rfl | hrule
  · rw [Rule.languages_eq] at h
    simp [fit.call, Rule.languagesOf] at h
  · exact hplain fit.types
  · exact hplain fit.quoted
  · rw [Rule.languages_eq] at h
    simpa [fit.dollar.1, Rule.languagesOf] using h
  · exact hplain (fit.rest rule hrule)

/-- A dialect is valid where its own name is known. -/
theorem Speaks.valid (fit : shared.Fit) {g : Grammar} (hg : Speaks shared name byname ws g)
    {r : Registry} (hhas : r.has byname = true) : r.validateGrammar g = .ok () := by
  refine Registry.validateGrammar_eq_ok_iff.2 ⟨fun target htarget => ?_, fun language h => ?_⟩
  · exact nomatch hg.compiles.supersetOf.symm.trans htarget
  · rwa [hg.languages fit language h]

theorem Speaks.keys {g : Grammar} (hg : Speaks shared name byname ws g) :
    g.keys = ([name, byname].map Text.lowercase).eraseDups := by
  rw [Grammar.keys, hg.compiles.name, hg.compiles.aliases]
  rfl

/-- The grammars of the two dialects. -/
structure Pair (shared : Shared) (g g' : Grammar) : Prop where
  fit : shared.Fit
  present : Speaks shared "CocoSQL" "cocosql" functions g
  earlier : Speaks shared "coco-sql-old" "cocosql-old" (functions.map String.toUpper) g'

namespace Pair

variable {shared : Shared} {g g' : Grammar} (pair : Pair shared g g')

include pair

theorem keys : g.keys = ["cocosql"] := by
  rw [pair.present.keys]
  decide +kernel

theorem keys' : g'.keys = ["coco-sql-old", "cocosql-old"] := by
  rw [pair.earlier.keys]
  decide +kernel

theorem apart : g.Apart g' := by
  rw [Grammar.apart_iff, pair.keys, pair.keys']
  decide

theorem find_present : Registry.find? { grammars := [g, g'] } "cocosql" = some g := by
  refine (Registry.inStep_pair pair.apart).find?_eq_some_iff.2 ⟨by simp, ?_⟩
  rw [← Grammar.mem_keys, pair.keys]
  decide +kernel

theorem find_earlier {language : String} (h : language ∈ ["coco-sql-old", "cocosql-old"]) :
    Registry.find? { grammars := [g, g'] } language = some g' := by
  have hkeys : ∀ language ∈ ["coco-sql-old", "cocosql-old"],
      Text.lowercase language ∈ ["coco-sql-old", "cocosql-old"] := by
    decide +kernel
  refine (Registry.inStep_pair pair.apart).find?_eq_some_iff.2 ⟨by simp, ?_⟩
  rw [← Grammar.mem_keys, pair.keys']
  exact hkeys language h

/-- The dialects read a text alike. The language that the one embeds is for it what the language that
the other embeds is for that. -/
theorem exists_twin (maxDepth : Nat) (text : String) :
    ∃ w : Pairing, Context.Twin w
      (Highlighting.start g (Registry.find? { grammars := [g, g'] }) maxDepth text).ctx
      (Highlighting.start g' (Registry.find? { grammars := [g, g'] }) maxDepth text).ctx := by
  let source := Source.ofString text
  let w : Pairing :=
    ⟨source, source, source.size, fun name name' => name = "cocosql" ∧ name' = "cocosql-old"⟩
  have same : w.SameText := fun _ _ => rfl
  obtain ⟨hwords, hupper, hcase⟩ := functions_words
  have htwin : g.Twin w g' := Speaks.twin same pair.fit ⟨rfl, rfl⟩ (List.cons_ne_nil _ _) hwords
    hupper hcase pair.present pair.earlier
  have hrel : Option.Rel (Grammar.Twin w) (Registry.find? { grammars := [g, g'] } "cocosql")
      (Registry.find? { grammars := [g, g'] } "cocosql-old") := by
    rw [pair.find_present, pair.find_earlier (by decide)]
    exact .some htwin
  exact ⟨w, {
    left := rfl
    right := rfl
    grammar := htwin
    language := by
      rintro _ _ ⟨rfl, rfl⟩
      exact hrel
    cap := rfl
    stop := rfl
    stop_le := Nat.le_refl _
    base := rfl }⟩

/-- The two grammars are registered, since neither embeds a language but itself. -/
theorem bundled (hg : cocoSql.compile .standard = .ok g)
    (hg' : earlierCocoSql.compile .standard = .ok g') :
    Registry.bundled = .ok { grammars := [g, g'] } := by
  refine Registry.ofSpecs_pair pair.apart hg hg' (Registry.forM_eq_ok_iff.2
    (List.forall_mem_cons.2 ⟨?_, List.forall_mem_singleton.2 ?_⟩))
  · exact pair.present.valid pair.fit (Registry.has_iff.2 ⟨_, pair.find_present⟩)
  · exact pair.earlier.valid pair.fit (Registry.has_iff.2 ⟨_, pair.find_earlier (by decide)⟩)

end Pair

theorem exists_pair : ∃ shared g g', Pair shared g g' ∧
    Registry.bundled = .ok { grammars := [g, g'] } := by
  obtain ⟨hwords, hupper, -⟩ := functions_words
  obtain ⟨shared, fit, hrules⟩ := exists_shared
  obtain ⟨g, hg, present⟩ := exists_grammar fit (List.cons_ne_nil _ _) hwords (by decide +kernel)
    (hrules "CocoSQL" "cocosql" functions (List.cons_ne_nil _ _) hwords)
  obtain ⟨g', hg', earlier⟩ := exists_grammar fit (List.cons_ne_nil _ _) hupper (by decide +kernel)
    (hrules "coco-sql-old" "cocosql-old" _ (List.cons_ne_nil _ _) hupper)
  have pair : Pair shared g g' := ⟨fit, present, earlier⟩
  exact ⟨shared, g, g', pair, pair.bundled hg hg'⟩

end Bundled

/-- The bundled grammars are registered, and highlight every text alike, to every depth: the
highlights differ in the name of the language only. -/
theorem bundled_alike : ∃ r, Registry.bundled = .ok r ∧ ∀ (maxDepth : Nat) (text : String),
    ∃ tokens outcome,
      r.highlight? "cocosql" maxDepth text = some ⟨"CocoSQL", tokens, outcome⟩ ∧
        r.highlight? "coco-sql-old" maxDepth text = some ⟨"coco-sql-old", tokens, outcome⟩ := by
  obtain ⟨shared, g, g', pair, hbundled⟩ := Bundled.exists_pair
  refine ⟨{ grammars := [g, g'] }, hbundled, fun maxDepth text => ?_⟩
  obtain ⟨w, htwin⟩ := pair.exists_twin maxDepth text
  obtain ⟨tokens, outcome, hpresent, hearlier⟩ := htwin.exists_highlight rfl 0
  have hname : g.name = "CocoSQL" := pair.present.compiles.name
  have hname' : g'.name = "coco-sql-old" := pair.earlier.compiles.name
  refine ⟨tokens, outcome, ?_, ?_⟩
  · rw [Registry.highlight?, Registry.start?, pair.find_present, ← hname]
    exact congrArg some hpresent
  · rw [Registry.highlight?, Registry.start?, pair.find_earlier (by decide), ← hname']
    exact congrArg some hearlier

end Highlighter
