import Highlighter.Grammar.Fragment
import Highlighter.Proofs.Reading.Nested
import Highlighter.Text.Letters

/-!
Lists of words in patterns. A reader takes the words of a fragment one after the other, and in each
word one character after the other, escaped or not. Words made of letters, digits and underscores
stand for themselves wherever they are written: as a fragment they are not escaped, and references
are not found in them.
-/

namespace Highlighter

namespace Fragment

/-- A word whose characters may all stand in names. -/
def IsWord (w : String) : Prop := ∀ c ∈ w.toList, isNameChar c = true

/-- The pattern that matches any of some words. -/
def anyOf (ws : List String) : String := "|".intercalate ws

theorem eq_ofNat_of_isNameChar {c : Char} (h : isNameChar c = true) :
    ∃ n < 128, c = Char.ofNat n := by
  refine ⟨c.toNat, Nat.lt_of_not_le fun hwide => ?_, c.ofNat_toNat.symm⟩
  rw [isNameChar, Text.isAlphanum_of_wide hwide, Bool.false_or, beq_iff_eq] at h
  rw [h] at hwide
  exact absurd hwide (by decide)

theorem isSpace_of_isNameChar {c : Char} (h : isNameChar c = true) : Text.isSpace c = false := by
  have hall : ∀ n < 128, isNameChar (Char.ofNat n) → Text.isSpace (Char.ofNat n) = false := by
    decide +kernel
  obtain ⟨n, hn, rfl⟩ := eq_ofNat_of_isNameChar h
  exact hall n hn h

theorem not_meta_of_isNameChar {c : Char} (h : isNameChar c = true) :
    c ∉ Regex.Reader.metaCharacters := by
  intro hmem
  have hall : Regex.Reader.metaCharacters.all (!isNameChar ·) = true := by decide
  have hnot := List.all_eq_true.1 hall c hmem
  rw [h] at hnot
  cases hnot

theorem IsWord.trim_eq {w : String} (h : IsWord w) : Text.trim w = w := by
  have hkeep : ∀ {cs : List Char}, (∀ c ∈ cs, isNameChar c = true) →
      cs.dropWhile Text.isSpace = cs := by
    intro cs hcs
    cases cs with
    | nil => rfl
    | cons c cs =>
      rw [List.dropWhile_cons_of_neg]
      simp [isSpace_of_isNameChar (hcs c (List.mem_cons_self ..))]
  unfold Text.trim
  rw [hkeep h, hkeep fun c hc => h c (List.mem_reverse.1 hc), List.reverse_reverse,
    String.ofList_toList]

/-- A character as it is written in a pattern that is to match it. -/
def escaped (c : Char) : List Char :=
  if Regex.Reader.metaCharacters.contains c then ['\\', c] else [c]

theorem toList_escapePattern (w : String) :
    (FragmentSpec.escapePattern w).toList = w.toList.flatMap escaped :=
  String.toList_ofList

theorem escaped_of_meta {c : Char} (h : c ∈ Regex.Reader.metaCharacters) :
    escaped c = ['\\', c] := by
  simp [escaped, h]

theorem escaped_of_not_meta {c : Char} (h : c ∉ Regex.Reader.metaCharacters) :
    escaped c = [c] := by
  simp [escaped, h]

theorem IsWord.escapePattern_eq {w : String} (h : IsWord w) :
    FragmentSpec.escapePattern w = w := by
  have hsame : ∀ {cs : List Char}, (∀ c ∈ cs, isNameChar c = true) → cs.flatMap escaped = cs := by
    intro cs hcs
    induction cs with
    | nil => rfl
    | cons c cs ih =>
      rw [List.flatMap_cons, ih fun c hc => hcs c (List.mem_cons_of_mem _ hc),
        escaped_of_not_meta (not_meta_of_isNameChar (hcs c (List.mem_cons_self ..)))]
      rfl
  rw [← String.toList_inj, toList_escapePattern, hsame h]

theorem toPattern_singleton (w : String) :
    (FragmentSpec.words [w]).toPattern = FragmentSpec.escapePattern (Text.trim w) := by
  simp only [FragmentSpec.toPattern, List.map_cons, List.map_nil, String.intercalate_singleton]

/-- The words of a fragment stand one behind the other with bars between them. -/
theorem toPattern_cons (w w' : String) (ws : List String) :
    (FragmentSpec.words (w :: w' :: ws)).toPattern =
      FragmentSpec.escapePattern (Text.trim w) ++ "|" ++
        (FragmentSpec.words (w' :: ws)).toPattern := by
  simp only [FragmentSpec.toPattern, List.map_cons, String.intercalate_cons_cons]

/-- A fragment of words is the words with bars between them. -/
theorem toPattern_words {ws : List String} (h : ∀ w ∈ ws, IsWord w) :
    (FragmentSpec.words ws).toPattern = anyOf ws := by
  have hsame : ws.map (fun w => FragmentSpec.escapePattern (Text.trim w)) = ws := by
    rw [List.map_congr_left (g := id), List.map_id]
    intro w hw
    rw [(h w hw).trim_eq, (h w hw).escapePattern_eq, id]
  exact congrArg ("|".intercalate ·) hsame

theorem mem_intercalate {separator : String} {ws : List String} {c : Char}
    (h : c ∈ (separator.intercalate ws).toList) :
    c ∈ separator.toList ∨ ∃ w ∈ ws, c ∈ w.toList := by
  induction ws with
  | nil => cases h
  | cons w ws ih =>
    cases ws with
    | nil =>
      rw [String.intercalate_singleton] at h
      exact .inr ⟨w, List.mem_singleton_self _, h⟩
    | cons w' ws =>
      rw [String.intercalate_cons_cons, String.toList_append, String.toList_append,
        List.mem_append, List.mem_append] at h
      rcases h with (h | h) | h
      · exact .inr ⟨w, List.mem_cons_self .., h⟩
      · exact .inl h
      · rcases ih h with h | ⟨w, hw, h⟩
        · exact .inl h
        · exact .inr ⟨w, List.mem_cons_of_mem _ hw, h⟩

theorem brace_notMem_anyOf {ws : List String} (h : ∀ w ∈ ws, IsWord w) :
    '\x7b' ∉ (anyOf ws).toList := by
  intro hmem
  rcases mem_intercalate hmem with hbar | ⟨w, hw, hc⟩
  · exact absurd hbar (by decide)
  · exact absurd (h w hw _ hc) (by decide)

theorem pieces_eq_map {cs : List Char} (h : '\x7b' ∉ cs) : pieces cs = cs.map .char := by
  induction cs with
  | nil => rw [pieces, List.map_nil]
  | cons c cs ih =>
    rw [List.mem_cons, not_or] at h
    have hnone : reference? (c :: cs) = none := by
      unfold reference?
      split
      · rename_i heq
        cases heq
        exact absurd rfl h.1
      · rfl
    rw [pieces, hnone, List.map_cons, ih h.2]

/-- What one piece of a pattern expands to. -/
def expandPiece (source? : String → Option String) (nesting : Nat) : Piece → Except Fault String
  | .char c => .ok (String.singleton c)
  | .reference name =>
    match nesting with
    | 0 => .error (.recursive name)
    | nesting + 1 =>
      match source? name with
      | none => .error (.undefined name)
      | some source => (expand source? nesting source).map fun s => "(?:" ++ s ++ ")"

theorem expand_eq_mapM (source? : String → Option String) (nesting : Nat) (pattern : String) :
    expand source? nesting pattern =
      ((pieces pattern.toList).mapM (expandPiece source? nesting)).map String.join := by
  have hpiece : ∀ f : Piece → Except Fault String, (∀ piece, f piece = expandPiece source? nesting piece) →
      ((pieces pattern.toList).mapM f).map String.join =
        ((pieces pattern.toList).mapM (expandPiece source? nesting)).map String.join := by
    intro f hf
    rw [funext hf]
  rw [expand]
  refine hpiece _ fun piece => ?_
  cases piece <;> cases nesting <;> rfl

section Source

variable {source? : String → Option String}

theorem mapM_char (nesting : Nat) (cs : List Char) :
    (cs.map Piece.char).mapM (expandPiece source? nesting) = .ok (cs.map String.singleton) := by
  induction cs with
  | nil => rfl
  | cons c cs ih =>
    rw [List.map_cons, List.mapM_cons, ih]
    rfl

theorem join_singleton (cs : List Char) : String.join (cs.map String.singleton) = String.ofList cs := by
  apply String.toList_injective
  rw [String.toList_join, String.toList_ofList, List.flatMap_map]
  simp

/-- A pattern without braces expands to itself. -/
theorem expand_eq (nesting : Nat) {pattern : String} (h : '\x7b' ∉ pattern.toList) :
    expand source? nesting pattern = .ok pattern := by
  rw [expand_eq_mapM, pieces_eq_map h, mapM_char, Except.map, join_singleton, String.ofList_toList]

/-- A reference becomes a group of what its fragment expands to. -/
theorem expand_reference {nesting : Nat} {pattern front back source s : String} (name : String)
    (hpieces : pieces pattern.toList =
      front.toList.map .char ++ .reference name :: back.toList.map .char)
    (hsource : source? name = some source) (hs : expand source? nesting source = .ok s) :
    expand source? (nesting + 1) pattern = .ok (front ++ "(?:" ++ s ++ ")" ++ back) := by
  have hname : expandPiece source? (nesting + 1) (.reference name) = .ok ("(?:" ++ s ++ ")") := by
    simp only [expandPiece, hsource, hs]
    rfl
  rw [expand_eq_mapM, hpieces, List.mapM_append, List.mapM_cons, mapM_char, mapM_char, hname]
  simp [bind, Except.bind, pure, Except.pure, Except.map, String.join_append, join_singleton, String.append_assoc]

end Source

end Fragment

namespace Regex.Reader

open Fragment

/-- What a character that stands for itself is read as. -/
def letter (caseless : Bool) (c : Char) : Regex :=
  .char (if caseless then tidied (.caseless (.one c)) else .one c)

/-- What a word is read as. -/
def wordPiece (caseless : Bool) (w : String) : Piece :=
  sequenceOf (w.toList.map fun c => .piece ⟨letter caseless c, 0⟩).reverse

/-- What words with bars between them are read as. -/
def wordsPiece (caseless : Bool) (ws : List String) : Piece :=
  choiceOf (ws.map (wordPiece caseless)).reverse

theorem regex_wordsPiece (caseless : Bool) (ws : List String) :
    (wordsPiece caseless ws).regex =
      factored (ws.map fun w => sequence (w.toList.map (letter caseless))) := by
  simp [wordsPiece, choiceOf, wordPiece, sequenceOf, Function.comp_def, List.filterMap_map,
    Item.regex?, ← List.map_reverse]

theorem depth_wordsPiece_le (caseless : Bool) (ws : List String) :
    (wordsPiece caseless ws).depth ≤ 2 := by
  refine depthOf_le fun depth hdepth => ?_
  obtain ⟨p, hp, rfl⟩ := List.mem_map.1 hdepth
  obtain ⟨w, -, rfl⟩ := List.mem_map.1 (List.mem_reverse.1 hp)
  refine depthOf_le fun depth hdepth => ?_
  obtain ⟨item, hitem, rfl⟩ := List.mem_map.1 hdepth
  obtain ⟨c, -, rfl⟩ := List.mem_map.1 (List.mem_reverse.1 hitem)
  exact Nat.le_refl _

section Words

variable {flags : Flags} (hspaced : flags.spaced = false) (groups : List Group)
  (branches : List Piece) (items : List Item) (names : List String)

include hspaced

theorem step?_letter {c : Char} (hc : c ∉ metaCharacters) :
    step? ⟨flags, groups, branches, items, names, false, .ready⟩ c =
      some ⟨flags, groups, branches, .piece ⟨letter flags.caseless c, 0⟩ :: items, names, false,
        .ready⟩ := by
  have hready : ∀ s : Reader, s.ready? c = some (s.push (s.charPiece c)) := by
    intro s
    unfold ready?
    split
    case h_13 => rfl
    all_goals exact absurd (by decide) hc
  simp [step?, settle, hspaced, take?, hready]
  rfl

/-- Behind a backslash, a character that would mean something else stands for itself. -/
theorem foldlM_backslash {c : Char} (hc : c ∈ metaCharacters) :
    ['\\', c].foldlM step? ⟨flags, groups, branches, items, names, false, .ready⟩ =
      some ⟨flags, groups, branches, .piece ⟨letter flags.caseless c, 0⟩ :: items, names, false,
        .ready⟩ := by
  have hall : ∀ c ∈ metaCharacters, hexWidth? c = none ∧ (c == 'b') = false ∧
      escaped? c = some (.char c) := by
    simp only [metaCharacters, List.forall_mem_cons, List.not_mem_nil, false_implies, implies_true,
      and_true]
    decide
  obtain ⟨hwidth, hedge, hatom⟩ := hall c hc
  have hbackslash : step? ⟨flags, groups, branches, items, names, false, .ready⟩ '\\' =
      some ⟨flags, groups, branches, items, names, false, .escape .branch⟩ := by
    simp [step?, settle, hspaced, take?, ready?]
  have hchar : step? ⟨flags, groups, branches, items, names, false, .escape .branch⟩ c =
      some ⟨flags, groups, branches, .piece ⟨letter flags.caseless c, 0⟩ :: items, names, false,
        .ready⟩ := by
    simp [step?, settle, hspaced, take?, hwidth, hedge, hatom, place?]
    rfl
  simp only [List.foldlM_cons, List.foldlM_nil, hbackslash, hchar, Option.bind_eq_bind,
    Option.bind_some, Option.pure_def]

theorem foldlM_escaped (c : Char) :
    (escaped c).foldlM step? ⟨flags, groups, branches, items, names, false, .ready⟩ =
      some ⟨flags, groups, branches, .piece ⟨letter flags.caseless c, 0⟩ :: items, names, false,
        .ready⟩ := by
  by_cases hc : c ∈ metaCharacters
  · rw [escaped_of_meta hc]
    exact foldlM_backslash hspaced groups branches items names hc
  · rw [escaped_of_not_meta hc, List.foldlM_cons, step?_letter hspaced _ _ _ _ hc]
    rfl

/-- A word is read character by character. -/
theorem foldlM_escapePattern (w : String) :
    (FragmentSpec.escapePattern w).toList.foldlM step?
        ⟨flags, groups, branches, items, names, false, .ready⟩ =
      some ⟨flags, groups, branches,
        (w.toList.map fun c => .piece ⟨letter flags.caseless c, 0⟩).reverse ++ items, names, false,
        .ready⟩ := by
  rw [toList_escapePattern]
  induction w.toList generalizing items with
  | nil => rfl
  | cons c cs ih =>
    rw [List.flatMap_cons, List.foldlM_append, foldlM_escaped hspaced]
    simp only [Option.bind_eq_bind, Option.bind_some]
    rw [ih]
    simp

/-- The words of a fragment are read as branches. -/
theorem foldlM_toPattern {ws : List String} (hne : ws ≠ []) :
    ∃ branches' items', (FragmentSpec.words ws).toPattern.toList.foldlM step?
        ⟨flags, groups, branches, [], names, false, .ready⟩ =
          some ⟨flags, groups, branches', items', names, false, .ready⟩ ∧
      sequenceOf items' :: branches' =
        ((ws.map Text.trim).map (wordPiece flags.caseless)).reverse ++ branches := by
  induction ws generalizing branches with
  | nil => exact absurd rfl hne
  | cons w ws ih =>
    have hword := foldlM_escapePattern hspaced groups branches [] names (Text.trim w)
    rw [List.append_nil] at hword
    cases ws with
    | nil =>
      rw [toPattern_singleton]
      exact ⟨_, _, hword, rfl⟩
    | cons w' ws =>
      have hbar : ∀ items, "|".toList.foldlM step?
          ⟨flags, groups, branches, items, names, false, .ready⟩ =
            some ⟨flags, groups, sequenceOf items :: branches, [], names, false, .ready⟩ := by
        intro items
        simp [step?, settle, hspaced, take?, ready?]
      obtain ⟨branches', items', hread, heq⟩ :=
        ih (wordPiece flags.caseless (Text.trim w) :: branches) (List.cons_ne_nil _ _)
      refine ⟨branches', items', ?_, ?_⟩
      · rw [toPattern_cons, String.toList_append, String.toList_append, List.foldlM_append,
          List.foldlM_append, hword]
        simp only [Option.bind_eq_bind, Option.bind_some, hbar]
        exact hread
      · rw [heq]
        simp

/-- Words with bars between them are read as branches. -/
theorem foldlM_anyOf {ws : List String} (hne : ws ≠ []) (h : ∀ w ∈ ws, IsWord w) :
    ∃ branches' items', (anyOf ws).toList.foldlM step?
        ⟨flags, groups, branches, [], names, false, .ready⟩ =
          some ⟨flags, groups, branches', items', names, false, .ready⟩ ∧
      sequenceOf items' :: branches' =
        (ws.map (wordPiece flags.caseless)).reverse ++ branches := by
  have htrim : ws.map Text.trim = ws := by
    rw [List.map_congr_left fun w hw => (h w hw).trim_eq, List.map_id']
  have hread := foldlM_toPattern hspaced groups branches names hne
  rwa [toPattern_words h, htrim] at hread

end Words

/-- What words behind the edge of a word are read as, where they are captured together. -/
def edgeItems (caseless : Bool) (ws : List String) : List Item :=
  [.piece ⟨.group none (factored [(wordsPiece caseless ws).regex]),
      (wordsPiece caseless ws).depth + 2⟩,
    .piece ⟨.look .wordEdge, 0⟩]

theorem foldlM_edge (caseless : Bool) {ws : List String} (hne : ws ≠ [])
    (h : ∀ w ∈ ws, IsWord w) :
    ("\\b(" ++ "(?:" ++ anyOf ws ++ ")" ++ ")").toList.foldlM step?
        (fresh (Alternative.modes caseless)) =
      some ⟨Alternative.modes caseless, [], [], edgeItems caseless ws, [], false, .ready⟩ := by
  let flags := Alternative.modes caseless
  let outer : Group := ⟨.unnamed, flags, [], [.piece ⟨.look .wordEdge, 0⟩]⟩
  obtain ⟨branches, items, hread, heq⟩ :=
    foldlM_anyOf (show flags.spaced = false from rfl) [⟨.nothing, flags, [], []⟩, outer] [] [] hne h
  have hfront : ("\\b(" ++ "(?:").toList.foldlM step? (fresh flags) =
      some ⟨flags, [⟨.nothing, flags, [], []⟩, outer], [], [], [], false, .ready⟩ := rfl
  have hwords : choiceOf (sequenceOf items :: branches) = wordsPiece caseless ws := by
    rw [heq, List.append_nil]
    rfl
  have hinner : step? ⟨flags, [⟨.nothing, flags, [], []⟩, outer], branches, items, [], false, .ready⟩ ')' =
      some ⟨flags, [outer], [],
        [.piece ⟨(wordsPiece caseless ws).regex, (wordsPiece caseless ws).depth + 1⟩], [], false,
        .ready⟩ := by
    rw [step?_close rfl rfl, ← hwords]
    rfl
  rw [String.toList_append, List.foldlM_append, String.toList_append, List.foldlM_append,
    String.toList_append, List.foldlM_append, hfront]
  simp only [Option.bind_eq_bind, Option.bind_some, hread]
  rw [show ")".toList = [')'] from rfl]
  simp only [List.foldlM_cons, List.foldlM_nil, hinner, Option.bind_eq_bind, Option.bind_some, Option.pure_def]
  rw [step?_close rfl rfl]
  rfl

end Regex.Reader

namespace Alternative

open Regex.Reader Fragment

/-- What stands behind words in a pattern is read behind them. -/
theorem piece?_edge {back rest : String} {ws : List String} (hrest : back = ")" ++ rest)
    (hne : ws ≠ []) (h : ∀ w ∈ ws, IsWord w) {t : Regex.Reader}
    (hread : rest.toList.foldlM step? ⟨modes true, [], [], edgeItems true ws, [], false, .ready⟩ =
      some t) (hended : Ended t) (hnames : t.names = []) :
    piece? ("\\b(" ++ "(?:" ++ anyOf ws ++ ")" ++ back) true = some t.complete.inner := by
  refine piece?_eq_some.2 ⟨t, ?_, hended, hnames, rfl⟩
  rw [hrest, ← String.append_assoc, String.toList_append, List.foldlM_append, foldlM_edge true hne h]
  exact hread

theorem depth_inner_edgeItems_le {s : Regex.Reader} (ws : List String) (items : List Item)
    (hitems : s.items = items ++ edgeItems true ws) (hbranches : s.branches = [])
    (hle : ∀ item ∈ items, item.depth ≤ 4) : s.inner.depth ≤ 6 := by
  have hdepth := depth_wordsPiece_le true ws
  refine depth_inner_le (fun item hitem => ?_) (by simp [hbranches])
  rw [hitems, List.mem_append] at hitem
  rcases hitem with hitem | hitem
  · exact hle item hitem
  · rcases List.mem_cons.1 hitem with rfl | hitem
    · exact Nat.add_le_add_right hdepth 2
    · rw [List.mem_singleton.1 hitem]
      exact Nat.zero_le _

/-- What words are read as between the edge of a word and a parenthesis. -/
def callRegex (ws : List String) : Regex :=
  Regex.factored [Regex.sequence [.look .wordEdge,
    .group none (Regex.factored [(wordsPiece true ws).regex]), .star true (.char .space),
    .char (.one '(')]]

/-- The opening of a rule for calls of some functions, written out. -/
def callOpening (ws : List String) : String := "\\b(" ++ "(?:" ++ anyOf ws ++ ")" ++ ")\\s*\\("

theorem isEmpty_callOpening (ws : List String) : (callOpening ws).isEmpty = false := by
  simp [callOpening]

theorem piece?_call {ws : List String} (hne : ws ≠ []) (h : ∀ w ∈ ws, IsWord w) :
    ∃ p, piece? (callOpening ws) true = some p ∧ p.regex = callRegex ws ∧ p.depth ≤ 6 := by
  have hback : ")\\s*\\(" = ")" ++ "\\s*\\(" := rfl
  refine ⟨_, piece?_edge hback hne h rfl ⟨rfl, rfl, rfl⟩ rfl, rfl, ?_⟩
  exact depth_inner_edgeItems_le ws
    [.piece ⟨.char (.one '('), 0⟩, .piece ⟨.star true (.char .space), 1⟩] rfl rfl
    (by simp [Item.depth])

theorem joins_call {ws : List String} (hne : ws ≠ []) (h : ∀ w ∈ ws, IsWord w) (hit : Hit) :
    joins ⟨callOpening ws, true, hit⟩ = true := by
  obtain ⟨p, hp, -, hdepth⟩ := piece?_call hne h
  exact joins_iff.2 ⟨p, hp, Nat.le_trans (Nat.add_le_add_right hdepth 4) (by decide)⟩

/-- The opening of a rule for some words, written out. -/
def wordsOpening (ws : List String) : String := "\\b(" ++ "(?:" ++ anyOf ws ++ ")" ++ ")\\b"

theorem isEmpty_wordsOpening (ws : List String) : (wordsOpening ws).isEmpty = false := by
  simp [wordsOpening]

/-- What words are read as between the edges of a word. -/
def wordsRegex (ws : List String) : Regex :=
  Regex.factored [Regex.sequence [.look .wordEdge,
    .group none (Regex.factored [(wordsPiece true ws).regex]), .look .wordEdge]]

theorem piece?_words {ws : List String} (hne : ws ≠ []) (h : ∀ w ∈ ws, IsWord w) :
    ∃ p, piece? (wordsOpening ws) true = some p ∧ p.regex = wordsRegex ws ∧ p.depth ≤ 6 := by
  have hback : ")\\b" = ")" ++ "\\b" := rfl
  refine ⟨_, piece?_edge hback hne h rfl ⟨rfl, rfl, rfl⟩ rfl, rfl, ?_⟩
  exact depth_inner_edgeItems_le ws [.piece ⟨.look .wordEdge, 0⟩] rfl rfl (by simp [Item.depth])

theorem joins_words {ws : List String} (hne : ws ≠ []) (h : ∀ w ∈ ws, IsWord w) (hit : Hit) :
    joins ⟨wordsOpening ws, true, hit⟩ = true := by
  obtain ⟨p, hp, -, hdepth⟩ := piece?_words hne h
  exact joins_iff.2 ⟨p, hp, Nat.le_trans (Nat.add_le_add_right hdepth 4) (by decide)⟩

end Alternative

end Highlighter
