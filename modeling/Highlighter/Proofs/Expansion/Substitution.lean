import Highlighter.Proofs.Expansion.References
import Highlighter.Proofs.WellFormed.Fragments

/-!
Expansion as substitution. What comes of a pattern is told by its text: from left to right each
reference is replaced by what comes of its fragment, in a group, and the first that cannot be replaced
ends it. Where all fragments are defined, only chains of references that are too long stand between
the expansion and the substitution without bound.
-/

namespace Highlighter

namespace Fragment

/-- What comes of a text when so many levels of references may be followed. Once a reference cannot
be replaced, no other is looked at. -/
inductive Yields (source? : String → Option String) : Nat → List Char → Except Fault String → Prop
  | nil {levels : Nat} : Yields source? levels [] (.ok "")
  | char {levels : Nat} {c : Char} {rest : List Char} {outcome : Except Fault String}
      (none : ∀ name behind, ¬ Starts (c :: rest) name behind)
      (yields : Yields source? levels rest outcome) :
      Yields source? levels (c :: rest) (outcome.map (String.singleton c ++ ·))
  | tooDeep {cs behind : List Char} {name : String} (starts : Starts cs name behind) :
      Yields source? 0 cs (.error (.recursive name))
  | missing {levels : Nat} {cs behind : List Char} {name : String} (starts : Starts cs name behind)
      (missing : source? name = none) : Yields source? (levels + 1) cs (.error (.undefined name))
  | broken {levels : Nat} {cs behind : List Char} {name source : String} {fault : Fault}
      (starts : Starts cs name behind) (found : source? name = some source)
      (fragment : Yields source? levels source.toList (.error fault)) :
      Yields source? (levels + 1) cs (.error fault)
  | replaced {levels : Nat} {cs behind : List Char} {name source inner : String}
      {outcome : Except Fault String} (starts : Starts cs name behind)
      (found : source? name = some source)
      (fragment : Yields source? levels source.toList (.ok inner))
      (yields : Yields source? (levels + 1) behind outcome) :
      Yields source? (levels + 1) cs (outcome.map ("(?:" ++ inner ++ ")" ++ ·))

/-- A text with every reference replaced by its fragment in a group, in which every reference has been
replaced, through any number of levels. -/
inductive Substituted (source? : String → Option String) : List Char → String → Prop
  | nil : Substituted source? [] ""
  | char {c : Char} {rest : List Char} {s : String}
      (none : ∀ name behind, ¬ Starts (c :: rest) name behind)
      (substituted : Substituted source? rest s) :
      Substituted source? (c :: rest) (String.singleton c ++ s)
  | replaced {cs behind : List Char} {name source inner s : String}
      (starts : Starts cs name behind) (found : source? name = some source)
      (fragment : Substituted source? source.toList inner)
      (substituted : Substituted source? behind s) :
      Substituted source? cs ("(?:" ++ inner ++ ")" ++ s)

/-- The fragment of one name mentions another. -/
def Leads (source? : String → Option String) (name name' : String) : Prop :=
  ∃ source, source? name = some source ∧ Mentions source.toList name'

/-- A name is mentioned in a pattern, or in a fragment that the pattern leads to. -/
def Reaches (source? : String → Option String) (pattern name : String) : Prop :=
  ∃ first, Mentions pattern.toList first ∧ Relation.ReflTransGen (Leads source?) first name

/-- Names that are nested in a pattern: the first is mentioned in it, and each of the others in the
fragment of the one before. -/
structure Chain (source? : String → Option String) (pattern : String) (names : List String) :
    Prop where
  first : ∀ name ∈ names.head?, Mentions pattern.toList name
  nested : names.IsChain (Leads source?)

variable {source? : String → Option String}

theorem Yields.unique {levels : Nat} {cs : List Char} {outcome outcome' : Except Fault String}
    (h : Yields source? levels cs outcome) (h' : Yields source? levels cs outcome') :
    outcome = outcome' := by
  induction h generalizing outcome' with
  | nil =>
    cases h' with
    | nil => rfl
    | tooDeep starts | missing starts | broken starts | replaced starts =>
      exact absurd starts.length_lt (Nat.not_lt_zero _)
  | char none yields ih =>
    cases h' with
    | char none' yields' => rw [ih yields']
    | tooDeep starts | missing starts | broken starts | replaced starts =>
      exact absurd starts (none _ _)
  | tooDeep starts =>
    cases h' with
    | nil => exact absurd starts.length_lt (Nat.not_lt_zero _)
    | char none' => exact absurd starts (none' _ _)
    | tooDeep starts' => rw [(starts.unique starts').1]
  | missing starts missing =>
    cases h' with
    | nil => exact absurd starts.length_lt (Nat.not_lt_zero _)
    | char none' => exact absurd starts (none' _ _)
    | missing starts' missing' => rw [(starts.unique starts').1]
    | broken starts' found' | replaced starts' found' =>
      obtain ⟨rfl, -⟩ := starts.unique starts'
      cases missing.symm.trans found'
  | broken starts found fragment ih =>
    cases h' with
    | nil => exact absurd starts.length_lt (Nat.not_lt_zero _)
    | char none' => exact absurd starts (none' _ _)
    | missing starts' missing' =>
      obtain ⟨rfl, -⟩ := starts.unique starts'
      cases found.symm.trans missing'
    | broken starts' found' fragment' =>
      obtain ⟨rfl, rfl⟩ := starts.unique starts'
      cases found.symm.trans found'
      rw [Except.error.inj (ih fragment')]
    | replaced starts' found' fragment' =>
      obtain ⟨rfl, rfl⟩ := starts.unique starts'
      cases found.symm.trans found'
      cases ih fragment'
  | replaced starts found fragment yields ihFragment ih =>
    cases h' with
    | nil => exact absurd starts.length_lt (Nat.not_lt_zero _)
    | char none' => exact absurd starts (none' _ _)
    | missing starts' missing' =>
      obtain ⟨rfl, -⟩ := starts.unique starts'
      cases found.symm.trans missing'
    | broken starts' found' fragment' =>
      obtain ⟨rfl, rfl⟩ := starts.unique starts'
      cases found.symm.trans found'
      cases ihFragment fragment'
    | replaced starts' found' fragment' yields' =>
      obtain ⟨rfl, rfl⟩ := starts.unique starts'
      cases found.symm.trans found'
      cases ihFragment fragment'
      rw [ih yields']

theorem Substituted.unique {cs : List Char} {s s' : String} (h : Substituted source? cs s)
    (h' : Substituted source? cs s') : s = s' := by
  induction h generalizing s' with
  | nil =>
    cases h' with
    | nil => rfl
    | replaced starts => exact absurd starts.length_lt (Nat.not_lt_zero _)
  | char none substituted ih =>
    cases h' with
    | char none' substituted' => rw [ih substituted']
    | replaced starts => exact absurd starts (none _ _)
  | replaced starts found fragment substituted ihFragment ih =>
    cases h' with
    | nil => exact absurd starts.length_lt (Nat.not_lt_zero _)
    | char none' => exact absurd starts (none' _ _)
    | replaced starts' found' fragment' substituted' =>
      obtain ⟨rfl, rfl⟩ := starts.unique starts'
      cases found.symm.trans found'
      rw [ihFragment fragment', ih substituted']

/-- What a bounded substitution comes to, the one without bound comes to as well. -/
theorem Yields.substituted {levels : Nat} {cs : List Char} {s : String}
    (h : Yields source? levels cs (.ok s)) : Substituted source? cs s := by
  generalize houtcome : Except.ok s = outcome at h
  induction h generalizing s with
  | nil =>
    cases houtcome
    exact .nil
  | char none yields ih =>
    obtain ⟨s', rfl, rfl⟩ := map_eq_ok houtcome.symm
    exact .char none (ih rfl)
  | tooDeep | missing | broken => cases houtcome
  | replaced starts found fragment yields ihFragment ih =>
    obtain ⟨s', rfl, rfl⟩ := map_eq_ok houtcome.symm
    exact .replaced starts found (ihFragment rfl) (ih rfl)

/-- The pieces of a pattern are expanded one after the other, up to the first that cannot be. -/
theorem join_mapM_cons_eq {f : Piece → Except Fault String} {piece : Piece} {rest : List Piece} :
    ((piece :: rest).mapM f).map String.join =
      (f piece).bind fun first => ((rest.mapM f).map String.join).map (first ++ ·) := by
  rw [List.mapM_cons]
  cases f piece with
  | error fault => rfl
  | ok first =>
    cases rest.mapM f with
    | error fault => rfl
    | ok parts =>
      simp only [bind, Except.bind, pure, Except.pure, Except.map, String.join_cons]

/-- Where fragments come to what they should through fewer levels, so does a text. -/
theorem yields_pieces {levels : Nat}
    (fragments : ∀ fewer < levels, ∀ source,
      Yields source? fewer source.toList (expand source? fewer source)) (cs : List Char) :
    Yields source? levels cs
      (((pieces cs).mapM (expandPiece source? levels)).map String.join) := by
  induction cs using text_induction with
  | nil =>
    rw [pieces]
    exact .nil
  | char c rest none ih =>
    rw [pieces_char none, join_mapM_cons_eq]
    exact .char none ih
  | reference cs name behind starts ih =>
    rw [pieces_reference starts, join_mapM_cons_eq]
    cases levels with
    | zero => exact .tooDeep starts
    | succ levels =>
      cases hfound : source? name with
      | none =>
        simp only [expandPiece, hfound]
        exact .missing starts hfound
      | some source =>
        have hfragment := fragments levels (Nat.lt_succ_self _) source
        simp only [expandPiece, hfound]
        cases hinner : expand source? levels source with
        | error fault => exact .broken starts hfound (hinner ▸ hfragment)
        | ok inner => exact .replaced starts hfound (hinner ▸ hfragment) ih

/-- A pattern comes to just what its text yields. -/
theorem expand_eq_iff {levels : Nat} {pattern : String} {outcome : Except Fault String} :
    expand source? levels pattern = outcome ↔ Yields source? levels pattern.toList outcome := by
  have hyields : ∀ levels pattern,
      Yields source? levels pattern.toList (expand source? levels pattern) := by
    intro levels
    induction levels using Nat.strongRecOn with
    | _ levels ih =>
      intro pattern
      rw [expand_eq_mapM]
      exact yields_pieces ih _
  exact ⟨fun h => h ▸ hyields levels pattern, fun h => (hyields levels pattern).unique h⟩

theorem leads_eq_refers : Leads source? = Refers source? := by
  funext name name'
  simp only [Leads, Refers, reference_mem_pieces_iff]

/-- References in the pieces of an expanded pattern are nested through no more levels than there
are. -/
theorem Expands.length_le {levels : Nat} {rest : List Piece} {s : String} {names : List String}
    (h : Expands source? levels rest s) (first : ∀ name ∈ names.head?, .reference name ∈ rest)
    (nested : names.IsChain (Refers source?)) : names.length ≤ levels := by
  induction names generalizing levels rest s with
  | nil => exact Nat.zero_le _
  | cons name names ih =>
    obtain ⟨fewer, source, inner, hlt, found, fragment⟩ := h.exists_fragment (first name rfl)
    obtain ⟨next, nested⟩ := List.isChain_cons.1 nested
    refine Nat.lt_of_le_of_lt (ih fragment (fun name' hhead => ?_) nested) hlt
    obtain ⟨source', found', hmem⟩ := next name' hhead
    cases found.symm.trans found'
    exact hmem

/-- Pieces can be expanded if each fragment that they refer to can be through one level less. -/
theorem exists_expands_of_fragments {levels : Nat} {rest : List Piece}
    (h : ∀ name, .reference name ∈ rest → ∃ fewer source inner, levels = fewer + 1 ∧
      source? name = some source ∧ Expands source? fewer (pieces source.toList) inner) :
    ∃ s, Expands source? levels rest s := by
  induction rest with
  | nil => exact ⟨_, .nil⟩
  | cons piece rest ih =>
    obtain ⟨s, hs⟩ := ih fun name hmem => h name (List.mem_cons_of_mem _ hmem)
    cases piece with
    | char c => exact ⟨_, .char hs⟩
    | reference name =>
      obtain ⟨fewer, source, inner, rfl, found, fragment⟩ := h name List.mem_cons_self
      exact ⟨_, .reference found fragment hs⟩

theorem Chain.cons {pattern name source : String} {names : List String}
    (mentions : Mentions pattern.toList name) (found : source? name = some source)
    (chain : Chain source? source names) : Chain source? pattern (name :: names) where
  first := by
    rintro _ ⟨⟩
    exact mentions
  nested := List.isChain_cons.2
    ⟨fun name' hhead => ⟨source, found, chain.first name' hhead⟩, chain.nested⟩

theorem Reaches.of_fragment {pattern name source name' : String}
    (mentions : Mentions pattern.toList name) (found : source? name = some source)
    (reaches : Reaches source? source name') : Reaches source? pattern name' := by
  obtain ⟨first, hfirst, path⟩ := reaches
  exact ⟨name, mentions, .head ⟨source, found, hfirst⟩ path⟩

/-- Where all names are defined that a pattern leads to, only too long a chain of them keeps it from
being expanded. -/
theorem exists_expands_of_chains {levels : Nat} {pattern : String}
    (defined : ∀ name, Reaches source? pattern name → (source? name).isSome = true)
    (chains : ∀ names, Chain source? pattern names → names.length ≤ levels) :
    ∃ s, Expands source? levels (pieces pattern.toList) s := by
  induction levels generalizing pattern with
  | zero =>
    refine exists_expands_of_fragments fun name hmem => ?_
    have hmentions := reference_mem_pieces_iff.1 hmem
    obtain ⟨source, found⟩ := Option.isSome_iff_exists.1 (defined name ⟨name, hmentions, .refl⟩)
    have hchain : Chain source? pattern [name] := .cons hmentions found ⟨nofun, .nil⟩
    exact absurd (chains _ hchain) (by simp)
  | succ levels ih =>
    refine exists_expands_of_fragments fun name hmem => ?_
    have hmentions := reference_mem_pieces_iff.1 hmem
    obtain ⟨source, found⟩ := Option.isSome_iff_exists.1 (defined name ⟨name, hmentions, .refl⟩)
    obtain ⟨inner, fragment⟩ := @ih source
      (fun name' reaches => defined name' (reaches.of_fragment hmentions found))
      (fun names chain => Nat.le_of_succ_le_succ (chains _ (chain.cons hmentions found)))
    exact ⟨levels, source, inner, rfl, found, fragment⟩

theorem Expands.chain_length_le {levels : Nat} {pattern s : String} {names : List String}
    (h : Expands source? levels (pieces pattern.toList) s) (chain : Chain source? pattern names) :
    names.length ≤ levels :=
  h.length_le (fun name hhead => reference_mem_pieces_iff.2 (chain.first name hhead))
    (leads_eq_refers ▸ chain.nested)

end Fragment

open Fragment

/-- Expansion is substitution through eight levels at most, where the fragments given with a pattern
come before those of the library at every level. If all names that a pattern leads to are defined, it
is expanded just if no chain of names in it is longer; what it is expanded to is the substitution
without bound; and a pattern that leads into a circle is not expanded. -/
theorem Library.expand_substitutes (lib : Library) (own : String → Option String)
    (pattern : String) :
    let source? := fun name => (own name).or (lib.fragment? name)
    (∀ outcome, lib.expand own pattern = outcome ↔ Yields source? 8 pattern.toList outcome) ∧
    ((∀ name, Reaches source? pattern name → (source? name).isSome = true) →
      ((∃ s, lib.expand own pattern = .ok s) ↔
        ∀ names, Chain source? pattern names → names.length ≤ 8)) ∧
    (∀ s, lib.expand own pattern = .ok s →
      ∀ s', Substituted source? pattern.toList s' ↔ s' = s) ∧
    ∀ name, Reaches source? pattern name → Relation.TransGen (Leads source?) name name →
      ∃ fault, lib.expand own pattern = .error fault := by
  intro source?
  have hexpand : lib.expand own pattern = Fragment.expand source? 8 pattern := rfl
  rw [hexpand]
  refine ⟨fun outcome => expand_eq_iff, fun defined => ?_, fun s hs s' => ?_, ?_⟩
  · simp only [expand_eq_ok_iff]
    constructor
    · rintro ⟨s, hs⟩ names chain
      exact hs.chain_length_le chain
    · exact exists_expands_of_chains defined
  · have hsubstituted := (expand_eq_iff.1 hs).substituted
    exact ⟨fun h => h.unique hsubstituted, fun h => h ▸ hsubstituted⟩
  · rintro name ⟨first, mentions, path⟩ circle
    cases hs : Fragment.expand source? 8 pattern with
    | error fault => exact ⟨fault, rfl⟩
    | ok s =>
      rw [leads_eq_refers] at path circle
      exact absurd ⟨first, name, reference_mem_pieces_iff.2 mentions, path, circle⟩
        (expand_eq_ok_iff.1 hs).not_circular

/-- A fragment of the library that refers to one given with the pattern, and one that refers to
itself. -/
theorem Library.expand_nested :
    let lib : Library := { fragments := [("a", "x\x7b\x7bb\x7d\x7d"), ("b", "y"),
      ("loop", "(\x7b\x7bloop\x7d\x7d)")] }
    let own := fun name => if name = "b" then some "z" else none
    let source? := fun name => (own name).or (lib.fragment? name)
    (∀ names, Chain source? "\x7b\x7b a \x7d\x7d+" names → names.length ≤ 8) ∧
    (∀ s, Substituted source? "\x7b\x7b a \x7d\x7d+".toList s ↔ s = "(?:x(?:z))+") ∧
    ∃ fault, lib.expand own "\x7b\x7bloop\x7d\x7d" = .error fault := by
  intro lib own source?
  have hmentions : ∀ name, (Mentions "\x7b\x7b a \x7d\x7d+".toList name → name = "a") ∧
      (Mentions "x\x7b\x7bb\x7d\x7d".toList name → name = "b") ∧ ¬ Mentions "z".toList name := by
    intro name
    have ha : pieces "\x7b\x7b a \x7d\x7d+".toList = [.reference "a", .char '+'] := by decide +kernel
    have hb : pieces "x\x7b\x7bb\x7d\x7d".toList = [.char 'x', .reference "b"] := by decide +kernel
    have hz : pieces "z".toList = [.char 'z'] := by decide +kernel
    simp only [← reference_mem_pieces_iff, ha, hb, hz]
    simp
  have hdefined : ∀ name, Reaches source? "\x7b\x7b a \x7d\x7d+" name →
      (source? name).isSome = true := by
    rintro name ⟨first, mentions, path⟩
    have hname : name = "a" ∨ name = "b" := by
      induction path with
      | refl => exact .inl ((hmentions first).1 mentions)
      | tail _ leads ih =>
        obtain ⟨source, found, mentions⟩ := leads
        rcases ih with rfl | rfl
        · cases found
          exact .inr ((hmentions _).2.1 mentions)
        · cases found
          exact absurd mentions (hmentions _).2.2
    rcases hname with rfl | rfl <;> rfl
  have hexpand : lib.expand own "\x7b\x7b a \x7d\x7d+" = .ok "(?:x(?:z))+" := by
    decide +kernel
  have hloop : Mentions "\x7b\x7bloop\x7d\x7d".toList "loop" ∧
      Mentions "(\x7b\x7bloop\x7d\x7d)".toList "loop" := by
    simp only [← reference_mem_pieces_iff]
    decide +kernel
  obtain ⟨-, hchains, hsubstituted, -⟩ := lib.expand_substitutes own "\x7b\x7b a \x7d\x7d+"
  obtain ⟨-, -, -, hcircle⟩ := lib.expand_substitutes own "\x7b\x7bloop\x7d\x7d"
  exact ⟨(hchains hdefined).1 ⟨_, hexpand⟩, hsubstituted _ hexpand,
    hcircle "loop" ⟨"loop", hloop.1, .refl⟩ (.single ⟨_, rfl, hloop.2⟩)⟩

end Highlighter
