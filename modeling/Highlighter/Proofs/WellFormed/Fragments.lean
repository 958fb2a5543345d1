import Highlighter.Proofs.Extending
import Mathlib.Logic.Relation

/-!
What patterns expand to, told by their pieces. A fragment that is referred to through some levels is
itself expanded through fewer, so a pattern that leads into a circle of fragments has no expansion,
whatever number of levels is allowed.
-/

namespace Highlighter.Fragment

/-- The expansion of a pattern, given in pieces, through so many levels at most: each reference is
replaced by the expansion of its fragment in a group of its own. -/
inductive Expands (source? : String → Option String) : Nat → List Piece → String → Prop
  | nil {nesting : Nat} : Expands source? nesting [] ""
  | char {nesting : Nat} {c : Char} {rest : List Piece} {s : String}
      (expands : Expands source? nesting rest s) :
      Expands source? nesting (.char c :: rest) (String.singleton c ++ s)
  | reference {nesting : Nat} {name source inner : String} {rest : List Piece} {s : String}
      (found : source? name = some source)
      (fragment : Expands source? nesting (pieces source.toList) inner)
      (expands : Expands source? (nesting + 1) rest s) :
      Expands source? (nesting + 1) (.reference name :: rest) ("(?:" ++ inner ++ ")" ++ s)

variable {source? : String → Option String}

/-- The expansion of some pieces is that of the first with that of the others behind it. -/
theorem join_mapM_cons {f : Piece → Except Fault String} {piece : Piece} {rest : List Piece}
    {s : String} : ((piece :: rest).mapM f).map String.join = .ok s ↔
      ∃ first behind, f piece = .ok first ∧ (rest.mapM f).map String.join = .ok behind ∧
        s = first ++ behind := by
  rw [List.mapM_cons]
  cases f piece with
  | error e => simp [bind, Except.bind, Except.map]
  | ok first =>
    cases rest.mapM f with
    | error e => simp [bind, Except.bind, Except.map]
    | ok parts =>
      simp [bind, Except.bind, pure, Except.pure, Except.map, String.join_cons, eq_comm]

theorem expandPiece_reference {nesting : Nat} {name s : String} :
    expandPiece source? nesting (.reference name) = .ok s ↔
      ∃ fewer source inner, nesting = fewer + 1 ∧ source? name = some source ∧
        expand source? fewer source = .ok inner ∧ s = "(?:" ++ inner ++ ")" := by
  cases nesting with
  | zero => simp [expandPiece]
  | succ nesting =>
    simp only [expandPiece]
    cases source? name with
    | none => simp
    | some source =>
      cases hinner : expand source? nesting source <;> simp [hinner, Except.map, eq_comm]

/-- The expansion of a pattern, if fragments are expanded to what they should be through fewer
levels. -/
theorem join_mapM_eq_ok_iff {nesting : Nat}
    (fragments : ∀ fewer < nesting, ∀ source inner, expand source? fewer source = .ok inner ↔
      Expands source? fewer (pieces source.toList) inner) {rest : List Piece} {s : String} :
    (rest.mapM (expandPiece source? nesting)).map String.join = .ok s ↔
      Expands source? nesting rest s := by
  induction rest generalizing s with
  | nil =>
    constructor
    · rintro h
      cases h
      exact .nil
    · rintro ⟨⟩
      rfl
  | cons piece rest ih =>
    rw [join_mapM_cons]
    simp only [ih]
    constructor
    · rintro ⟨first, behind, hfirst, hbehind, rfl⟩
      cases piece with
      | char c =>
        cases hfirst
        exact .char hbehind
      | reference name =>
        obtain ⟨fewer, source, inner, rfl, found, hinner, rfl⟩ := expandPiece_reference.1 hfirst
        exact .reference found ((fragments fewer (Nat.lt_succ_self _) _ _).1 hinner) hbehind
    · intro h
      cases h with
      | char expands => exact ⟨_, _, rfl, expands, rfl⟩
      | reference found fragment expands =>
        have hinner := (fragments _ (Nat.lt_succ_self _) _ _).2 fragment
        exact ⟨_, _, expandPiece_reference.2 ⟨_, _, _, rfl, found, hinner, rfl⟩, expands, rfl⟩

/-- A pattern is expanded just to what it should be. -/
theorem expand_eq_ok_iff {nesting : Nat} {pattern s : String} :
    expand source? nesting pattern = .ok s ↔ Expands source? nesting (pieces pattern.toList) s := by
  induction nesting using Nat.strongRecOn generalizing pattern s with
  | _ nesting ih =>
    rw [expand_eq_mapM]
    exact join_mapM_eq_ok_iff fun fewer hlt _ _ => ih fewer hlt

/-- A pattern has one expansion. -/
theorem Expands.unique {nesting : Nat} {rest : List Piece} {s s' : String}
    (h : Expands source? nesting rest s) (h' : Expands source? nesting rest s') : s = s' := by
  induction h generalizing s' with
  | nil =>
    cases h'
    rfl
  | char expands ih =>
    cases h' with
    | char expands' => rw [ih expands']
  | reference found fragment expands ihFragment ih =>
    cases h' with
    | reference found' fragment' expands' =>
      cases found.symm.trans found'
      rw [ihFragment fragment', ih expands']

/-- The fragment of one name refers to that of another. -/
def Refers (source? : String → Option String) (name name' : String) : Prop :=
  ∃ source, source? name = some source ∧ .reference name' ∈ pieces source.toList

/-- A pattern leads into a circle of fragments. -/
def Circular (source? : String → Option String) (pattern : String) : Prop :=
  ∃ first name, .reference first ∈ pieces pattern.toList ∧
    Relation.ReflTransGen (Refers source?) first name ∧ Relation.TransGen (Refers source?) name name

namespace Expands

variable {nesting : Nat} {rest : List Piece} {s name name' : String}

/-- A fragment that is referred to is expanded through fewer levels. -/
theorem exists_fragment (h : Expands source? nesting rest s) (hmem : .reference name ∈ rest) :
    ∃ fewer source inner, fewer < nesting ∧ source? name = some source ∧
      Expands source? fewer (pieces source.toList) inner := by
  induction h with
  | nil => cases hmem
  | char expands ih => exact ih ((List.mem_cons.1 hmem).resolve_left nofun)
  | @reference nesting _ source inner _ _ found fragment expands ihFragment ih =>
    rcases List.mem_cons.1 hmem with heq | hmem
    · cases heq
      exact ⟨nesting, source, inner, Nat.lt_succ_self _, found, fragment⟩
    · exact ih hmem

theorem of_refers (h : Expands source? nesting rest s) (hmem : .reference name ∈ rest)
    (refers : Refers source? name name') : ∃ fewer rest' s', fewer < nesting ∧
      Expands source? fewer rest' s' ∧ .reference name' ∈ rest' := by
  obtain ⟨fewer, source, inner, hlt, hfound, hexpands⟩ := h.exists_fragment hmem
  obtain ⟨source', hfound', hmem'⟩ := refers
  cases hfound.symm.trans hfound'
  exact ⟨fewer, _, inner, hlt, hexpands, hmem'⟩

theorem of_transGen (h : Expands source? nesting rest s) (hmem : .reference name ∈ rest)
    (path : Relation.TransGen (Refers source?) name name') : ∃ fewer rest' s', fewer < nesting ∧
      Expands source? fewer rest' s' ∧ .reference name' ∈ rest' := by
  induction path with
  | single refers => exact h.of_refers hmem refers
  | tail path refers ih =>
    obtain ⟨fewer, rest', s', hlt, hexpands, hmem'⟩ := ih
    obtain ⟨fewer', rest'', s'', hlt', hexpands', hmem''⟩ := hexpands.of_refers hmem' refers
    exact ⟨fewer', rest'', s'', Nat.lt_trans hlt' hlt, hexpands', hmem''⟩

/-- A fragment in a circle would be expanded through fewer and fewer levels. -/
theorem not_transGen (h : Expands source? nesting rest s) (hmem : .reference name ∈ rest) :
    ¬ Relation.TransGen (Refers source?) name name := by
  intro circle
  induction nesting using Nat.strongRecOn generalizing rest s with
  | _ nesting ih =>
    obtain ⟨fewer, rest', s', hlt, hexpands, hmem'⟩ := h.of_transGen hmem circle
    exact ih fewer hlt hexpands hmem'

theorem not_circular {pattern : String} (h : Expands source? nesting (pieces pattern.toList) s) :
    ¬ Circular source? pattern := by
  rintro ⟨first, name, hmem, path, circle⟩
  rcases Relation.reflTransGen_iff_eq_or_transGen.1 path with rfl | path
  · exact h.not_transGen hmem circle
  · obtain ⟨fewer, rest', s', -, hexpands, hmem'⟩ := h.of_transGen hmem path
    exact hexpands.not_transGen hmem' circle

end Expands

end Highlighter.Fragment
