import Highlighter.Proofs.Granularity.Incident

/-!
Incidents that follow one another. Each has a say only from its own match on, so what they say of a
position is told by those in front of it.
-/

namespace Highlighter

namespace Rule

variable (rule : Rule) {start stop : Nat} (h : start ≤ stop)

include h

theorem le_scopeStart : start ≤ rule.scopeStart start stop := by
  unfold scopeStart
  split <;> omega

theorem scopeStart_le : rule.scopeStart start stop ≤ stop := by
  unfold scopeStart
  split <;> omega

theorem le_scopeStop : start ≤ rule.scopeStop start stop := by
  unfold scopeStop
  split <;> omega

theorem scopeStop_le : rule.scopeStop start stop ≤ stop := by
  unfold scopeStop
  split <;> omega

end Rule

namespace Scan

namespace Incident

/-- The open scopes after something has happened. -/
def turn (stack : List Rule) : Incident → List Rule
  | opened rule _ _ => rule :: stack
  | closed .. => stack.tail
  | single .. | keyword .. | illegal .. => stack

/-- Whether a match may be empty: only a scope closes on nothing. -/
def mayBeEmpty : Incident → Bool
  | closed .. => true
  | opened .. | single .. | keyword .. | illegal .. => false

/-- The incidents follow one another between two positions. -/
def Ordered : List Incident → Nat → Nat → Prop
  | [], a, b => a ≤ b
  | i :: rest, a, b =>
    a ≤ i.start ∧ i.start ≤ i.stop ∧ (i.mayBeEmpty = false → i.start < i.stop) ∧
      Ordered rest i.stop b

theorem ordered_append {xs ys : List Incident} {a c : Nat} :
    Ordered (xs ++ ys) a c ↔ ∃ b, Ordered xs a b ∧ Ordered ys b c := by
  induction xs generalizing a with
  | nil =>
    simp only [List.nil_append, Ordered]
    constructor
    · exact fun h => ⟨a, Nat.le_refl a, h⟩
    · rintro ⟨b, hab, h⟩
      cases ys with
      | nil => exact Nat.le_trans hab h
      | cons i rest => exact ⟨Nat.le_trans hab h.1, h.2⟩
  | cons i rest ih => simp [Ordered, ih, and_assoc]

/-- The cuts that something asks for. -/
def edges (i : Incident) : List Nat :=
  i.atom?.toList.flatMap (fun atom => [atom.start, atom.stop]) ++ i.scopeEdge?.toList

theorem mem_edges_opened {rule : Rule} {start stop p : Nat} :
    p ∈ (opened rule start stop).edges ↔
      rule.kind.isSome = true ∧ p = rule.scopeStart start stop := by
  cases hk : rule.kind <;> simp [edges, atom?, scopeEdge?, hk]

theorem mem_edges_closed {rule : Rule} {start stop p : Nat} :
    p ∈ (closed rule start stop).edges ↔
      rule.kind.isSome = true ∧ p = rule.scopeStop start stop := by
  cases hk : rule.kind <;> simp [edges, atom?, scopeEdge?, hk]

theorem mem_cuts_cons {i : Incident} {rest : List Incident} {p : Nat} :
    p ∈ cuts (i :: rest) ↔ p ∈ i.edges ∨ p ∈ cuts rest := by
  unfold cuts edges atoms
  cases ha : i.atom? <;> cases he : i.scopeEdge? <;> simp [ha, he] <;> grind

theorem range_of_atom? {i : Incident} {atom : Span} (h : i.atom? = some atom) :
    atom.start = i.start ∧ atom.stop = i.stop := by
  cases i with
  | keyword kind start stop =>
    cases h
    exact ⟨rfl, rfl⟩
  | single rule start stop =>
    obtain ⟨kind, -, rfl⟩ := Option.map_eq_some_iff.1 h
    exact ⟨rfl, rfl⟩
  | _ => cases h

theorem bounds_of_scopeEdge? {i : Incident} {p : Nat} (h : i.scopeEdge? = some p)
    (hle : i.start ≤ i.stop) : i.start ≤ p ∧ p ≤ i.stop := by
  cases i with
  | opened rule start stop =>
    obtain ⟨kind, -, rfl⟩ := Option.map_eq_some_iff.1 h
    exact ⟨rule.le_scopeStart hle, rule.scopeStart_le hle⟩
  | closed rule start stop =>
    obtain ⟨kind, -, rfl⟩ := Option.map_eq_some_iff.1 h
    exact ⟨rule.le_scopeStop hle, rule.scopeStop_le hle⟩
  | _ => cases h

theorem bounds_of_edges {i : Incident} {p : Nat} (h : p ∈ i.edges) (hle : i.start ≤ i.stop) :
    i.start ≤ p ∧ p ≤ i.stop := by
  rcases List.mem_append.1 h with h | h
  · obtain ⟨atom, hatom, hp⟩ := List.mem_flatMap.1 h
    obtain ⟨hstart, hstop⟩ := range_of_atom? (Option.mem_toList.1 hatom)
    simp only [List.mem_cons, List.not_mem_nil, or_false] at hp
    omega
  · exact bounds_of_scopeEdge? (Option.mem_toList.1 h) hle

theorem Ordered.le {incidents : List Incident} {a b : Nat} (h : Ordered incidents a b) : a ≤ b := by
  induction incidents generalizing a with
  | nil => exact h
  | cons i rest ih =>
    obtain ⟨ha, hle, -, hrest⟩ := h
    have := ih hrest
    omega

theorem mayBeEmpty_of_atom? {i : Incident} {atom : Span} (h : i.atom? = some atom) :
    i.mayBeEmpty = false := by
  cases i with
  | closed rule start stop => cases h
  | _ => rfl

theorem bounds_of_cuts {incidents : List Incident} {a b : Nat} (h : Ordered incidents a b) :
    ∀ p ∈ cuts incidents, a ≤ p ∧ p ≤ b := by
  induction incidents generalizing a with
  | nil => simp [cuts, atoms]
  | cons i rest ih =>
    obtain ⟨ha, hle, -, hrest⟩ := h
    have hb := hrest.le
    intro p hp
    rcases mem_cuts_cons.1 hp with hp | hp
    · have := bounds_of_edges hp hle
      omega
    · have := ih hrest p hp
      omega

theorem mem_atoms_cons {i : Incident} {rest : List Incident} {atom : Span} :
    atom ∈ atoms (i :: rest) ↔ i.atom? = some atom ∨ atom ∈ atoms rest := by
  unfold atoms
  rw [List.filterMap_cons]
  cases hi : i.atom? with
  | none => simp
  | some first => simp [eq_comm]

theorem edges_of_atom? {i : Incident} {atom : Span} (h : i.atom? = some atom) :
    i.edges = [i.start, i.stop] := by
  obtain ⟨hstart, hstop⟩ := range_of_atom? h
  have hscope : i.scopeEdge? = none := by
    cases i with
    | single rule start stop | keyword kind start stop => rfl
    | _ => cases h
  simp [edges, h, hscope, hstart, hstop]

theorem bounds_of_atoms {incidents : List Incident} {a b : Nat} (h : Ordered incidents a b) :
    ∀ atom ∈ atoms incidents, a ≤ atom.start ∧ atom.start < atom.stop ∧ atom.stop ≤ b := by
  induction incidents generalizing a with
  | nil => simp [atoms]
  | cons i rest ih =>
    obtain ⟨ha, hle, hlt, hrest⟩ := h
    have hb := hrest.le
    intro atom hatom
    rcases mem_atoms_cons.1 hatom with hi | hatom
    · obtain ⟨hstart, hstop⟩ := range_of_atom? hi
      have := hlt (mayBeEmpty_of_atom? hi)
      omega
    · have := ih hrest atom hatom
      omega

/-- The kind of the text at a position, when some scopes were open before. -/
def kindOf (stack : List Rule) (incidents : List Incident) (p : Nat) : Kind :=
  match (atoms incidents).find? fun atom => atom.start ≤ p && p < atom.stop with
  | some atom => atom.kind
  | none => Rule.effectiveKind (openAt p stack incidents)

theorem openAt_cons (p : Nat) (stack : List Rule) (i : Incident) (rest : List Incident) :
    openAt p stack (i :: rest) = openAt p (openAt p stack [i]) rest := by
  cases i <;> rfl

theorem openAt_singleton_of_lt {i : Incident} {p : Nat} (hp : p < i.start) (hle : i.start ≤ i.stop)
    (stack : List Rule) : openAt p stack [i] = stack := by
  cases i with
  | opened rule start stop =>
    have hbound : start ≤ rule.scopeStart start stop := rule.le_scopeStart hle
    simp only [openAt, Incident.start] at hp ⊢
    rw [if_neg (by omega)]
  | closed rule start stop =>
    have hbound : start ≤ rule.scopeStop start stop := rule.le_scopeStop hle
    simp only [openAt, Incident.start] at hp ⊢
    rw [if_neg (by omega)]
  | _ => rfl

/-- Nothing has happened yet in front of the first incident. -/
theorem openAt_of_lt {incidents : List Incident} {a b p : Nat} (h : Ordered incidents a b)
    (hp : p < a) (stack : List Rule) : openAt p stack incidents = stack := by
  induction incidents generalizing a stack with
  | nil => rfl
  | cons i rest ih =>
    obtain ⟨ha, hle, -, hrest⟩ := h
    rw [openAt_cons, openAt_singleton_of_lt (Nat.lt_of_lt_of_le hp ha) hle]
    exact ih hrest (by omega) stack

theorem openAt_of_le {i : Incident} {p : Nat} (hle : i.start ≤ i.stop) (hp : i.stop ≤ p)
    (stack : List Rule) (rest : List Incident) :
    openAt p stack (i :: rest) = openAt p (i.turn stack) rest := by
  rw [openAt_cons]
  cases i with
  | opened rule start stop =>
    have hbound : rule.scopeStart start stop ≤ stop := rule.scopeStart_le hle
    simp only [openAt, turn, Incident.stop] at hp ⊢
    rw [if_pos (by omega)]
  | closed rule start stop =>
    have hbound : rule.scopeStop start stop ≤ stop := rule.scopeStop_le hle
    simp only [openAt, turn, Incident.stop] at hp ⊢
    rw [if_pos (by omega)]
  | _ => rfl

theorem kindOf_of_lt {incidents : List Incident} {a b p : Nat} (h : Ordered incidents a b)
    (hp : p < a) (stack : List Rule) : kindOf stack incidents p = Rule.effectiveKind stack := by
  have hnone : (atoms incidents).find? (fun atom => atom.start ≤ p && p < atom.stop) = none := by
    rw [List.find?_eq_none]
    intro atom hatom
    have := bounds_of_atoms h atom hatom
    simp only [Bool.and_eq_true, decide_eq_true_eq]
    omega
  rw [kindOf, hnone, openAt_of_lt h hp]

theorem kindOf_of_le {i : Incident} {p : Nat} (hle : i.start ≤ i.stop) (hp : i.stop ≤ p)
    (stack : List Rule) (rest : List Incident) :
    kindOf stack (i :: rest) p = kindOf (i.turn stack) rest p := by
  have hfind : (atoms (i :: rest)).find? (fun atom => atom.start ≤ p && p < atom.stop) =
      (atoms rest).find? fun atom => atom.start ≤ p && p < atom.stop := by
    unfold atoms
    rw [List.filterMap_cons]
    cases hi : i.atom? with
    | none => rfl
    | some atom =>
      obtain ⟨-, hstop⟩ := range_of_atom? hi
      rw [List.find?_cons_of_neg]
      simp only [Bool.and_eq_true, decide_eq_true_eq]
      omega
  rw [kindOf, kindOf, hfind, openAt_of_le hle hp]

/-- On the match of something that is a span by itself, the text has its kind. -/
theorem kindOf_atom {i : Incident} {atom : Span} (h : i.atom? = some atom) {p : Nat}
    (hstart : i.start ≤ p) (hstop : p < i.stop) (stack : List Rule) (rest : List Incident) :
    kindOf stack (i :: rest) p = atom.kind := by
  obtain ⟨hs, ht⟩ := range_of_atom? h
  unfold kindOf atoms
  rw [List.filterMap_cons, h, List.find?_cons_of_pos]
  simp only [Bool.and_eq_true, decide_eq_true_eq]
  omega

/-- On the match of something else, it has the kind of the scopes open there. -/
theorem kindOf_match {i : Incident} (h : i.atom? = none) {rest : List Incident} {b p : Nat}
    (hrest : Ordered rest i.stop b) (hstop : p < i.stop) (stack : List Rule) :
    kindOf stack (i :: rest) p = Rule.effectiveKind (openAt p stack [i]) := by
  have hatoms : atoms (i :: rest) = atoms rest := by
    unfold atoms
    rw [List.filterMap_cons, h]
  rw [← kindOf_of_lt hrest hstop (openAt p stack [i]), kindOf, kindOf, hatoms, openAt_cons]

theorem kindOf_of_mem {incidents : List Incident} {a b p : Nat} (h : Ordered incidents a b)
    {atom : Span} (hatom : atom ∈ atoms incidents) (hstart : atom.start ≤ p) (hstop : p < atom.stop)
    (stack : List Rule) : kindOf stack incidents p = atom.kind := by
  induction incidents generalizing a stack with
  | nil => cases hatom
  | cons i rest ih =>
    obtain ⟨-, hle, -, hrest⟩ := h
    rcases mem_atoms_cons.1 hatom with hi | hatom
    · obtain ⟨hs, ht⟩ := range_of_atom? hi
      exact kindOf_atom hi (by omega) (by omega) stack rest
    · have hbounds := bounds_of_atoms hrest atom hatom
      rw [kindOf_of_le hle (by omega)]
      exact ih hrest hatom _

/-- What is a span by itself is not cut. -/
theorem not_mem_cuts_of_mem {incidents : List Incident} {a b p : Nat} (h : Ordered incidents a b)
    {atom : Span} (hatom : atom ∈ atoms incidents) (hstart : atom.start < p)
    (hstop : p < atom.stop) : p ∉ cuts incidents := by
  induction incidents generalizing a with
  | nil => cases hatom
  | cons i rest ih =>
    obtain ⟨-, hle, -, hrest⟩ := h
    intro hp
    rcases mem_atoms_cons.1 hatom with hi | hatom
    · obtain ⟨hs, ht⟩ := range_of_atom? hi
      rcases mem_cuts_cons.1 hp with hp | hp
      · rw [edges_of_atom? hi] at hp
        simp only [List.mem_cons, List.not_mem_nil, or_false] at hp
        omega
      · have := bounds_of_cuts hrest p hp
        omega
    · have hbounds := bounds_of_atoms hrest atom hatom
      rcases mem_cuts_cons.1 hp with hp | hp
      · have := bounds_of_edges hp hle
        omega
      · exact ih hrest hatom hp

theorem mem_cuts_of_mem {incidents : List Incident} {atom : Span}
    (hatom : atom ∈ atoms incidents) :
    atom.start ∈ cuts incidents ∧ atom.stop ∈ cuts incidents := by
  have hmem : ∀ p ∈ [atom.start, atom.stop], p ∈ cuts incidents := fun p hp =>
    List.mem_append_left _ (List.mem_flatMap.2 ⟨atom, hatom, hp⟩)
  exact ⟨hmem _ (by simp), hmem _ (by simp)⟩

theorem kindOf_of_not_mem {incidents : List Incident} {p : Nat}
    (h : ∀ atom ∈ atoms incidents, ¬(atom.start ≤ p ∧ p < atom.stop)) :
    kindOf [] incidents p = kindAt incidents p := by
  have hnone : (atoms incidents).find? (fun atom => atom.start ≤ p && p < atom.stop) = none := by
    rw [List.find?_eq_none]
    intro atom hatom
    simpa using h atom hatom
  rw [kindOf, hnone, kindAt]

end Incident

end Scan

end Highlighter
