import Highlighter.Grammar.Encode
import Highlighter.Proofs.Json.Documents

/-!
What the documents of grammars are made of. They have nothing in them that JSON could not tell apart,
and lists and maps are nested in them twice as deep as rules are in the grammar.
-/

namespace Highlighter

mutual

/-- How deep rules are nested in a rule, itself counted. -/
def RuleSpec.height : RuleSpec → Nat
  | { inner, .. } => RuleSpec.heightOfAll inner + 1

def RuleSpec.heightOfAll : List RuleSpec → Nat
  | [] => 0
  | rule :: rules => max rule.height (RuleSpec.heightOfAll rules)

end

namespace RuleSpec

theorem heightOfAll_le_iff {rules : List RuleSpec} {n : Nat} :
    heightOfAll rules ≤ n ↔ ∀ rule ∈ rules, rule.height ≤ n := by
  induction rules with
  | nil => simp [heightOfAll]
  | cons rule rules ih => rw [heightOfAll, Nat.max_le, ih, List.forall_mem_cons]

theorem height_pos (rule : RuleSpec) : 0 < rule.height := by
  cases rule
  exact Nat.succ_pos _

theorem height_le_succ_iff {rule : RuleSpec} {n : Nat} :
    rule.height ≤ n + 1 ↔ ∀ inner ∈ rule.inner, inner.height ≤ n := by
  cases rule
  rw [height, Nat.add_le_add_iff_right, heightOfAll_le_iff]

end RuleSpec

namespace Encode

variable {P : Doc → Prop}

theorem rules_eq_map (rs : List RuleSpec) : rules rs = rs.map rule := by
  induction rs with
  | nil => rw [rules, List.map_nil]
  | cons r rs ih => rw [rules, ih, List.map_cons]

/-- What holds of a document that stands for a value holds of the field with it. -/
theorem forall_mem_optional {α : Type} {encode : α → Doc} (h : ∀ a, P (encode a)) {name : String}
    {value : Option α} : ∀ field ∈ optional name encode value, P field.2 := by
  cases value with
  | none => exact nofun
  | some a => exact List.forall_mem_singleton.2 (h a)

/-- The fields of a rule are single values and, if there are any, the list of the inner rules. -/
theorem exists_rule_eq (hscalar : ∀ s, Json.IsPlain s → P (.scalar s)) (r : RuleSpec)
    (hinner : r.inner ≠ [] → P (.ofList (r.inner.map rule))) :
    ∃ fields, rule r = .ofFields fields ∧ ∀ field ∈ fields, P field.2 := by
  have hstring : ∀ s : String, P (.string s) := fun s => hscalar _ trivial
  have hbool : ∀ b : Bool, P (.bool b) := fun b => hscalar _ trivial
  have hnumber : ∀ n : UInt32, P (.nat n.toNat) := fun n =>
    hscalar _ ⟨Int.natCast_nonneg _, Int.ofNat_lt.2 (Nat.lt_trans n.toNat_lt_size (by decide))⟩
  have hcontains : ∀ field ∈ (if r.inner.isEmpty then []
      else [("contains", Doc.ofList (rules r.inner))]), P field.2 := by
    split
    · exact nofun
    · rename_i hne
      rw [List.isEmpty_iff] at hne
      exact List.forall_mem_singleton.2 (rules_eq_map r.inner ▸ hinner hne)
  have hkind : ∀ k : Kind, P (kind k) := fun k => hstring k.label
  cases r
  rw [rule]
  refine ⟨_, rfl, ?_⟩
  simp only [List.forall_mem_append, List.forall_mem_cons, List.not_mem_nil, false_implies,
    implies_true, and_true, and_assoc]
  exact ⟨forall_mem_optional hstring, forall_mem_optional hkind, forall_mem_optional hstring,
    forall_mem_optional hstring, hbool _, hcontains, forall_mem_optional hbool,
    forall_mem_optional hnumber, hbool _, hbool _, forall_mem_optional hstring⟩

theorem plain_texts (ss : List String) : Json.Plain (texts ss) :=
  .ofList (List.forall_mem_map.2 fun s _ => Json.plain_string s)

theorem plain_fragment (f : FragmentSpec) : Json.Plain (fragment f) := by
  cases f with
  | pattern source => exact Json.plain_string source
  | words list => exact plain_texts list

theorem plain_wordList (list : WordList) : Json.Plain (wordList list) := by
  cases list with
  | text words => exact Json.plain_string words
  | list words => exact plain_texts words

mutual

theorem plain_rule (r : RuleSpec) : Json.Plain (rule r) := by
  cases r with
  | mk _ _ _ _ _ inner =>
    have hinner : Json.Plain (.ofList (inner.map rule)) :=
      .ofList (List.forall_mem_map.2 (plain_rules inner))
    obtain ⟨fields, hfields, hplain⟩ :=
      exists_rule_eq (fun _ => Json.Plain.scalar) (.mk _ _ _ _ _ inner _ _ _ _ _) fun _ => hinner
    rw [hfields]
    exact .ofFields hplain

theorem plain_rules (rs : List RuleSpec) : ∀ r ∈ rs, Json.Plain (rule r) := by
  cases rs with
  | nil => exact List.forall_mem_nil _
  | cons r rs => exact List.forall_mem_cons.2 ⟨plain_rule r, plain_rules rs⟩

end

/-- The fields of a grammar are single values, lists of texts, the fragments, the keywords and the
list of the rules. -/
theorem exists_grammar_eq (hscalar : ∀ s, Json.IsPlain s → P (.scalar s)) (g : GrammarSpec)
    (haliases : P (texts g.aliases))
    (hfragments : P (.ofFields (g.fragments.map fun (name, f) => (name, fragment f))))
    (hkeywords : P (.ofFields (g.keywords.map fun (k, list) => (k.label, wordList list))))
    (hrules : P (.ofList (g.rules.map rule))) :
    ∃ fields, grammar g = .ofFields fields ∧ ∀ field ∈ fields, P field.2 := by
  have hstring : ∀ s : String, P (.string s) := fun s => hscalar _ trivial
  have hbool : ∀ b : Bool, P (.bool b) := fun b => hscalar _ trivial
  rw [← rules_eq_map] at hrules
  refine ⟨_, rfl, ?_⟩
  simp only [List.forall_mem_append, List.forall_mem_cons, List.not_mem_nil, false_implies,
    implies_true, and_true, and_assoc]
  exact ⟨hstring _, haliases, forall_mem_optional hstring, hbool _, forall_mem_optional hstring,
    forall_mem_optional hstring, hfragments, hkeywords, forall_mem_optional hstring, hrules⟩

/-- The document of a grammar has nothing in it that JSON could not tell apart. -/
theorem plain_grammar (g : GrammarSpec) : Json.Plain (grammar g) := by
  obtain ⟨fields, hfields, hplain⟩ := exists_grammar_eq (fun _ => Json.Plain.scalar) g
    (plain_texts g.aliases)
    (.ofFields (List.forall_mem_map.2 fun entry _ => plain_fragment entry.2))
    (.ofFields (List.forall_mem_map.2 fun entry _ => plain_wordList entry.2))
    (.ofList (List.forall_mem_map.2 (plain_rules g.rules)))
  rw [hfields]
  exact .ofFields hplain

theorem nesting_texts (ss : List String) : (texts ss).nesting ≤ 1 :=
  Doc.nesting_ofList_le_iff.2 (List.forall_mem_map.2 fun _ _ => Nat.le_refl 0)

theorem nesting_fragment (f : FragmentSpec) : (fragment f).nesting ≤ 1 := by
  cases f with
  | pattern source => exact Nat.zero_le 1
  | words list => exact nesting_texts list

theorem nesting_wordList (list : WordList) : (wordList list).nesting ≤ 1 := by
  cases list with
  | text words => exact Nat.zero_le 1
  | list words => exact nesting_texts words

/-- A rule takes a map, and a list for the rules in it. -/
theorem nesting_rule_le {n : Nat} {r : RuleSpec} (h : r.height ≤ n + 1) :
    (rule r).nesting ≤ 2 * n + 1 := by
  have hinner := RuleSpec.height_le_succ_iff.1 h
  have hlist : r.inner ≠ [] → (Doc.ofList (r.inner.map rule)).nesting ≤ 2 * n := by
    intro hne
    cases n with
    | zero =>
      obtain ⟨first, hfirst⟩ := List.exists_mem_of_ne_nil _ hne
      exact absurd (hinner first hfirst) (Nat.not_le.2 first.height_pos)
    | succ n =>
      rw [Nat.mul_succ, Doc.nesting_ofList_le_iff, List.forall_mem_map]
      exact fun first hfirst => nesting_rule_le (hinner first hfirst)
  obtain ⟨fields, hfields, hnesting⟩ :=
    exists_rule_eq (P := fun doc => doc.nesting ≤ 2 * n) (fun _ _ => Nat.zero_le _) r hlist
  rw [hfields]
  exact Doc.nesting_ofFields_le_iff.2 hnesting

/-- A grammar takes a map and a list more. -/
theorem nesting_grammar_le {n : Nat} {g : GrammarSpec} (h : ∀ r ∈ g.rules, r.height ≤ n + 1) :
    (grammar g).nesting ≤ 2 * n + 3 := by
  have hlists : 1 ≤ 2 * n + 1 := Nat.le_add_left 1 _
  have haliases := Nat.le_trans (nesting_texts g.aliases) (Nat.le_succ_of_le hlists)
  have hfragments : (Doc.ofFields (g.fragments.map fun (name, f) => (name, fragment f))).nesting ≤
      2 * n + 2 := Doc.nesting_ofFields_le_iff.2 (List.forall_mem_map.2
    fun entry _ => Nat.le_trans (nesting_fragment entry.2) hlists)
  have hkeywords : (Doc.ofFields (g.keywords.map fun (k, list) =>
      (k.label, wordList list))).nesting ≤ 2 * n + 2 :=
    Doc.nesting_ofFields_le_iff.2 (List.forall_mem_map.2
      fun entry _ => Nat.le_trans (nesting_wordList entry.2) hlists)
  have hrules := Doc.nesting_ofList_le_iff.2 (List.forall_mem_map.2
    fun r hr => nesting_rule_le (h r hr))
  obtain ⟨fields, hfields, hnesting⟩ := exists_grammar_eq (P := fun doc => doc.nesting ≤ 2 * n + 2)
    (fun _ _ => Nat.zero_le _) g haliases hfragments hkeywords hrules
  rw [hfields]
  exact Doc.nesting_ofFields_le_iff.2 hnesting

end Encode

end Highlighter
