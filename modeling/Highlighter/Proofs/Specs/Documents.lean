import Highlighter.Proofs.Sorted
import Highlighter.Proofs.Specs.Fields

/-!
Grammars and their documents. A grammar is read back from the document that is written of it: each
field from its own place, fragments and keywords whether they are one text or several, and rules as
deep as they are nested.
-/

namespace Highlighter

namespace Decode

variable {d : Dialect}

section Parts

theorem mapM_map_of_pure {m : Type → Type} [Monad m] [LawfulMonad m] {α β : Type} (f : β → m α)
    (g : α → β) (h : ∀ a, f (g a) = pure a) (as : List α) : (as.map g).mapM f = pure as := by
  rw [List.mapM_map, show f ∘ g = fun a => pure (id a) from funext h, List.mapM_pure, List.map_id]

theorem texts_texts (ss : List String) : texts d (Encode.texts ss) = .ok ss := by
  have hitems : (ss.map Doc.string).mapM (text d) = .ok ss :=
    mapM_map_of_pure (text d) Doc.string (fun _ => rfl) ss
  simp only [texts, Encode.texts, Doc.ofList, list, bare, bind, Except.bind, hitems]
  rfl

theorem kind_kind (k : Kind) : kind d (Encode.kind k) = .ok k := by
  have hlabel : kind d (Encode.kind k) = kindOfLabel k.label := by cases d <;> rfl
  rw [hlabel, kindOfLabel, Kind.ofLabel?_label]

theorem word32_nat (n : UInt32) : word32 d (.nat n.toNat) = .ok n := by
  simp only [word32, Doc.nat, Doc.int]
  rw [if_pos, Int.toNat_natCast, UInt32.ofNat_toNat]
  simp only [Bool.and_eq_true, decide_eq_true_eq]
  exact ⟨Int.natCast_nonneg _, Int.ofNat_lt.2 n.toNat_lt_size⟩

theorem optional_eq_ok {α : Type} {read : Doc → Except Fault α} {doc : Doc} {a : α}
    (hnull : isNull doc = .ok false) (h : read doc = .ok a) : optional read doc = .ok (some a) := by
  rw [optional, hnull]
  simp only [h, bind, Except.bind]
  rfl

theorem settleItems_map_string (ss : List String) :
    settleItems (ss.map Doc.string) = .ok (ss.map Doc.string) := by
  induction ss with
  | nil => rfl
  | cons s ss ih =>
    rw [List.map_cons, settleItems, ih]
    rfl

section Shapes

variable {α : Type} (type : String) (one : String → α) (many : List String → α)

/-- One text and several are told apart by their shapes. -/
theorem textOrList_string (s : String) : textOrList type one many (.string s) = .ok (one s) := by
  rw [textOrList, Doc.string, settle]
  rfl

theorem textOrList_texts (ss : List String) :
    textOrList type one many (Encode.texts ss) = .ok (many ss) := by
  have hitems : (ss.map Doc.string).mapM plainText? = some ss :=
    mapM_map_of_pure plainText? Doc.string (fun _ => rfl) ss
  simp only [textOrList, Encode.texts, Doc.ofList, settle, settleItems_map_string, requireWhole,
    ↓reduceIte, bind, Except.bind, pure, Except.pure, hitems]

end Shapes

theorem fragment_fragment (f : FragmentSpec) : fragment (Encode.fragment f) = .ok f := by
  cases f with
  | pattern source => exact textOrList_string ..
  | words list => exact textOrList_texts ..

theorem wordList_wordList (list : WordList) : wordList (Encode.wordList list) = .ok list := by
  cases list with
  | text words => exact textOrList_string ..
  | list words => exact textOrList_texts ..

/-- A sorted list is read back from a map of its entries. -/
theorem fold_ofFields {α β : Type} [DecidableEq α] (less : α → α → Prop) [DecidableRel less]
    (hasymm : ∀ a b, less a b → ¬ less b a) {entries : List (α × β)}
    {add : List (α × β) → Doc → Doc → Except Fault (List (α × β))} {written : α × β → String × Doc}
    (hadd : ∀ acc entry, add acc (.string (written entry).1) (written entry).2 =
      .ok (putSorted (less · ·) entry.1 entry.2 acc))
    (sorted : entries.Pairwise (less ·.1 ·.1)) :
    fold d add [] (.ofFields (entries.map written)) = .ok entries := by
  have hfold : (entries.map fun entry => (Doc.string (written entry).1, (written entry).2)).foldlM
      (fun acc entry => add acc entry.1 entry.2) [] = .ok ([] ++ entries) :=
    foldlM_putSorted less hasymm hadd sorted
  simp only [fold, map, Doc.ofFields, bare, List.map_map, Function.comp_def, bind, Except.bind,
    hfold]
  rfl

theorem fragments_ofFields {entries : List (String × FragmentSpec)}
    (sorted : entries.Pairwise (·.1 < ·.1)) :
    fragments d (.ofFields (entries.map fun (name, f) => (name, Encode.fragment f))) =
      .ok entries := by
  refine fold_ofFields (fun a b : String => a < b) (fun _ _ => String.lt_asymm) ?_ sorted
  intro acc entry
  simp only [fragment_fragment]
  rfl

theorem keywords_ofFields {entries : List (Kind × WordList)}
    (sorted : entries.Pairwise (·.1.rank < ·.1.rank)) :
    keywords d (.ofFields (entries.map fun (k, list) => (k.label, Encode.wordList list))) =
      .ok entries := by
  refine fold_ofFields (fun a b : Kind => a.rank < b.rank) (fun _ _ => Nat.lt_asymm) ?_ sorted
  intro acc entry
  have hkind : kind d (.string entry.1.label) = .ok entry.1 := kind_kind entry.1
  simp only [hkind, wordList_wordList]
  rfl

end Parts

section Rules

/-- Sets a field of a rule. -/
def setRule (d : Dialect) (rule : RuleSpec) (name : String) (doc : Doc) : Except Fault RuleSpec :=
  if name = "contains" then (rules d doc).map fun inner => { rule with inner }
  else setRuleField d rule name doc

theorem ruleEntries_eq_foldlM (seen : List String) (acc : RuleSpec) (entries : List (Doc × Doc)) :
    ruleEntries d seen acc entries =
      (entries.foldlM (addField d ruleFields (setRule d)) (acc, seen)).map Prod.fst := by
  induction entries generalizing seen acc with
  | nil =>
    rw [ruleEntries]
    rfl
  | cons entry entries ih =>
    obtain ⟨key, value⟩ := entry
    rw [ruleEntries, List.foldlM_cons, addField]
    cases field d ruleFields seen key with
    | error fault => rfl
    | ok name =>
      simp only [setRule, bind, Except.bind]
      split
      · cases (rules d value).map fun inner => { acc with inner } with
        | error fault => rfl
        | ok next => exact ih ..
      · cases setRuleField d acc name value with
        | error fault => rfl
        | ok next => exact ih ..

theorem rule_ofFields {fields : List (String × Doc)} {r : RuleSpec}
    (h : Fills (setRule d) ruleFields {} fields r) : rule d (.ofFields fields) = .ok r := by
  rw [Doc.ofFields, rule, ruleEntries_eq_foldlM, h.foldlM (by decide)]
  rfl

theorem rules_ofList {docs : List Doc} {rs : List RuleSpec} (h : ruleList d docs = .ok rs) :
    rules d (.ofList docs) = .ok rs := by
  rw [Doc.ofList, rules, h]
  rfl

theorem setRule_label {acc : RuleSpec} (k : Kind) :
    setRule d acc "label" (Encode.kind k) = .ok { acc with label := some k } := by
  have hread : optional (kind d) (Encode.kind k) = .ok (some k) :=
    optional_eq_ok rfl (kind_kind k)
  change (optional (kind d) (Encode.kind k)).map (fun label => { acc with label }) = _
  rw [hread]
  rfl

theorem setRule_relevance {acc : RuleSpec} (n : UInt32) :
    setRule d acc "relevance" (.nat n.toNat) = .ok { acc with relevance := some n } := by
  have hread : optional (word32 d) (.nat n.toNat) = .ok (some n) :=
    optional_eq_ok rfl (word32_nat n)
  have hset : ∀ doc, setRule d acc "relevance" doc =
      (optional (word32 d) doc).map fun relevance => { acc with relevance } := fun _ => rfl
  rw [hset, hread]
  rfl

/-- The inner rules are left out when there are none. -/
theorem fills_contains {known : List String} {acc r : RuleSpec} {inner : List RuleSpec}
    {fields : List (String × Doc)} (hacc : acc.inner = [])
    (h : ruleList d (Encode.rules inner) = .ok inner)
    (h' : Fills (setRule d) known { acc with inner } fields r) :
    Fills (setRule d) ("contains" :: known) acc
      ((if inner.isEmpty then [] else [("contains", .ofList (Encode.rules inner))]) ++ fields) r := by
  cases inner with
  | nil =>
    cases acc
    cases hacc
    exact h'.skip
  | cons first rest =>
    refine .cons ?_ h'
    rw [setRule, if_pos rfl, rules_ofList h]
    rfl

/-- A rule is read back if its inner rules are. -/
theorem rule_rule_of_inner (r : RuleSpec) (h : ruleList d (Encode.rules r.inner) = .ok r.inner) :
    rule d (Encode.rule r) = .ok r := by
  obtain ⟨reference, label, opening, closing, closesAsOpened, inner, caseless, relevance,
    openingOutside, closingOutside, language⟩ := r
  rw [Encode.rule]
  refine rule_ofFields ?_
  rw [← List.append_nil (Encode.optional "sub_language" _ _)]
  simp only [List.append_assoc, List.cons_append, List.nil_append]
  -- Each field makes the rule with the fields before it into the one that has it too.
  refine .optional (fun reference => ({ reference } : RuleSpec)) (fun _ => rfl) ?_
  refine .optional (fun label => ({ reference, label } : RuleSpec)) setRule_label ?_
  refine .optional (fun opening => ({ reference, label, opening } : RuleSpec)) (fun _ => rfl) ?_
  refine .optional (fun closing => ({ reference, label, opening, closing } : RuleSpec))
    (fun _ => rfl) ?_
  refine .cons rfl ?_
  refine fills_contains rfl h ?_
  refine .optional (fun caseless =>
    ({ reference, label, opening, closing, closesAsOpened, inner, caseless } : RuleSpec))
    (fun _ => rfl) ?_
  refine .optional (fun relevance =>
    ({ reference, label, opening, closing, closesAsOpened, inner, caseless, relevance } : RuleSpec))
    setRule_relevance ?_
  refine .cons rfl ?_
  refine .cons rfl ?_
  exact .optional (fun language =>
    ({ reference, label, opening, closing, closesAsOpened, inner, caseless, relevance,
       openingOutside, closingOutside, language } : RuleSpec)) (fun _ => rfl) .nil

mutual

/-- A rule is read back, however deep rules are nested in it. -/
theorem rule_rule (r : RuleSpec) : rule d (Encode.rule r) = .ok r := by
  cases r with
  | mk _ _ _ _ _ inner => exact rule_rule_of_inner _ (ruleList_rules inner)

theorem ruleList_rules (rs : List RuleSpec) : ruleList d (Encode.rules rs) = .ok rs := by
  cases rs with
  | nil => rw [Encode.rules, ruleList]
  | cons r rs =>
    rw [Encode.rules, ruleList, rule_rule r, ruleList_rules rs]
    rfl

end

end Rules

section Grammars

theorem grammarEntries_eq_foldlM (entries : List (Doc × Doc)) : grammarEntries d entries =
    entries.foldlM (addField d grammarFields (setGrammarField d)) (.ofName "", []) :=
  rfl

theorem grammar_ofFields {fields : List (String × Doc)} {g : GrammarSpec}
    (hname : "name" ∈ fields.map Prod.fst)
    (h : Fills (setGrammarField d) grammarFields (.ofName "") fields g) :
    grammar d (.ofFields fields) = .ok g := by
  have hseen : (fields.map Prod.fst).reverse.contains "name" = true := by simpa using hname
  simp only [grammar, Doc.ofFields, bare, grammarEntries_eq_foldlM, h.foldlM (by decide) d, bind,
    Except.bind, requireWhole, hseen, ↓reduceIte]
  rfl

theorem setGrammarField_aliases {acc : GrammarSpec} (ss : List String) :
    setGrammarField d acc "aliases" (Encode.texts ss) = .ok { acc with aliases := ss } := by
  change (texts d (Encode.texts ss)).map (fun aliases => { acc with aliases }) = _
  rw [texts_texts]
  rfl

theorem setGrammarField_fragments {acc : GrammarSpec} {entries : List (String × FragmentSpec)}
    (sorted : entries.Pairwise (·.1 < ·.1)) :
    setGrammarField d acc "fragments"
      (.ofFields (entries.map fun (name, f) => (name, Encode.fragment f))) =
        .ok { acc with fragments := entries } := by
  change (fragments d _).map (fun fragments => { acc with fragments }) = _
  rw [fragments_ofFields sorted]
  rfl

theorem setGrammarField_keywords {acc : GrammarSpec} {entries : List (Kind × WordList)}
    (sorted : entries.Pairwise (·.1.rank < ·.1.rank)) :
    setGrammarField d acc "keywords"
      (.ofFields (entries.map fun (k, list) => (k.label, Encode.wordList list))) =
        .ok { acc with keywords := entries } := by
  change (keywords d _).map (fun keywords => { acc with keywords }) = _
  rw [keywords_ofFields sorted]
  rfl

theorem setGrammarField_rules {acc : GrammarSpec} (rs : List RuleSpec) :
    setGrammarField d acc "rules" (.ofList (Encode.rules rs)) = .ok { acc with rules := rs } := by
  change (rules d (.ofList (Encode.rules rs))).map (fun rules => { acc with rules }) = _
  rw [rules_ofList (ruleList_rules rs)]
  rfl

/-- A grammar is read back whose fragments and keywords are sorted. -/
theorem grammar_grammar (g : GrammarSpec) (hfragments : g.fragments.Pairwise (·.1 < ·.1))
    (hkeywords : g.keywords.Pairwise (·.1.rank < ·.1.rank)) :
    grammar d (Encode.grammar g) = .ok g := by
  obtain ⟨name, aliases, category, caseless, supersetOf, wordPattern, fragments, keywords, illegal,
    rules⟩ := g
  rw [Encode.grammar]
  refine grammar_ofFields (List.mem_cons_self ..) ?_
  simp only [List.append_assoc, List.cons_append, List.nil_append]
  refine .cons rfl ?_
  refine .cons (setGrammarField_aliases aliases) ?_
  refine .optional (fun category => ({ name, aliases, category } : GrammarSpec)) (fun _ => rfl) ?_
  refine .cons rfl ?_
  refine .optional (fun supersetOf =>
    ({ name, aliases, category, caseless, supersetOf } : GrammarSpec)) (fun _ => rfl) ?_
  refine .optional (fun wordPattern =>
    ({ name, aliases, category, caseless, supersetOf, wordPattern } : GrammarSpec))
    (fun _ => rfl) ?_
  refine .cons (setGrammarField_fragments hfragments) ?_
  refine .cons (setGrammarField_keywords hkeywords) ?_
  refine .optional (fun illegal => ({ name, aliases, category, caseless, supersetOf, wordPattern,
                                      fragments, keywords, illegal } : GrammarSpec))
    (fun _ => rfl) ?_
  exact .cons (setGrammarField_rules rules) .nil

end Grammars

end Decode

end Highlighter
