import Highlighter.Grammar.Source
import Highlighter.Proofs.Extending
import Highlighter.Proofs.Sorted
import Highlighter.Proofs.Specs.Fields

/-!
The grammars there can be. Whether a grammar is put together call by call or read from a source, its
fragments and its keywords are sorted, with one entry to a key.
-/

namespace Highlighter

namespace GrammarSpec

/-- Each fragment has a name of its own, each keyword set a kind of its own, and they are in order. -/
structure Sorted (spec : GrammarSpec) : Prop where
  fragments : spec.fragments.Pairwise (·.1 < ·.1)
  keywords : spec.keywords.Pairwise (·.1.rank < ·.1.rank)

/-- Grammars that are put together call by call. -/
inductive Built : GrammarSpec → Prop
  | ofName (name : String) : Built (.ofName name)
  | addAlias {spec : GrammarSpec} (built : Built spec) (name : String) : Built (spec.addAlias name)
  | caseless {spec : GrammarSpec} (built : Built spec) (caseless : Bool) :
      Built { spec with caseless }
  | supersetOf {spec : GrammarSpec} (built : Built spec) (name : String) :
      Built { spec with supersetOf := some name }
  | setFragment {spec : GrammarSpec} (built : Built spec) (name : String)
      (fragment : FragmentSpec) : Built (spec.setFragment name fragment)
  | setKeywords {spec : GrammarSpec} (built : Built spec) (kind : Kind) (words : String) :
      Built (spec.setKeywords kind (.text words))
  | illegal {spec : GrammarSpec} (built : Built spec) (pattern : String) :
      Built { spec with illegal := some pattern }
  | addRule {spec : GrammarSpec} (built : Built spec) (rule : RuleSpec) : Built (spec.addRule rule)

theorem sorted_ofName (name : String) : (ofName name).Sorted := ⟨.nil, .nil⟩

theorem Built.sorted {spec : GrammarSpec} (built : spec.Built) : spec.Sorted := by
  induction built with
  | ofName name => exact sorted_ofName name
  | addAlias built name ih => exact ⟨ih.fragments, ih.keywords⟩
  | caseless built b ih => exact ⟨ih.fragments, ih.keywords⟩
  | supersetOf built name ih => exact ⟨ih.fragments, ih.keywords⟩
  | setFragment built name fragment ih =>
    exact ⟨pairwise_putSorted_name ih.fragments, ih.keywords⟩
  | setKeywords built kind words ih =>
    exact ⟨ih.fragments, pairwise_putSorted_kind ih.keywords⟩
  | illegal built pattern ih => exact ⟨ih.fragments, ih.keywords⟩
  | addRule built rule ih => exact ⟨ih.fragments, ih.keywords⟩

end GrammarSpec

namespace Decode

open Compile (bind_eq_ok)

variable {d : Dialect}

/-- What each step keeps, a whole walk keeps. -/
theorem foldlM_keeps {ε σ γ : Type} {P : σ → Prop} {step : σ → γ → Except ε σ}
    (h : ∀ acc c acc', step acc c = .ok acc' → P acc → P acc') {cs : List γ} {acc acc' : σ}
    (hwalk : cs.foldlM step acc = .ok acc') (hacc : P acc) : P acc' := by
  induction cs generalizing acc with
  | nil =>
    cases hwalk
    exact hacc
  | cons c cs ih =>
    rw [List.foldlM_cons] at hwalk
    obtain ⟨next, hnext, hwalk⟩ := bind_eq_ok hwalk
    exact ih hwalk (h acc c next hnext hacc)

theorem fold_keeps {α : Type} {P : α → Prop} {add : α → Doc → Doc → Except Fault α} {initial : α}
    (h : ∀ acc key value acc', add acc key value = .ok acc' → P acc → P acc') {doc : Doc} {a : α}
    (hfold : fold d add initial doc = .ok a) (hinitial : P initial) : P a := by
  obtain ⟨⟨entries, whole⟩, -, hfold⟩ := bind_eq_ok hfold
  obtain ⟨result, hwalk, hfold⟩ := bind_eq_ok hfold
  obtain ⟨-, -, hfold⟩ := bind_eq_ok hfold
  cases hfold
  exact foldlM_keeps (fun acc entry acc' => h acc entry.1 entry.2 acc') hwalk hinitial

theorem sorted_fragments {doc : Doc} {entries : List (String × FragmentSpec)}
    (h : fragments d doc = .ok entries) : entries.Pairwise (·.1 < ·.1) := by
  refine fold_keeps (fun acc key value acc' hadd sorted => ?_) h List.Pairwise.nil
  obtain ⟨name, -, hadd⟩ := bind_eq_ok hadd
  obtain ⟨f, -, hadd⟩ := bind_eq_ok hadd
  cases hadd
  exact pairwise_putSorted_name sorted

theorem sorted_keywords {doc : Doc} {entries : List (Kind × WordList)}
    (h : keywords d doc = .ok entries) : entries.Pairwise (·.1.rank < ·.1.rank) := by
  refine fold_keeps (fun acc key value acc' hadd sorted => ?_) h List.Pairwise.nil
  obtain ⟨k, -, hadd⟩ := bind_eq_ok hadd
  obtain ⟨list, -, hadd⟩ := bind_eq_ok hadd
  cases hadd
  exact pairwise_putSorted_kind sorted

/-- Whatever field is set, fragments and keywords are sorted. -/
theorem sorted_setGrammarField {g g' : GrammarSpec} {name : String} {doc : Doc}
    (h : setGrammarField d g name doc = .ok g') (sorted : g.Sorted) : g'.Sorted := by
  unfold setGrammarField at h
  split at h
  -- Only two of the fields are sorted; each is set to what was built up in order.
  case h_7 =>
    obtain ⟨entries, hentries, rfl⟩ := Fragment.map_eq_ok h
    exact ⟨sorted_fragments hentries, sorted.keywords⟩
  case h_8 =>
    obtain ⟨entries, hentries, rfl⟩ := Fragment.map_eq_ok h
    exact ⟨sorted.fragments, sorted_keywords hentries⟩
  case h_11 => cases h
  all_goals
    obtain ⟨value, -, rfl⟩ := Fragment.map_eq_ok h
    exact ⟨sorted.fragments, sorted.keywords⟩

theorem sorted_grammarEntries {entries : List (Doc × Doc)} {g : GrammarSpec} {seen : List String}
    (h : grammarEntries d entries = .ok (g, seen)) : g.Sorted := by
  refine foldlM_keeps (P := fun acc : GrammarSpec × List String => acc.1.Sorted) ?_ h
    (GrammarSpec.sorted_ofName "")
  intro acc entry acc' hstep sorted
  obtain ⟨name, -, hstep⟩ := bind_eq_ok hstep
  obtain ⟨g', hset, hstep⟩ := bind_eq_ok hstep
  cases hstep
  exact sorted_setGrammarField hset sorted

theorem sorted_grammarItems {items : List Doc} {g : GrammarSpec}
    (h : (items.zip grammarFields).foldlM (fun g (value, name) => setGrammarField d g name value)
      (.ofName "") = .ok g) : g.Sorted :=
  foldlM_keeps (P := GrammarSpec.Sorted) (fun _ _ _ hset sorted => sorted_setGrammarField hset sorted)
    h (GrammarSpec.sorted_ofName "")

theorem sorted_grammar {doc : Doc} {g : GrammarSpec} (h : grammar d doc = .ok g) : g.Sorted := by
  unfold grammar at h
  split at h
  case h_1 =>
    obtain ⟨⟨g', seen⟩, hentries, h⟩ := bind_eq_ok h
    obtain ⟨-, -, h⟩ := bind_eq_ok h
    split at h
    · cases h
      exact sorted_grammarEntries hentries
    · cases h
  case h_2 =>
    split at h
    · obtain ⟨g', hitems, h⟩ := bind_eq_ok h
      dsimp only at h
      split at h
      · cases h
      · cases h
        exact sorted_grammarItems hitems
    · cases h
  case h_3 =>
    split at h <;> cases h
  case h_4 => cases h

end Decode

/-- A grammar that is read has sorted fragments and keywords. -/
theorem GrammarSpec.sorted_of_read {d : Decode.Dialect} {source : String} {g : GrammarSpec}
    (h : GrammarSpec.read d source = .ok g) : g.Sorted := by
  cases hsource : Decode.source d (d.read source) with
  | error fault => simp [GrammarSpec.read, hsource, Except.mapError] at h
  | ok g' =>
    have heq : g' = g := by simpa [GrammarSpec.read, hsource, Except.mapError] using h
    subst heq
    obtain ⟨g, hgrammar, hclean⟩ := Compile.bind_eq_ok hsource
    split at hclean
    · cases hclean
      exact Decode.sorted_grammar hgrammar
    · cases hclean

end Highlighter
