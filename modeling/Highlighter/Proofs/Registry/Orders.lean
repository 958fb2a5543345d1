import Highlighter.Proofs.Registry.Languages
import Mathlib.Data.List.Sort

/-!
Other registrations do not matter. What is found in a registry is known from the grammars in it, not
from their places, so in a registry with more grammars everything is found that was found before. If
the smaller one is valid, highlighting looks up nothing else, and comes to the same. Whether grammars
can be registered one after the other depends on their keys only, which must all be different, so
they can be registered in any order.
-/

namespace Highlighter

/-- No key belongs to both of two grammars. -/
def Grammar.Apart (g g' : Grammar) : Prop := ∀ key, g.IsKey key → ¬ g'.IsKey key

theorem Grammar.Apart.symm {g g' : Grammar} (h : g.Apart g') : g'.Apart g :=
  fun key hkey' hkey => h key hkey hkey'

theorem Grammar.apart_iff {g g' : Grammar} : g.Apart g' ↔ ∀ key ∈ g.keys, key ∉ g'.keys := by
  simp only [Apart, mem_keys]

namespace Registry

variable {r r' : Registry}

theorem highlight?_of_find? {language : String} {g : Grammar} (found : r.find? language = some g)
    (maxDepth : Nat) (text : String) :
    r.highlight? language maxDepth text =
      some (Highlighting.start g r.find? maxDepth text).toHighlight := by
  rw [highlight?, start?, found]
  rfl

theorem InStep.find?_of_subset (h : r.InStep) (h' : r'.InStep) (subset : r.grammars ⊆ r'.grammars)
    {language : String} {g : Grammar} (found : r.find? language = some g) :
    r'.find? language = some g := by
  obtain ⟨hmem, hkey⟩ := h.find?_eq_some_iff.1 found
  exact h'.find?_eq_some_iff.2 ⟨subset hmem, hkey⟩

section Larger

variable (resolved : r.Resolved)
  (larger : ∀ language g, r.find? language = some g → r'.find? language = some g)

/-- One text, in the languages that a registry knows. -/
def pairing (r : Registry) (source : Source) : Scan.Pairing :=
  ⟨source, source, source.size, fun name name' => name = name' ∧ r.has name = true⟩

include resolved

/-- A grammar of a valid registry mentions only languages that the registry knows. -/
theorem grammar_twin {g : Grammar} (hg : g ∈ r.grammars) (source : Source) :
    g.Twin (r.pairing source) g := by
  have same : (r.pairing source).SameText := fun _ _ => rfl
  refine same.grammar_twin fun name hname => ⟨rfl, ?_⟩
  obtain ⟨rule, among, hlanguage⟩ := Rule.mem_languagesOf_iff.1 hname
  exact has_iff.2 ((resolved g hg).2 rule among name hlanguage)

include larger

theorem context_twin {g : Grammar} (hg : g ∈ r.grammars) (maxDepth : Nat) (text : String) :
    Scan.Context.Twin (r.pairing (Source.ofString text))
      (Highlighting.start g r.find? maxDepth text).ctx
      (Highlighting.start g r'.find? maxDepth text).ctx where
  left := rfl
  right := rfl
  grammar := grammar_twin resolved hg _
  language := by
    rintro name _ ⟨rfl, hhas⟩
    obtain ⟨g', hfound⟩ := has_iff.1 hhas
    change Option.Rel _ (r.find? name) (r'.find? name)
    rw [hfound, larger name g' hfound]
    exact .some (grammar_twin resolved (mem_of_find? hfound) _)
  cap := rfl
  stop := rfl
  stop_le := Nat.le_refl _
  base := rfl

/-- Where everything is found that a valid registry finds, its languages highlight to the same. -/
theorem highlight?_of_larger {language : String} (known : r.has language = true) (maxDepth : Nat)
    (text : String) : ∃ highlight, r.highlight? language maxDepth text = some highlight ∧
      r'.highlight? language maxDepth text = some highlight := by
  obtain ⟨g, hfound⟩ := has_iff.1 known
  have htwin := context_twin resolved larger (mem_of_find? hfound) maxDepth text
  obtain ⟨tokens, outcome, hhighlight, hhighlight'⟩ := htwin.exists_highlight rfl 0
  refine ⟨⟨g.name, tokens, outcome⟩, ?_, ?_⟩
  · rw [highlight?_of_find? hfound]
    exact congrArg some hhighlight
  · rw [highlight?_of_find? (larger language g hfound)]
    exact congrArg some hhighlight'

end Larger

/-- Grammars that can be added to a registry one after the other: none of their keys is taken, and no
two of them share a key. -/
structure Fits (r : Registry) (gs : List Grammar) : Prop where
  free : ∀ g ∈ gs, ∀ key, g.IsKey key → ¬ r.Taken key
  apart : gs.Pairwise Grammar.Apart

theorem taken_push {g : Grammar} {key : String} :
    (r.push g).Taken key ↔ r.Taken key ∨ g.IsKey key := by
  simp only [Taken, push, List.mem_append, List.mem_singleton]
  constructor
  · rintro ⟨g', hmem | rfl, hkey⟩
    · exact .inl ⟨g', hmem, hkey⟩
    · exact .inr hkey
  · rintro (⟨g', hmem, hkey⟩ | hkey)
    · exact ⟨g', .inl hmem, hkey⟩
    · exact ⟨g, .inr rfl, hkey⟩

theorem fits_cons {g : Grammar} {gs : List Grammar} :
    r.Fits (g :: gs) ↔ (∀ key, g.IsKey key → ¬ r.Taken key) ∧ (r.push g).Fits gs := by
  constructor
  · rintro ⟨free, apart⟩
    obtain ⟨hfree, hrest⟩ := List.forall_mem_cons.1 free
    obtain ⟨hapart, hpairs⟩ := List.pairwise_cons.1 apart
    refine ⟨hfree, fun g' hmem key hkey' htaken => ?_, hpairs⟩
    rcases taken_push.1 htaken with hold | hkey
    · exact hrest g' hmem key hkey' hold
    · exact hapart g' hmem key hkey hkey'
  · rintro ⟨hfree, free, apart⟩
    refine ⟨List.forall_mem_cons.2 ⟨hfree, fun g' hmem key hkey' htaken => ?_⟩,
      List.pairwise_cons.2 ⟨fun g' hmem key hkey hkey' => ?_, apart⟩⟩
    · exact free g' hmem key hkey' (taken_push.2 (.inl htaken))
    · exact free g' hmem key hkey' (taken_push.2 (.inr hkey))

/-- Where nothing is registered, grammars fit that share no keys. -/
theorem fits_empty {library : Library} {gs : List Grammar} :
    Registry.Fits { library } gs ↔ gs.Pairwise Grammar.Apart :=
  ⟨Fits.apart, fun apart => ⟨fun _ _ key _ => not_taken_empty library key, apart⟩⟩

/-- Whether grammars fit does not depend on their order. -/
theorem Fits.perm {gs gs' : List Grammar} (h : r.Fits gs) (perm : gs.Perm gs') : r.Fits gs' where
  free := fun g hmem => h.free g (perm.mem_iff.2 hmem)
  apart := perm.pairwise h.apart fun hg => hg.symm

theorem InStep.register_eq_ok_iff (h : r.InStep) {g : Grammar} :
    r.register g = .ok r' ↔ (∀ key, g.IsKey key → ¬ r.Taken key) ∧ r.push g = r' := by
  constructor
  · intro hok
    rcases h.perform_compiled_cases g with ⟨key, -, hrefused⟩ | ⟨free, -⟩
    · have hadd : (add g).run.run r = (.error (.duplicateName key), r) := hrefused
      rw [register, Change.apply, hadd] at hok
      cases hok
    · rw [h.register_of_free free] at hok
      exact ⟨free, Except.ok.inj hok⟩
  · rintro ⟨free, rfl⟩
    exact h.register_of_free free

/-- Grammars are registered one after the other just if they fit. -/
theorem InStep.foldlM_register_eq_ok_iff (h : r.InStep) {gs : List Grammar} :
    gs.foldlM Registry.register r = .ok r' ↔ r.Fits gs ∧ gs.foldl Registry.push r = r' := by
  induction gs generalizing r with
  | nil =>
    simp only [List.foldlM_nil, List.foldl_nil, pure, Except.pure, Except.ok.injEq]
    exact (and_iff_right ⟨fun _ h => (nomatch h), .nil⟩).symm
  | cons g gs ih =>
    rw [List.foldlM_cons, List.foldl_cons, fits_cons, and_assoc]
    constructor
    · intro hok
      cases hg : r.register g with
      | error e =>
        rw [hg] at hok
        cases hok
      | ok after =>
        obtain ⟨free, rfl⟩ := h.register_eq_ok_iff.1 hg
        rw [hg] at hok
        exact ⟨free, (ih (h.push free)).1 hok⟩
    · rintro ⟨free, hrest⟩
      rw [h.register_of_free free]
      exact (ih (h.push free)).2 hrest

theorem InStep.foldl_push (h : r.InStep) {gs : List Grammar} (fits : r.Fits gs) :
    (gs.foldl Registry.push r).InStep ∧ (gs.foldl Registry.push r).grammars = r.grammars ++ gs := by
  induction gs generalizing r with
  | nil => exact ⟨h, (List.append_nil _).symm⟩
  | cons g gs ih =>
    obtain ⟨free, hrest⟩ := fits_cons.1 fits
    obtain ⟨hstep, hgrammars⟩ := ih (h.push free) hrest
    exact ⟨hstep, hgrammars.trans (List.append_assoc _ [g] gs)⟩

/-- Registries that answer alike. -/
structure Alike (r r' : Registry) : Prop where
  find? : ∀ language, r.find? language = r'.find? language
  has : ∀ language, r.has language = r'.has language
  names : r.names = r'.names
  length : r.grammars.length = r'.grammars.length
  valid : r.validate = .ok () ↔ r'.validate = .ok ()

/-- The order of the grammars does not matter. -/
theorem InStep.alike (h : r.InStep) (h' : r'.InStep) (perm : r.grammars.Perm r'.grammars) :
    r.Alike r' := by
  have hfind : ∀ language, r.find? language = r'.find? language := fun language =>
    Option.ext fun g => ⟨h.find?_of_subset h' perm.subset, h'.find?_of_subset h perm.symm.subset⟩
  refine ⟨hfind, fun language => congrArg Option.isSome (hfind language), ?_, perm.length_eq, ?_⟩
  · have hnames : r.names.Perm r'.names :=
      (List.mergeSort_perm _ _).trans ((perm.map Grammar.name).trans (List.mergeSort_perm _ _).symm)
    exact hnames.eq_of_pairwise (fun _ _ _ _ hlt hgt => absurd hgt (lt_asymm hlt)) h.names_sorted
      h'.names_sorted
  · simp only [validate_eq_ok_iff, Resolved, hfind, perm.mem_iff]

/-- Where a registry is valid, its languages are highlighted to the same in every registry that has
its grammars, whatever else has been registered there and in whatever order. And grammars that can be
registered one after the other can be registered in any order, and the registries answer alike. -/
theorem other_registrations_immaterial (built : r.Built) :
    (r.validate = .ok () → ∀ r' : Registry, r'.Built → r.grammars ⊆ r'.grammars →
      ∀ language, r.has language = true → ∀ (maxDepth : Nat) (text : String),
        ∃ highlight, r.highlight? language maxDepth text = some highlight ∧
          r'.highlight? language maxDepth text = some highlight) ∧
    ∀ (gs gs' : List Grammar) (after : Registry), gs.Perm gs' →
      gs.foldlM Registry.register r = .ok after →
      ∃ after', gs'.foldlM register r = .ok after' ∧ after.Alike after' := by
  have h := built.inStep
  constructor
  · intro valid r' built' subset language known maxDepth text
    exact highlight?_of_larger (validate_eq_ok_iff.1 valid)
      (fun language g => h.find?_of_subset built'.inStep subset) known maxDepth text
  · intro gs gs' after perm hok
    obtain ⟨fits, rfl⟩ := h.foldlM_register_eq_ok_iff.1 hok
    have fits' := fits.perm perm
    obtain ⟨hstep, hgrammars⟩ := h.foldl_push fits
    obtain ⟨hstep', hgrammars'⟩ := h.foldl_push fits'
    refine ⟨_, h.foldlM_register_eq_ok_iff.2 ⟨fits', rfl⟩, hstep.alike hstep' ?_⟩
    rw [hgrammars, hgrammars']
    exact perm.append_left _

/-- A language of boxes does not matter to that of bars, which may be registered before or after. -/
theorem boxes_immaterial :
    let boxes : Grammar := { Grammar.bars with name := "boxes", aliases := ["box"] }
    let both := (Registry.perform (Registry.perform {} (.compiled boxes)).2 (.compiled .bars)).2
    (∀ (maxDepth : Nat) (text : String), ∃ highlight,
      Registry.highlight? { grammars := [.bars] } "Bars" maxDepth text = some highlight ∧
        both.highlight? "Bars" maxDepth text = some highlight) ∧
    ∃ after after', [.bars, boxes].foldlM Registry.register {} = .ok after ∧
      [boxes, .bars].foldlM Registry.register {} = .ok after' ∧ after.Alike after' := by
  intro boxes both
  have hempty := inStep_empty .standard
  have apart : boxes.Apart .bars := Grammar.apart_iff.2 (by decide +kernel)
  have fits : Registry.Fits {} [boxes, .bars] := fits_empty.2 (List.pairwise_pair.2 apart)
  have built : Built (Registry.push {} .bars) := by
    have built := (Built.empty .standard).perform (.compiled .bars)
    rwa [hempty.perform_of_free fun key _ => not_taken_empty _ key] at built
  have built' : both.Built :=
    ((Built.empty .standard).perform (.compiled boxes)).perform (.compiled .bars)
  have hboth : both.grammars = [boxes, .bars] := by
    obtain ⟨free, hrest⟩ := fits_cons.1 fits
    change (Registry.perform (Registry.perform {} _).2 _).2.grammars = _
    rw [hempty.perform_of_free free, (hempty.push free).perform_of_free (hrest.free _ (by simp))]
    rfl
  obtain ⟨highlights, -⟩ := other_registrations_immaterial built
  obtain ⟨-, orders⟩ := other_registrations_immaterial (Built.empty .standard)
  refine ⟨highlights (validate_eq_ok_iff.2 resolved_bars) both built' ?_ "Bars" ?_, ?_⟩
  · rw [hboth]
    exact List.subset_cons_self _ _
  · exact has_iff.2 ⟨_, find?_bars (by decide +kernel)⟩
  · have hok := hempty.foldlM_register_eq_ok_iff.2 ⟨fits.perm (.swap _ _ _), rfl⟩
    obtain ⟨after', hok', alike⟩ := orders _ _ _ (.swap _ _ _) hok
    exact ⟨_, after', hok, hok', alike⟩

end Registry

end Highlighter
