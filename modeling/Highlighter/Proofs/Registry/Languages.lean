import Highlighter.Proofs.Compiled
import Highlighter.Proofs.Registry.Index
import Highlighter.Proofs.Twins.Text

/-!
The languages that grammars mention. A registry is valid just if all of them are registered, in
whatever rule they are mentioned.
-/

namespace Highlighter

namespace Rule

theorem Among.languages_subset {rules : List Rule} {rule : Rule} (h : Among rules rule)
    {name : String} (hname : name ∈ rule.languages) : name ∈ languagesOf rules := by
  induction h with
  | top mem => exact mem_languagesOf.2 ⟨_, mem, hname⟩
  | inner outer mem ih => exact ih (mem_languages_of_inner mem hname)

/-- The languages listed for some rules are those of the rules in them, at any depth. -/
theorem mem_languagesOf_iff {rules : List Rule} {name : String} :
    name ∈ languagesOf rules ↔ ∃ rule, Among rules rule ∧ rule.language = some name := by
  constructor
  · refine Rule.languagesOf.induct
      (fun rule => name ∈ rule.languages → ∃ r, Among [rule] r ∧ r.language = some name)
      (fun rules => name ∈ languagesOf rules → ∃ r, Among rules r ∧ r.language = some name)
      ?rule ?nil ?cons rules
    case rule =>
      intro _ _ _ _ inner _ _ _ _ _ language ih h
      rw [languages_eq, List.mem_append] at h
      have hself := List.mem_singleton_self (α := Rule)
      rcases h with hown | hinner
      · exact ⟨_, .top (hself _), by simpa using hown⟩
      · obtain ⟨r, hr, hlanguage⟩ := ih hinner
        exact ⟨r, hr.trans fun top htop => .inner (.top (hself _)) htop, hlanguage⟩
    case nil => exact fun h => nomatch h
    case cons =>
      intro rule rules ihRule ihRules h
      rw [languagesOf, List.mem_append] at h
      rcases h with hfirst | hrest
      · obtain ⟨r, hr, hlanguage⟩ := ihRule hfirst
        refine ⟨r, hr.trans fun top htop => .top ?_, hlanguage⟩
        exact List.mem_singleton.1 htop ▸ List.mem_cons_self
      · obtain ⟨r, hr, hlanguage⟩ := ihRules hrest
        exact ⟨r, hr.trans fun top htop => .top (List.mem_cons_of_mem _ htop), hlanguage⟩
  · rintro ⟨rule, hamong, hlanguage⟩
    exact hamong.languages_subset (mem_languages hlanguage)

end Rule

namespace Registry

theorem forM_eq_ok_iff {ε α : Type} {f : α → Except ε Unit} {as : List α} :
    as.forM f = .ok () ↔ ∀ a ∈ as, f a = .ok () := by
  induction as with
  | nil => simp [pure, Except.pure]
  | cons a as ih =>
    rw [List.forall_mem_cons, ← ih]
    change (f a >>= fun _ => as.forM f) = .ok () ↔ _
    cases f a <;> simp [bind, Except.bind]

theorem mem_of_find? {r : Registry} {language : String} {g : Grammar}
    (h : r.find? language = some g) : g ∈ r.grammars := by
  obtain ⟨place, -, hg⟩ := Option.bind_eq_some_iff.1 h
  exact List.mem_of_getElem? hg

theorem has_iff {r : Registry} {language : String} :
    r.has language = true ↔ ∃ g, r.find? language = some g := Option.isSome_iff_exists

theorem validateGrammar_eq_ok_iff {r : Registry} {g : Grammar} :
    r.validateGrammar g = .ok () ↔
      (∀ target, g.supersetOf = some target → r.has target = true) ∧
        ∀ language ∈ g.languages, r.has language = true := by
  have hlanguages : (∀ language ∈ g.languages, r.has language = true) ↔
      g.languages.find? (!r.has ·) = none := by simp
  rw [hlanguages]
  unfold validateGrammar
  cases g.supersetOf with
  | none => cases g.languages.find? (!r.has ·) <;> simp [pure, Except.pure]
  | some target =>
    cases htarget : r.has target <;> cases g.languages.find? (!r.has ·) <;>
      simp [htarget, bind, Except.bind, pure, Except.pure, throw, throwThe, MonadExceptOf.throw]

/-- Everything that the grammars mention is registered: what they are supersets of, and the language
of every rule in them, at any depth. -/
def Resolved (r : Registry) : Prop :=
  ∀ g ∈ r.grammars,
    (∀ target, g.supersetOf = some target → ∃ found, r.find? target = some found) ∧
      ∀ rule, Rule.Among g.rules rule → ∀ language, rule.language = some language →
        ∃ found, r.find? language = some found

/-- A registry is valid just if everything that its grammars mention is registered. -/
theorem validate_eq_ok_iff {r : Registry} : r.validate = .ok () ↔ r.Resolved := by
  unfold validate Resolved
  rw [forM_eq_ok_iff]
  refine forall₂_congr fun g _ => ?_
  rw [validateGrammar_eq_ok_iff]
  simp only [Grammar.languages, List.mem_eraseDups, Rule.mem_languagesOf_iff, has_iff]
  exact and_congr_right' ⟨fun h rule hrule language hlanguage => h language ⟨rule, hrule, hlanguage⟩,
    fun h language ⟨rule, hrule, hlanguage⟩ => h rule hrule language hlanguage⟩

theorem find?_bars {language : String} (hkey : Text.lowercase language = "bars") :
    Registry.find? { grammars := [.bars] } language = some .bars := by
  exact ((inStep_empty .standard).find?_push (fun key _ => not_taken_empty _ key) language).1
    ⟨"bars", List.mem_cons_self, by rw [hkey]; decide +kernel⟩

/-- Text between bars is in the language of bars itself. -/
theorem resolved_bars : Resolved { grammars := [.bars] } := by
  refine List.forall_mem_singleton.2 ⟨nofun, fun rule among language hlanguage => ?_⟩
  have hmem : language ∈ ["bars"] := Rule.mem_languagesOf_iff.2 ⟨rule, among, hlanguage⟩
  obtain rfl := List.mem_singleton.1 hmem
  exact ⟨.bars, find?_bars (by decide +kernel)⟩

end Registry

end Highlighter
