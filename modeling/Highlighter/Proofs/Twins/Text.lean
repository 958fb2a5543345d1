import Highlighter.Proofs.Twins.Region

/-!
A region is highlighted without regard to what is behind it. Two texts that are the same up to the
end of a region are highlighted alike there.
-/

namespace Highlighter

namespace Rule

theorem languages_eq (rule : Rule) :
    rule.languages = rule.language.toList ++ languagesOf rule.inner := by
  cases rule
  rw [languages]

theorem mem_languagesOf {rules : List Rule} {name : String} :
    name ∈ languagesOf rules ↔ ∃ rule ∈ rules, name ∈ rule.languages := by
  induction rules with
  | nil => simp [languagesOf]
  | cons rule rules ih => simp [languagesOf, ih]

theorem mem_languages {rule : Rule} {name : String} (h : rule.language = some name) :
    name ∈ rule.languages := by
  simp [languages_eq, h]

theorem mem_languages_of_inner {rule child : Rule} {name : String} (h : child ∈ rule.inner)
    (hname : name ∈ child.languages) : name ∈ rule.languages := by
  rw [languages_eq, List.mem_append]
  exact .inr (mem_languagesOf.2 ⟨child, h, hname⟩)

end Rule

namespace Scan

namespace Pairing

/-- Two texts as they are looked at up to some position, in the same languages. -/
def texts (left right : Source) (size : Nat) : Pairing := ⟨left, right, size, Eq⟩

variable {w : Pairing} (same : w.SameText)

include same

theorem SameText.finds_regex (r : Regex) : w.Finds r.find? r.find? := by
  intro stop hstop p
  simpa only [Regex.mapSets_id] using (same.alike hstop).find?_eq r p

theorem SameText.finds_word (r : Regex) : w.Finds r.findSwept? r.findSwept? := by
  intro stop hstop p
  simpa only [Regex.mapSets_id] using (same.alike hstop).findSwept?_eq r p

theorem SameText.finds_scanner (s : Scanner) : w.Finds s.find? s.find? := by
  intro stop hstop p
  simpa only [Scanner.mapSets_id] using s.find?_eq (same.alike hstop) p

/-- In the same text a rule acts alike whatever its opening is spelled like, which only the scanner
around it looks for. -/
theorem SameText.rule_alike (rule : Rule) (opening : String) {language : Option String}
    (hlanguage : Option.Rel w.language rule.language language) :
    rule.Alike w { rule with opening, language } where
  kind := rfl
  relevance := rfl
  openingOutside := rfl
  closingOutside := rfl
  opensScope := rfl
  asOpened := Iff.rfl
  copied := fun _ => same
  closing := by
    intro stop hstop p
    cases rule.closing with
    | none => rfl
    | some r => exact same.finds_regex r stop hstop p
  scanner := same.finds_scanner rule.scanner
  language := hlanguage

theorem SameText.rule_twin {rule : Rule} (hlanguage : ∀ name ∈ rule.languages, w.language name name)
    (hsound : rule.Sound) : rule.Twin w rule := by
  induction hsound with
  | @intro rule inner hits ih =>
    have hown : Option.Rel w.language rule.language rule.language := by
      cases hrule : rule.language with
      | none => exact .none
      | some name => exact .some (hlanguage name (Rule.mem_languages hrule))
    have halike : rule.Alike w rule := by
      cases rule
      exact same.rule_alike _ _ hown
    exact .of_inner halike fun r hmem =>
      ih r hmem fun name hname => hlanguage name (Rule.mem_languages_of_inner hmem hname)

theorem SameText.grammar_twin {g : Grammar}
    (hlanguage : ∀ name ∈ Rule.languagesOf g.rules, w.language name name) : g.Twin w g where
  rules := rel_getElem?_self fun r hmem => same.rule_twin
    (fun name hname => hlanguage name (Rule.mem_languagesOf.2 ⟨r, hmem, hname⟩))
    (g.rules_sound r hmem)
  scanner := same.finds_scanner g.scanner
  word := same.finds_word g.word
  keyword := fun a b hb => by rw [same.slice_eq a hb]
  key := fun a b hb => by rw [same.slice_eq a hb]

theorem SameText.size_le (hsize : w.size ≤ w.left.size) : w.size ≤ w.right.size := by
  refine Nat.le_of_not_lt fun hlt => ?_
  have hnone : w.right.chars[w.right.size]? = none := Array.getElem?_eq_none (Nat.le_refl _)
  have hchar := (same w.right.size hlt).trans hnone
  exact Nat.not_lt.2 (Array.getElem?_eq_none_iff.1 hchar) (Nat.lt_of_lt_of_le hlt hsize)

theorem SameText.byte_eq (hsize : w.size ≤ w.left.size) {p : Nat} (hp : p ≤ w.size) :
    w.left.byte p = w.right.byte p := by
  rw [w.left.byte_eq (Nat.le_trans hp hsize),
    w.right.byte_eq (Nat.le_trans hp (same.size_le hsize)), same.slice_eq 0 hp]

/-- Spans of what is the same make the same tokens. -/
theorem SameText.token_eq (hsize : w.size ≤ w.left.size) {span : Span} (hle : span.start ≤ span.stop)
    (hstop : span.stop ≤ w.size) : w.left.token span = w.right.token span := by
  unfold Source.token
  rw [same.slice_eq span.start hstop, same.byte_eq hsize (Nat.le_trans hle hstop),
    same.byte_eq hsize hstop]

end Pairing

/-- The region in a text that is the same up to its end. -/
theorem region_eq_of_sameText (ctx : Context) (source : Source)
    (same : ∀ i < ctx.stop, ctx.source.chars[i]? = source.chars[i]?) (start : Nat) :
    (region ctx start).spans = (region { ctx with source } start).spans ∧
      (region ctx start).outcome = (region { ctx with source } start).outcome := by
  have hsame : (Pairing.texts ctx.source source ctx.stop).SameText := same
  have hgrammar : ∀ g : Grammar, g.Twin (.texts ctx.source source ctx.stop) g :=
    fun g => hsame.grammar_twin fun _ _ => rfl
  refine region_eq_of_twin (w := .texts ctx.source source ctx.stop) ?_ start
  exact {
    left := rfl
    right := rfl
    grammar := hgrammar ctx.grammar
    language := by
      rintro name _ rfl
      change Option.Rel _ (ctx.language? name) (ctx.language? name)
      cases ctx.language? name with
      | none => exact .none
      | some g => exact .some (hgrammar g)
    cap := rfl
    stop := rfl
    stop_le := Nat.le_refl _
    base := rfl }

/-- What is highlighted from some position on is what the region from there on comes to. -/
theorem toHighlight_eq (ctx : Context) (start : Nat) :
    Highlighting.toHighlight ⟨ctx, State.start start⟩ =
      ⟨ctx.grammar.name, (region ctx start).spans.map ctx.source.token,
        (region ctx start).outcome⟩ := by
  rw [region_eq]
  rfl

/-- One text is highlighted to the same, but for the name of the language, where it is read alike. -/
theorem Context.Twin.exists_highlight {w : Pairing} {ctx ctx' : Context} (h : ctx.Twin w ctx')
    (hsource : ctx.source = ctx'.source) (start : Nat) : ∃ tokens outcome,
      Highlighting.toHighlight ⟨ctx, State.start start⟩ = ⟨ctx.grammar.name, tokens, outcome⟩ ∧
        Highlighting.toHighlight ⟨ctx', State.start start⟩ =
          ⟨ctx'.grammar.name, tokens, outcome⟩ := by
  obtain ⟨hspans, houtcome⟩ := region_eq_of_twin h start
  refine ⟨_, _, toHighlight_eq ctx start, ?_⟩
  rw [toHighlight_eq, hspans, houtcome, hsource]

end Scan

end Highlighter
