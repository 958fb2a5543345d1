import Highlighter.Proofs.Specs.Documents
import Highlighter.Proofs.Specs.Shapes
import Highlighter.Proofs.Specs.Valid

/-!
Grammars survive being written as JSON. What is read of the text is the grammar that was written, with
every field as it was, set or not, and with rules nested as deep as the reader goes.
-/

namespace Highlighter

namespace GrammarSpec

/-- A text in which the document of a grammar stands is read as the grammar. -/
theorem read_of_document {g : GrammarSpec} (sorted : g.Sorted) {text : String}
    (htext : Json.read text = ⟨Encode.grammar g, true⟩) : GrammarSpec.read .json text = .ok g := by
  have hgrammar := Decode.grammar_grammar (d := .json) g sorted.fragments sorted.keywords
  have hsource : Decode.source .json (Json.read text) = .ok g := by
    simp only [Decode.source, htext, hgrammar, bind, Except.bind, ↓reduceIte]
    rfl
  change (Decode.source .json (Json.read text)).mapError _ = _
  rw [hsource]
  rfl

/-- A grammar that is written as JSON is read back as it was, whatever is set in it, unless its
document is nested deeper than the reader goes; rules may be nested in one another up to 63 deep.
What is needed is that fragments and keywords are sorted. They are, one to a key, in every grammar
that is put together call by call or that was read. Where other texts have the same document, each
of them is read as the grammar. -/
theorem read_compact_grammar (g : GrammarSpec) :
    (g.Sorted → (Encode.grammar g).nesting ≤ Json.maxDepth →
      GrammarSpec.read .json (Json.compact (Encode.grammar g)) = .ok g) ∧
    (g.Sorted → ∀ text, Json.read text = ⟨Encode.grammar g, true⟩ →
      GrammarSpec.read .json text = .ok g) ∧
    (g.Built → g.Sorted) ∧
    (∀ d source, GrammarSpec.read d source = .ok g → g.Sorted) ∧
    ((∀ rule ∈ g.rules, rule.height ≤ 63) → (Encode.grammar g).nesting ≤ Json.maxDepth) := by
  refine ⟨fun sorted hnesting => ?_, fun sorted text htext => read_of_document sorted htext,
    Built.sorted, fun _ _ => sorted_of_read, fun h => ?_⟩
  · have hread := Json.read_compact (Encode.plain_grammar g) hnesting
    exact read_of_document sorted hread
  · -- A map and a list for each of 63 rules in one another, and a map around them all.
    exact Encode.nesting_grammar_le h

/-- A grammar with fragments of both forms and with rules in rules, which have between them every
field there is. -/
theorem read_compact_nested :
    let escape : RuleSpec := { opening := some "\\\\.", relevance := some 0 }
    let literal : RuleSpec :=
      { label := some .string, opening := some "'", closing := some "'", inner := [escape],
        caseless := some false, openingOutside := true }
    let call : RuleSpec :=
      { RuleSpec.ofOpening "(\x7b\x7bfns\x7d\x7d)\\(" with
        closing := some "\\)", inner := [literal, .ofReference "c_number"], closingOutside := true,
        language := some "args" }
    let g := ((((((ofName "tiny\n\"g\"").addAlias "t").setFragment "fns" (.words ["trim", "a.b"])
      ).setFragment "digits" (.pattern "\\d+")).setKeywords .builtIn (.text "NOW|2")
      ).setKeywords .keyword (.text "SELECT FROM")).addRule call
    g.Built ∧ g.fragments.map Prod.fst = ["digits", "fns"] ∧
      GrammarSpec.read .json (Json.compact (Encode.grammar g)) = .ok g := by
  intro escape literal call g
  have built : g.Built := ((((((Built.ofName _).addAlias _).setFragment _ _).setFragment _ _
    ).setKeywords _ _).setKeywords _ _).addRule _
  obtain ⟨hread, -, hsorted, -, hnesting⟩ := read_compact_grammar g
  exact ⟨built, by decide, hread (hsorted built) (hnesting (by decide))⟩

end GrammarSpec

end Highlighter
