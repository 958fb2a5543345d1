import Highlighter.Proofs.WellFormed.Rules

/-!
Compiling rules succeeds just where every rule that is come to is sound. What is compiled has the
front that the rule as written has, so that the scanner of a scope is built from the same patterns,
whether these are told by the compiled rules or by the rules as written.
-/

namespace Highlighter

/-- The pattern that ends a rule, if one does. -/
def Ending.source? : Ending → Option String
  | .pattern source => some source
  | .single | .asOpened => none

namespace Compile

variable {ctx : Context}

namespace Context

theorem expand_eq_ok_iff {pattern s : String} :
    ctx.expand pattern = .ok s ↔ ctx.Expands pattern s :=
  expand_eq_ok.trans Fragment.expand_eq_ok_iff

theorem Expands.unique {pattern s s' : String} (h : ctx.Expands pattern s)
    (h' : ctx.Expands pattern s') : s = s' :=
  Fragment.Expands.unique h h'

theorem exists_check_iff {s : String} {caseless : Bool} :
    (∃ r, ctx.check s caseless = .ok r) ↔ (Regex.ofRulePattern? s caseless).isSome = true := by
  unfold check
  cases Regex.ofRulePattern? s caseless <;> simp

theorem exists_scanner_iff {place : Place} {alternatives : List Alternative} :
    (∃ s, ctx.scanner place alternatives = .ok s) ↔
      (Scanner.build? alternatives).isSome = true := by
  unfold scanner
  cases Scanner.build? alternatives <;> simp

/-- A rule ends by itself, with the text it was opened with, or with a pattern. -/
theorem ending_eq_ok_iff {rule : RuleSpec} {place : Place} {ending : Ending} :
    ctx.ending rule place = .ok ending ↔
      (rule.closing = none ∧ rule.closesAsOpened = false ∧ ending = .single) ∨
      (rule.closing = none ∧ rule.closesAsOpened = true ∧ ending = .asOpened) ∨
      ∃ pattern s, rule.closing = some pattern ∧ rule.closesAsOpened = false ∧
        ctx.Expands pattern s ∧ ending = .pattern s := by
  unfold Context.ending
  cases rule.closing with
  | none => cases rule.closesAsOpened <;> simp [pure, Except.pure, eq_comm]
  | some pattern =>
    cases rule.closesAsOpened with
    | true => simp [malformed]
    | false =>
      simp only [← expand_eq_ok_iff]
      cases hexpand : ctx.expand pattern <;> simp [hexpand, Except.map, eq_comm]

theorem exists_closing_iff {caseless : Bool} {ending : Ending} :
    (∃ closing, ctx.closing caseless ending = .ok closing) ↔
      ∀ s, ending = .pattern s → (Regex.ofRulePattern? s caseless).isSome = true := by
  unfold Context.closing
  cases ending with
  | pattern s =>
    simp only [← @exists_check_iff ctx]
    cases hcheck : ctx.check s caseless <;> simp [hcheck, Except.map]
  | _ => simp [pure, Except.pure]

end Context

/-- The scanner of a scope is built from the fronts of the rules in it. -/
theorem exists_scopeScanner_iff {o : Outline} {place : Place} {inner : List Rule}
    (single : o.ending = .single → inner = []) :
    (∃ scanner, scopeScanner ctx o place inner = .ok scanner) ↔
      (Scanner.build? (openings inner ++
        o.ending.source?.toList.map (⟨·, o.caseless, .closing⟩))).isSome = true := by
  unfold scopeScanner Ending.source?
  cases hending : o.ending with
  | single =>
    rw [single hending]
    exact ⟨fun _ => rfl, fun _ => ⟨.none, rfl⟩⟩
  | pattern source => exact Context.exists_scanner_iff
  | asOpened =>
    simp only [Option.toList_none, List.map_nil, List.append_nil]
    exact Context.exists_scanner_iff

theorem openings_eq (rules : List Rule) :
    openings rules = (rules.map Rule.front).mapIdx
      fun i front => ⟨front.opening, front.caseless, .rule i⟩ := by
  refine List.ext_getElem? fun i => ?_
  simp [openings, Rule.front, Function.comp_def]

theorem compileRule_eq_ok_iff {references : Nat} {spec : RuleSpec} {place : Place}
    {inherited : Bool} {rule : Rule} :
    compileRule ctx references spec place inherited = .ok rule ↔
      (∃ name fewer target, spec = .ofReference name ∧ references = fewer + 1 ∧
        ctx.library.rule? name = some target ∧
        compileRule ctx fewer target place inherited = .ok rule) ∨
      spec.reference = none ∧ ∃ o inner scanner, outline ctx spec place inherited = .ok o ∧
        compileRules ctx references spec.inner place 0 o.caseless = .ok inner ∧
        scopeScanner ctx o place inner = .ok scanner ∧ o.rule spec inner scanner = rule := by
  constructor
  · intro h
    cases hreference : spec.reference with
    | none => exact .inr ⟨rfl, (compileRule_own_eq_ok_iff hreference).1 h⟩
    | some name =>
      obtain ⟨hbare, fewer, target, hfewer, hfound, htarget⟩ :=
        (compileRule_reference_eq_ok_iff hreference).1 h
      have hspec := (RuleSpec.isBareReference_iff hreference).1 hbare
      exact .inl ⟨name, fewer, target, hspec, hfewer, hfound, htarget⟩
  · rintro (⟨name, fewer, target, rfl, hfewer, hfound, htarget⟩ | ⟨own, h⟩)
    · exact (compileRule_reference_eq_ok_iff rfl).2 ⟨rfl, fewer, target, hfewer, hfound, htarget⟩
    · exact (compileRule_own_eq_ok_iff own).2 h

/-- Where rules are compiled, each of them is. -/
theorem exists_compileRule_of_mem {references index : Nat} {specs : List RuleSpec} {place : Place}
    {inherited : Bool} {rules : List Rule}
    (h : compileRules ctx references specs place index inherited = .ok rules) {spec : RuleSpec}
    (hmem : spec ∈ specs) :
    ∃ place rule, compileRule ctx references spec place inherited = .ok rule := by
  induction specs generalizing index rules with
  | nil => cases hmem
  | cons first specs ih =>
    obtain ⟨rule, rest, hfirst, hrest, -⟩ := compileRules_cons_eq_ok_iff.1 h
    rcases List.mem_cons.1 hmem with rfl | hmem
    · exact ⟨_, rule, hfirst⟩
    · exact ih hrest hmem

section Fronts

/-- A rule has one front. -/
theorem Context.HasFront.unique {inherited : Bool} {rule : RuleSpec} {front front' : Front}
    (h : ctx.HasFront inherited rule front) (h' : ctx.HasFront inherited rule front') :
    front = front' := by
  induction h with
  | own own opening expands =>
    cases h' with
    | own own' opening' expands' =>
      cases opening.symm.trans opening'
      rw [expands.unique expands']
    | reference named' found' fronts' => exact nomatch own.symm.trans named'
  | reference named found fronts ih =>
    cases h' with
    | own own' opening' expands' => exact nomatch own'.symm.trans named
    | reference named' found' fronts' =>
      cases named.symm.trans named'
      cases found.symm.trans found'
      exact ih fronts'

theorem hasFront_of_outline {rule : RuleSpec} {place : Place} {inherited : Bool} {o : Outline}
    (own : rule.reference = none) (ho : outline ctx rule place inherited = .ok o) :
    ctx.HasFront inherited rule ⟨o.opening, o.caseless⟩ := by
  obtain ⟨⟨pattern, hopening, hexpand⟩, -, -, -, hcaseless, -, -⟩ := outline_eq_ok.1 ho
  rw [hcaseless]
  exact .own own hopening (Context.expand_eq_ok_iff.1 hexpand)

/-- What is compiled has the front of the rule as written. -/
theorem hasFront_of_compileRule {references : Nat} {spec : RuleSpec} {place : Place}
    {inherited : Bool} {rule : Rule}
    (h : compileRule ctx references spec place inherited = .ok rule) :
    ctx.HasFront inherited spec rule.front := by
  induction references generalizing spec with
  | zero =>
    rcases compileRule_eq_ok_iff.1 h with ⟨_, _, _, _, hlt, -⟩ | ⟨own, o, _, _, ho, -, -, rfl⟩
    · cases hlt
    · exact hasFront_of_outline own ho
  | succ references ih =>
    rcases compileRule_eq_ok_iff.1 h with
      ⟨name, fewer, target, rfl, hfewer, hfound, htarget⟩ | ⟨own, o, _, _, ho, -, -, rfl⟩
    · cases hfewer
      exact .reference rfl hfound (ih htarget)
    · exact hasFront_of_outline own ho

theorem hasFront_of_compileRules {references index : Nat} {specs : List RuleSpec} {place : Place}
    {inherited : Bool} {rules : List Rule}
    (h : compileRules ctx references specs place index inherited = .ok rules) :
    List.Forall₂ (ctx.HasFront inherited) specs (rules.map Rule.front) := by
  induction specs generalizing index rules with
  | nil =>
    cases (compileRules_nil ctx references index place inherited).symm.trans h
    exact .nil
  | cons spec specs ih =>
    obtain ⟨first, rest, hfirst, hrest, rfl⟩ := compileRules_cons_eq_ok_iff.1 h
    exact .cons (hasFront_of_compileRule hfirst) (ih hrest)

/-- Whether patterns can be read together is known from the compiled rules. -/
theorem scannable_iff {references index : Nat} {specs : List RuleSpec} {place : Place}
    {inherited : Bool} {rules : List Rule}
    (h : compileRules ctx references specs place index inherited = .ok rules)
    {other : Option String} {hit : Hit} {text : Option String}
    (expands : Option.Rel ctx.Expands other text) :
    ctx.Scannable inherited specs other hit ↔ (Scanner.build? (openings rules ++
      text.toList.map (⟨·, inherited, hit⟩))).isSome = true := by
  have hfronts := hasFront_of_compileRules h
  rw [openings_eq]
  constructor
  · rintro ⟨fronts, text', hfronts', expands', hbuild⟩
    have hsame : fronts = rules.map Rule.front :=
      Relator.RightUnique.forall₂ (fun _ _ _ hfront hfront' => hfront.unique hfront') hfronts' hfronts
    have htext : text' = text := by
      cases expands with
      | none =>
        cases expands'
        rfl
      | some hexpands =>
        cases expands' with
        | some hexpands' => rw [hexpands.unique hexpands']
    rwa [← hsame, ← htext]
  · exact fun hbuild => ⟨_, text, hfronts, expands, hbuild⟩

end Fronts

section Inline

variable {spec : RuleSpec} {place : Place} {inherited : Bool} {o : Outline} {references : Nat}
  {inner : List Rule}

theorem rel_of_ending {ending : Ending} (h : ctx.ending spec place = .ok ending) :
    Option.Rel ctx.Expands spec.closing ending.source? := by
  rcases Context.ending_eq_ok_iff.1 h with
    ⟨hclosing, -, rfl⟩ | ⟨hclosing, -, rfl⟩ | ⟨pattern, s, hclosing, -, hexpands, rfl⟩
  · rw [hclosing]
    exact .none
  · rw [hclosing]
    exact .none
  · rw [hclosing]
    exact .some hexpands

theorem inline_of_outline (ho : o.Of ctx spec place inherited)
    (hinner : compileRules ctx references spec.inner place 0 o.caseless = .ok inner)
    (hscanner : ∃ scanner, scopeScanner ctx o place inner = .ok scanner) :
    ctx.Inline inherited spec := by
  obtain ⟨⟨pattern, hopening, hexpand⟩, hempty, hending, hsingle, hcaseless, hcheck, hclosing⟩ := ho
  have hmode : o.caseless = spec.mode inherited := hcaseless
  have hnone : o.ending = .single → inner = [] := by
    intro h
    rw [(hsingle h).1, compileRules_nil] at hinner
    exact (Except.ok.inj hinner).symm
  rw [exists_scopeScanner_iff hnone] at hscanner
  rw [hmode] at hinner hscanner hcheck hclosing
  have hends := Context.ending_eq_ok_iff.1 hending
  refine
    { opening := ⟨pattern, o.opening, hopening, Context.expand_eq_ok_iff.1 hexpand,
        by simpa using hempty, Context.exists_check_iff.1 hcheck⟩
      once := fun hsome => ?_
      closed := fun hneeds => ?_
      closing := fun pattern hpattern => ?_
      scanner := (scannable_iff hinner (rel_of_ending hending)).2 hscanner }
  · rcases hends with ⟨hclosing, -⟩ | ⟨hclosing, -⟩ | ⟨_, _, -, hopened, -⟩
    · rw [hclosing] at hsome
      cases hsome
    · rw [hclosing] at hsome
      cases hsome
    · exact hopened
  · rcases hends with ⟨-, -, hend⟩ | ⟨-, hopened, -⟩ | ⟨_, _, hclosing, -⟩
    · simp [hsingle hend] at hneeds
    · exact .inr hopened
    · exact .inl (by simp [hclosing])
  · rcases hends with ⟨hnone, -⟩ | ⟨hnone, -⟩ | ⟨_, s, hsome, -, hexpands, hend⟩
    · cases hnone.symm.trans hpattern
    · cases hnone.symm.trans hpattern
    · cases hsome.symm.trans hpattern
      exact ⟨s, hexpands, Context.exists_closing_iff.1 ⟨_, hclosing⟩ s hend⟩

theorem exists_ending_of_inline (h : ctx.Inline inherited spec) (place : Place) :
    ∃ ending, ctx.ending spec place = .ok ending ∧
      (ending = .single → spec.inner = [] ∧ spec.language = none) ∧
      ∃ closing, ctx.closing (spec.mode inherited) ending = .ok closing := by
  simp only [Context.ending_eq_ok_iff]
  cases hclosing : spec.closing with
  | none =>
    cases hopened : spec.closesAsOpened with
    | true => exact ⟨.asOpened, .inr (.inl ⟨rfl, rfl, rfl⟩), nofun, none, rfl⟩
    | false =>
      have hneeds : ¬ (spec.inner ≠ [] ∨ spec.language.isSome = true) := fun hneeds => by
        simpa [hclosing, hopened] using h.closed hneeds
      refine ⟨.single, .inl ⟨rfl, rfl, rfl⟩, fun _ => ?_, none, rfl⟩
      simpa using hneeds
  | some pattern =>
    have hopened := h.once (by simp [hclosing])
    obtain ⟨s, hexpands, hread⟩ := h.closing pattern hclosing
    refine ⟨.pattern s, .inr (.inr ⟨pattern, s, rfl, hopened, hexpands, rfl⟩), nofun, ?_⟩
    refine Context.exists_closing_iff.2 fun s' hs' => ?_
    cases hs'
    exact hread

theorem exists_outline_of_inline (h : ctx.Inline inherited spec) (place : Place) :
    ∃ o, outline ctx spec place inherited = .ok o := by
  obtain ⟨pattern, s, hopening, hexpands, hne, hread⟩ := h.opening
  obtain ⟨ending, hending, hsingle, closing, hclosing⟩ := exists_ending_of_inline h place
  exact ⟨⟨s, ending, spec.mode inherited, closing⟩, outline_eq_ok.2
    { opening := ⟨pattern, hopening, Context.expand_eq_ok_iff.2 hexpands⟩
      nonempty := by simpa using hne
      ending := hending
      single := hsingle
      caseless := rfl
      check := Context.exists_check_iff.2 hread
      closing := hclosing }⟩

theorem exists_scopeScanner_of_inline (h : ctx.Inline inherited spec)
    (ho : o.Of ctx spec place inherited)
    (hinner : compileRules ctx references spec.inner place 0 o.caseless = .ok inner) :
    ∃ scanner, scopeScanner ctx o place inner = .ok scanner := by
  have hmode : o.caseless = spec.mode inherited := ho.caseless
  have hnone : o.ending = .single → inner = [] := by
    intro hsingle
    rw [(ho.single hsingle).1, compileRules_nil] at hinner
    exact (Except.ok.inj hinner).symm
  rw [exists_scopeScanner_iff hnone]
  rw [hmode] at hinner ⊢
  exact (scannable_iff hinner (rel_of_ending ho.ending)).1 h.scanner

end Inline

section Visits

variable {references left : Nat} {spec : RuleSpec} {place : Place} {inherited : Bool}

/-- What is compiled where so many references are left is sound where the others have been
followed. -/
theorem sound_of_compileRule {rule : Rule} (hleft : references + left = 8)
    (h : compileRule ctx left spec place inherited = .ok rule) : ctx.Sound references inherited spec := by
  rcases compileRule_eq_ok_iff.1 h with
    ⟨name, fewer, target, hspec, rfl, hfound, -⟩ | ⟨own, o, inner, scanner, ho, hinner, hscanner, -⟩
  · exact .reference hspec (by omega) (by simp [hfound])
  · exact .inline own (inline_of_outline (outline_eq_ok.1 ho) hinner ⟨scanner, hscanner⟩)

/-- Where the rules of a grammar are compiled, every rule that is come to is. -/
theorem Context.Visits.exists_compileRule {rules : List Rule}
    (hrules : compileRules ctx maxReferences ctx.spec.rules .root 0 ctx.spec.caseless = .ok rules)
    (h : ctx.Visits references inherited spec) : ∃ left place rule, references + left = 8 ∧
      compileRule ctx left spec place inherited = .ok rule := by
  induction h with
  | root mem =>
    obtain ⟨place, rule, hrule⟩ := exists_compileRule_of_mem hrules mem
    exact ⟨8, place, rule, rfl, hrule⟩
  | reference outer named found ih =>
    obtain ⟨left, place, rule, hleft, hrule⟩ := ih
    rcases compileRule_eq_ok_iff.1 hrule with ⟨name, fewer, target, rfl, rfl, hfound, htarget⟩ | ⟨own, -⟩
    · cases named
      cases found.symm.trans hfound
      exact ⟨fewer, place, rule, by omega, htarget⟩
    · exact nomatch own.symm.trans named
  | @inner references inherited outer child visits own mem ih =>
    obtain ⟨left, place, rule, hleft, hrule⟩ := ih
    rcases compileRule_eq_ok_iff.1 hrule with
      ⟨_, _, _, rfl, -⟩ | ⟨-, o, inner, _, ho, hinner, -, -⟩
    · cases own
    · have hmode : o.caseless = outer.mode inherited := (outline_eq_ok.1 ho).caseless
      obtain ⟨place', rule', hrule'⟩ := exists_compileRule_of_mem hinner mem
      exact ⟨left, place', rule', hleft, hmode ▸ hrule'⟩

/-- Where every rule that is come to is sound, the rules are compiled. The induction is on what is
left to be compiled, and the invariant that it is come to. -/
theorem exists_compile_of_sound (sound : ∀ references inherited spec,
    ctx.Visits references inherited spec → ctx.Sound references inherited spec) :
    (∀ left spec place inherited, ∀ references, references + left = 8 →
      ctx.Visits references inherited spec →
        ∃ rule, compileRule ctx left spec place inherited = .ok rule) ∧
    ∀ left specs place index inherited, ∀ references, references + left = 8 →
      (∀ spec ∈ specs, ctx.Visits references inherited spec) →
        ∃ rules, compileRules ctx left specs place index inherited = .ok rules := by
  apply compileRule.mutual_induct ctx
    (fun left spec place inherited => ∀ references, references + left = 8 →
      ctx.Visits references inherited spec →
        ∃ rule, compileRule ctx left spec place inherited = .ok rule)
    (fun left specs place index inherited => ∀ references, references + left = 8 →
      (∀ spec ∈ specs, ctx.Visits references inherited spec) →
        ∃ rules, compileRules ctx left specs place index inherited = .ok rules)
  case case1 =>
    intro left spec place inherited name named mixed references hleft visits
    obtain ⟨bare, -, -⟩ := (sound references inherited spec visits).of_reference named
    simp [(RuleSpec.isBareReference_iff named).2 bare] at mixed
  case case2 =>
    intro spec place inherited name named _ references hleft visits
    obtain ⟨-, room, -⟩ := (sound references inherited spec visits).of_reference named
    omega
  case case3 =>
    intro spec place inherited name named _ left missing references hleft visits
    obtain ⟨-, -, found⟩ := (sound references inherited spec visits).of_reference named
    simp [missing] at found
  case case4 =>
    intro spec place inherited name named hbare left target found ih references hleft visits
    obtain ⟨rule, hrule⟩ := ih (references + 1) (by omega) (visits.reference named found)
    exact ⟨rule, (compileRule_reference_eq_ok_iff named).2
      ⟨by simpa using hbare, left, target, rfl, found, hrule⟩⟩
  case case5 =>
    intro left spec place inherited own ih references hleft visits
    have inline := (sound references inherited spec visits).of_own own
    obtain ⟨o, ho⟩ := exists_outline_of_inline inline place
    have hof := outline_eq_ok.1 ho
    have hmode : o.caseless = spec.mode inherited := hof.caseless
    obtain ⟨inner, hinner⟩ := ih o references hleft fun child mem => hmode ▸ visits.inner own mem
    obtain ⟨scanner, hscanner⟩ := exists_scopeScanner_of_inline inline hof hinner
    exact ⟨_, compileRule_eq own ho hinner hscanner⟩
  case case6 =>
    intro left place index inherited references _ _
    exact ⟨[], compileRules_nil ctx left index place inherited⟩
  case case7 =>
    intro left place index inherited spec specs ihFirst ihRest references hleft visits
    obtain ⟨hspec, hspecs⟩ := List.forall_mem_cons.1 visits
    obtain ⟨first, hfirst⟩ := ihFirst references hleft hspec
    obtain ⟨rest, hrest⟩ := ihRest references hleft hspecs
    exact ⟨first :: rest, compileRules_eq hfirst hrest⟩

/-- The rules of a grammar are compiled just if every rule that is come to is sound. -/
theorem exists_compileRules_iff :
    (∃ rules, compileRules ctx maxReferences ctx.spec.rules .root 0 ctx.spec.caseless = .ok rules) ↔
      ∀ references inherited spec, ctx.Visits references inherited spec →
        ctx.Sound references inherited spec := by
  constructor
  · rintro ⟨rules, hrules⟩ references inherited spec visits
    obtain ⟨left, place, rule, hleft, hrule⟩ := visits.exists_compileRule hrules
    exact sound_of_compileRule hleft hrule
  · exact fun sound => (exists_compile_of_sound sound).2 _ _ _ _ _ 0 rfl fun spec mem => .root mem

end Visits

end Compile

end Highlighter
