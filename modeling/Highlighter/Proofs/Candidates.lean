import Highlighter.Proofs.Compiled
import Highlighter.Proofs.Reached
import Highlighter.Proofs.Reading.Joined
import Highlighter.Proofs.Search.Branches

/-!
What comes next in a scope, told candidate by candidate. A scope has one scanner, whose patterns are
joined into one; what it finds is what a search for each pattern alone would find, and of all the
matches the leftmost, the candidate declared first where several start at one place. The text that
a scope was opened with is one more candidate.
-/

namespace Highlighter

namespace Haystack

/-- Nothing is found if it is found nowhere. -/
theorem first?_eq_none {α : Type} {h : Haystack} {found? : Nat → Option α} {p : Nat} :
    h.first? found? p = none ↔ ∀ q, p ≤ q → q ≤ h.stop → found? q = none := by
  fun_induction h.first? found? p with
  | case1 p hp a ha => simpa using ⟨p, Nat.le_refl p, hp, by simp [ha]⟩
  | case2 p hp hn ih =>
    rw [ih]
    constructor
    · intro hall q hpq hq
      rcases Nat.eq_or_lt_of_le hpq with rfl | hlt
      · exact hn
      · exact hall q hlt hq
    · exact fun hall q hpq hq => hall q (by omega) hq
  | case3 p hp => simpa using fun q hpq hq => absurd (Nat.le_trans hpq hq) hp

/-- The first place is where something is found and nothing before. -/
theorem first?_eq_some_iff {α : Type} {h : Haystack} {found? : Nat → Option α} {p q : Nat} {a : α} :
    h.first? found? p = some (q, a) ↔
      p ≤ q ∧ q ≤ h.stop ∧ found? q = some a ∧ ∀ r, p ≤ r → r < q → found? r = none := by
  refine ⟨first?_eq_some, ?_⟩
  rintro ⟨hpq, hq, hfound, hbefore⟩
  cases hf : h.first? found? p with
  | none => simp [first?_eq_none.1 hf q hpq hq] at hfound
  | some found =>
    obtain ⟨r, b⟩ := found
    obtain ⟨hpr, hr, hfound', hbefore'⟩ := first?_eq_some hf
    rcases Nat.lt_trichotomy q r with hlt | rfl | hlt
    · simp [hbefore' q hpq hlt] at hfound
    · rw [hfound] at hfound'
      cases hfound'
      rfl
    · simp [hbefore r hpr hlt] at hfound'

theorem first?_map {α β : Type} (h : Haystack) (found? : Nat → Option α) (f : α → β) (p : Nat) :
    h.first? (fun q => (found? q).map f) p =
      (h.first? found? p).map fun (q, a) => (q, f a) := by
  fun_induction h.first? found? p with
  | case1 p hp a ha => rw [first?]; simp [hp, ha]
  | case2 p hp hn ih => rw [first?]; simp [hp, hn, ih]
  | case3 p hp => rw [first?]; simp [hp]

end Haystack

/-- What is looked for in a scope: a pattern, or the text that the scope was opened with. -/
inductive Candidate
  | pattern (a : Alternative)
  | literal (text : List Char)

namespace Candidate

/-- What a match of a candidate stands for. -/
def hit : Candidate → Hit
  | pattern a => a.hit
  | literal _ => .closing

/-- The leftmost match of a candidate, searched alone: of a pattern as it is read by itself in its
own case mode, of a text where it first stands. -/
def match? (h : Haystack) (p : Nat) : Candidate → Option (Nat × Nat)
  | pattern a => (Regex.ofRulePattern? a.pattern a.caseless).bind (·.find? h p)
  | literal text => h.first? (h.spelled? · text) p

/-- A candidate matches, further to the left than any candidate in front of it and no further to the
right than any behind it. -/
def ComesFirst (h : Haystack) (p : Nat) (candidates : List Candidate) (hit : Hit)
    (start stop : Nat) : Prop :=
  ∃ before c after, candidates = before ++ c :: after ∧ c.hit = hit ∧
    c.match? h p = some (start, stop) ∧
    (∀ b ∈ before, ∀ first last, b.match? h p = some (first, last) → start < first) ∧
    ∀ b ∈ after, ∀ first last, b.match? h p = some (first, last) → start ≤ first

/-- What a search for some candidates comes to: to nothing if none of them matches, and otherwise to
the candidate that comes first. -/
structure Earliest (h : Haystack) (p : Nat) (candidates : List Candidate)
    (found : Option (Hit × Nat × Nat)) : Prop where
  none_iff : found = none ↔ ∀ c ∈ candidates, c.match? h p = none
  comesFirst : ∀ hit start stop, found = some (hit, start, stop) →
    ComesFirst h p candidates hit start stop

end Candidate

namespace Scanner

variable {alternatives : List Alternative} {s : Scanner}

/-- The first of some alternatives that matches at a place, by itself. -/
def foundAt? (alternatives : List Alternative) (h : Haystack) (p : Nat) : Option (Hit × Nat) :=
  alternatives.findSome? fun a => (a.regex.endAt? h p).map (a.hit, ·)

theorem hitAt?_of_build? (hs : build? alternatives = some s)
    (whole : ∀ a ∈ alternatives, a.IsWhole) (h : Haystack) (p : Nat) :
    s.hitAt? h p = (foundAt? alternatives h p).map fun (hit, stop) => (some hit, stop) := by
  have hshift : ∀ first, (alternatives.mapIdx fun i a => (some a.hit, a.branch (i + first))).findSome?
      (fun branch => (branch.2.endAt? h p).map (branch.1, ·)) =
        (foundAt? alternatives h p).map fun (hit, stop) => (some hit, stop) := by
    clear hs whole
    induction alternatives with
    | nil => simp [foundAt?]
    | cons a rest ih =>
      intro first
      have hrest := ih (first + 1)
      simp only [← Nat.add_assoc, foundAt?] at hrest
      rw [List.mapIdx_cons, List.findSome?_cons, foundAt?, List.findSome?_cons]
      simp only [Alternative.branch, Regex.endAt?_group] at hrest ⊢
      cases a.regex.endAt? h p with
      | none => simpa only [Option.map_none, Nat.add_right_comm] using hrest
      | some stop => rfl
  exact (congrArg _ (branches_of_build? hs whole)).trans (hshift 0)

theorem find?_eq_first? (hs : build? alternatives = some s)
    (whole : ∀ a ∈ alternatives, a.IsWhole) (h : Haystack) (p : Nat) :
    s.find? h p = (h.first? (foundAt? alternatives h) p).map fun (start, hit, stop) =>
      (hit, start, stop) := by
  rw [find?, funext (hitAt?_of_build? hs whole h), Haystack.first?_map]
  cases h.first? (foundAt? alternatives h) p <;> rfl

/-- A scanner finds what the joined pattern matches. -/
theorem find?_of_build? (hs : build? alternatives = some s) (hne : alternatives ≠ [])
    (whole : ∀ a ∈ alternatives, a.IsWhole) :
    ∃ r, Regex.ofPattern? (pattern alternatives) = some r ∧
      ∀ h p, (s.find? h p).map Prod.snd = r.find? h p := by
  have hbuild := hs
  unfold build? at hbuild
  rw [if_neg (by simpa using hne)] at hbuild
  obtain ⟨r, hr, hbranches⟩ := Option.map_eq_some_iff.1 hbuild
  refine ⟨r, hr, fun h p => ?_⟩
  have hends : ∀ q, r.endAt? h q = (foundAt? alternatives h q).map Prod.snd := by
    intro q
    calc
      r.endAt? h q = r.branches.findSome? (·.endAt? h q) := Regex.endAt?_eq_findSome? r h q
      _ = (s.hitAt? h q).map Prod.snd := by
        rw [← hbranches, hitAt?, List.findSome?_map, List.map_findSome?]
        congr 1
        funext branch
        simp [Function.comp_def]
      _ = (foundAt? alternatives h q).map Prod.snd := by
        rw [hitAt?_of_build? hs whole, Option.map_map]
        rfl
  rw [find?_eq_first? hs whole, Regex.find?, funext hends, Haystack.first?_map, Option.map_map]
  rfl

theorem match?_of_readsWhole {a : Alternative} (reads : a.ReadsWhole) (h : Haystack) (p : Nat) :
    (Candidate.pattern a).match? h p = a.regex.find? h p := by
  rw [Candidate.match?, Alternative.regex_eq reads.inGroup]
  rfl

theorem find?_eq_none_iff (hs : build? alternatives = some s)
    (reads : ∀ a ∈ alternatives, a.ReadsWhole) {h : Haystack} {p : Nat} :
    s.find? h p = Option.none ↔
      ∀ a ∈ alternatives, (Candidate.pattern a).match? h p = Option.none := by
  rw [find?_eq_first? hs fun a ha => (reads a ha).whole, Option.map_eq_none_iff, Haystack.first?_eq_none]
  constructor
  · intro hnone a ha
    rw [match?_of_readsWhole (reads a ha), Regex.find?, Haystack.first?_eq_none]
    intro q hpq hq
    simpa using List.findSome?_eq_none_iff.1 (hnone q hpq hq) a ha
  · intro hnone q hpq hq
    rw [foundAt?, List.findSome?_eq_none_iff]
    intro a ha
    have hfind := hnone a ha
    rw [match?_of_readsWhole (reads a ha), Regex.find?, Haystack.first?_eq_none] at hfind
    simp [hfind q hpq hq]

theorem comesFirst_of_find? (hs : build? alternatives = some s)
    (reads : ∀ a ∈ alternatives, a.ReadsWhole) {h : Haystack} {p start stop : Nat} {hit : Hit}
    (hf : s.find? h p = some (hit, start, stop)) :
    Candidate.ComesFirst h p (alternatives.map .pattern) hit start stop := by
  rw [find?_eq_first? hs fun a ha => (reads a ha).whole] at hf
  obtain ⟨⟨start, hit, stop⟩, hfirst, heq⟩ := Option.map_eq_some_iff.1 hf
  cases heq
  obtain ⟨hp, hstop, hat, hbefore⟩ := Haystack.first?_eq_some hfirst
  obtain ⟨before, a, after, rfl, ha, hmissed⟩ := List.findSome?_eq_some_iff.1 hat
  -- No alternative matches in front of the start, and none in front of this one matches at it.
  have hle : ∀ b ∈ before ++ a :: after, ∀ first last,
      (Candidate.pattern b).match? h p = some (first, last) → start ≤ first := by
    intro b hb first last hmatch
    rw [match?_of_readsWhole (reads b hb)] at hmatch
    obtain ⟨hpf, -, hend, -⟩ := Haystack.first?_eq_some hmatch
    refine Nat.le_of_not_lt fun hlt => ?_
    have hnone := List.findSome?_eq_none_iff.1 (hbefore first hpf hlt) b hb
    simp [hend] at hnone
  obtain ⟨e, hend, heq⟩ := Option.map_eq_some_iff.1 ha
  cases heq
  refine ⟨before.map .pattern, .pattern a, after.map .pattern, by simp, rfl, ?_, ?_, ?_⟩
  · rw [match?_of_readsWhole (reads a (by simp))]
    refine Haystack.first?_eq_some_iff.2 ⟨hp, hstop, hend, fun q hpq hq => ?_⟩
    simpa using List.findSome?_eq_none_iff.1 (hbefore q hpq hq) a (by simp)
  · intro c hc first last hmatch
    obtain ⟨b, hb, rfl⟩ := List.mem_map.1 hc
    have hmem : b ∈ before ++ a :: after := List.mem_append_left _ hb
    refine Nat.lt_of_le_of_ne (hle b hmem first last hmatch) ?_
    rintro rfl
    rw [match?_of_readsWhole (reads b hmem)] at hmatch
    obtain ⟨-, -, hend', -⟩ := Haystack.first?_eq_some hmatch
    simpa [hend'] using hmissed b hb
  · intro c hc first last hmatch
    obtain ⟨b, hb, rfl⟩ := List.mem_map.1 hc
    exact hle b (List.mem_append_right _ (List.mem_cons_of_mem _ hb)) first last hmatch

/-- A scanner finds what a search for each of its alternatives alone would find. -/
theorem earliest_of_build? (hs : build? alternatives = some s)
    (reads : ∀ a ∈ alternatives, a.ReadsWhole) (h : Haystack) (p : Nat) :
    Candidate.Earliest h p (alternatives.map .pattern) (s.find? h p) where
  none_iff := by simpa using find?_eq_none_iff hs reads
  comesFirst := fun _ _ _ hf => comesFirst_of_find? hs reads hf

end Scanner

namespace Candidate

theorem ComesFirst.append {h : Haystack} {p : Nat} {candidates : List Candidate} {c : Candidate}
    {hit : Hit} {start stop : Nat} (first : ComesFirst h p candidates hit start stop)
    (behind : ∀ a b, c.match? h p = some (a, b) → start ≤ a) :
    ComesFirst h p (candidates ++ [c]) hit start stop := by
  obtain ⟨before, found, after, rfl, hhit, hmatch, hbefore, hafter⟩ := first
  refine ⟨before, found, after ++ [c], by simp, hhit, hmatch, hbefore, fun b hb => ?_⟩
  rcases List.mem_append.1 hb with hb | hb
  · exact hafter b hb
  · cases List.mem_singleton.1 hb
    exact behind

/-- What comes first starts no later than any candidate. -/
theorem ComesFirst.le {h : Haystack} {p : Nat} {candidates : List Candidate} {hit : Hit}
    {start stop : Nat} (first : ComesFirst h p candidates hit start stop) {c : Candidate}
    (hc : c ∈ candidates) {a b : Nat} (hmatch : c.match? h p = some (a, b)) : start ≤ a := by
  obtain ⟨before, found, after, rfl, -, hfound, hbefore, hafter⟩ := first
  rcases List.mem_append.1 hc with hc | hc
  · exact Nat.le_of_lt (hbefore c hc a b hmatch)
  · rcases List.mem_cons.1 hc with rfl | hc
    · rw [hfound] at hmatch
      cases hmatch
      exact Nat.le_refl _
    · exact hafter c hc a b hmatch

/-- What has been found, unless a match for something else starts in front of it. -/
def unlessBefore (hit : Hit) :
    Option (Nat × Nat) → Option (Hit × Nat × Nat) → Option (Hit × Nat × Nat)
  | some (start, stop), some (found, first, last) =>
    if first ≤ start then some (found, first, last) else some (hit, start, stop)
  | some (start, stop), none => some (hit, start, stop)
  | none, found => found

/-- One more candidate behind the others counts if it matches in front of what they come to. -/
theorem Earliest.append {h : Haystack} {p : Nat} {candidates : List Candidate}
    {found : Option (Hit × Nat × Nat)} (e : Earliest h p candidates found) (c : Candidate) :
    Earliest h p (candidates ++ [c]) (unlessBefore c.hit (c.match? h p) found) := by
  cases hc : c.match? h p with
  | none =>
    refine ⟨?_, fun hit start stop hf => (e.comesFirst hit start stop hf).append (by simp [hc])⟩
    simp only [unlessBefore, e.none_iff, List.forall_mem_append, List.forall_mem_singleton, hc, and_true]
  | some range =>
    obtain ⟨start, stop⟩ := range
    have hsome : ¬∀ b ∈ candidates ++ [c], b.match? h p = none := fun hall => by
      simp [hall c (by simp)] at hc
    cases found with
    | none =>
      refine ⟨iff_of_false (by simp [unlessBefore]) hsome, ?_⟩
      rintro _ _ _ ⟨⟩
      refine ⟨candidates, c, [], rfl, rfl, hc, fun b hb first last hm => ?_, by simp⟩
      simp [e.none_iff.1 rfl b hb] at hm
    | some hit =>
      obtain ⟨hit, first, last⟩ := hit
      have hfirst := e.comesFirst hit first last rfl
      by_cases hle : first ≤ start
      · refine ⟨iff_of_false (by simp [unlessBefore, hle]) hsome, ?_⟩
        simp only [unlessBefore, hle, ↓reduceIte]
        rintro _ _ _ ⟨⟩
        refine hfirst.append fun a b hm => ?_
        rw [hc] at hm
        cases hm
        exact hle
      · refine ⟨iff_of_false (by simp [unlessBefore, hle]) hsome, ?_⟩
        simp only [unlessBefore, hle, ↓reduceIte]
        rintro _ _ _ ⟨⟩
        refine ⟨candidates, c, [], rfl, rfl, hc, fun b hb a b' hm => ?_, by simp⟩
        have := hfirst.le hb hm
        omega

end Candidate

/-- A rule whose patterns are valid by themselves, not only inside a group. -/
structure Rule.StandsAlone (rule : Rule) : Prop where
  opening : (Regex.ofPattern? rule.opening).isSome
  closers : ∀ a ∈ rule.closers, (Regex.ofPattern? a.pattern).isSome

/-- The patterns that are looked for in the scope of a rule are patterns by themselves if those of all
rules are. -/
theorem Rule.standsAlone_alternatives {rules : List Rule} {rule : Rule}
    (checked : ∀ r, Among rules r → r.Checked) (alone : ∀ r, Among rules r → r.StandsAlone)
    (hrule : Among rules rule) : ∀ a ∈ rule.alternatives, a.StandsAlone := by
  intro a ha
  rcases List.mem_append.1 ha with ha | ha
  · obtain ⟨i, hi, rfl⟩ := List.mem_mapIdx.1 ha
    have hchild := hrule.inner (List.getElem_mem hi)
    exact ⟨(alone _ hchild).opening, (checked _ hchild).opening⟩
  · exact ⟨(alone _ hrule).closers a ha, (checked _ hrule).closers a ha⟩

/-- The rules in a rule stand alone if it does and those in the rules inside it do. -/
theorem Rule.standsAlone_of_inner {rule : Rule} (self : rule.StandsAlone)
    (inner : ∀ top ∈ rule.inner, ∀ r, Among [top] r → r.StandsAlone) :
    ∀ r, Among [rule] r → r.StandsAlone := by
  intro r hr
  rcases hr.singleton with rfl | hr
  · exact self
  · obtain ⟨top, htop, hr⟩ := hr.exists_top
    exact inner top htop r hr

/-- Letters by themselves, one of them captured under a name like those of the scanner's own groups,
and text between quotes, which only the quote that opened it closes. -/
def GrammarSpec.quotes : GrammarSpec where
  name := "quotes"
  illegal := some "#|!"
  rules := [
    { opening := some "(?P<__hl7>a)|b" },
    { label := some .string, opening := some "q|Q", closesAsOpened := true }]

namespace Compile

theorem eq_ok_of_toOption {ε α : Type} {x : Except ε α} {a : α} (h : x.toOption = some a) :
    x = .ok a := by
  cases x with
  | error e => cases h
  | ok b => exact congrArg _ (Option.some.inj h)

/-- A rule without rules inside it, and without a pattern that closes it, is compiled as soon as it
has an outline. -/
theorem exists_compileRule {ctx : Context} (references : Nat) {spec : RuleSpec} {place : Place}
    {inherited caseless : Bool} {opening : String} {ending : Ending}
    (ho : (outline ctx spec place inherited).toOption.map
      (fun o => (o.opening, o.ending, o.caseless)) = some (opening, ending, caseless))
    (hspec : spec.reference = none) (hinner : spec.inner = [])
    (hending : ending = .single ∨ ending = .asOpened) :
    ∃ rule, compileRule ctx references spec place inherited = .ok rule ∧
      (rule.opening, rule.ending, rule.caseless, rule.inner) = (opening, ending, caseless, []) := by
  obtain ⟨o, hsome, heq⟩ := Option.map_eq_some_iff.1 ho
  cases heq
  have hs : scopeScanner ctx o place [] = .ok .none := by
    unfold scopeScanner
    rcases hending with h | h
    · rw [h]
    · rw [h]
      rfl
  have hrules : compileRules ctx references spec.inner place 0 o.caseless = .ok [] := by
    rw [hinner, compileRules_nil]
  exact ⟨_, compileRule_eq hspec (eq_ok_of_toOption hsome) hrules hs, by rw [Outline.rule]⟩

/-- A rule that a pattern closes, with one rule inside it, is compiled as soon as it has an outline, the
rule inside it is compiled, and what is looked for in its scope can be read together. -/
theorem exists_compileRule_around {ctx : Context} {references : Nat} {spec child : RuleSpec}
    {place : Place} {inherited caseless : Bool} {opening source : String} {inside : Rule}
    (ho : (outline ctx spec place inherited).toOption.map
      (fun o => (o.opening, o.ending, o.caseless)) = some (opening, .pattern source, caseless))
    (hspec : spec.reference = none) (hinner : spec.inner = [child])
    (hchild : compileRule ctx references child (place.child 0) caseless = .ok inside)
    (hscanner : (Scanner.build? [⟨inside.opening, inside.caseless, .rule 0⟩,
      ⟨source, caseless, .closing⟩]).isSome) :
    ∃ rule, compileRule ctx references spec place inherited = .ok rule ∧
      (rule.opening, rule.ending, rule.caseless, rule.language, rule.inner) =
        (opening, .pattern source, caseless, spec.language, [inside]) := by
  obtain ⟨o, hsome, heq⟩ := Option.map_eq_some_iff.1 ho
  obtain ⟨scanner, hscanner⟩ := Option.isSome_iff_exists.1 hscanner
  simp only [Prod.mk.injEq] at heq
  obtain ⟨rfl, hending, rfl⟩ := heq
  have hs : scopeScanner ctx o place [inside] = .ok scanner := by
    simp [scopeScanner, hending, openings, Context.scanner, hscanner]
  have hrules : compileRules ctx references spec.inner place 0 o.caseless = .ok [inside] := by
    rw [hinner]
    exact compileRules_eq hchild (compileRules_nil ..)
  exact ⟨_, compileRule_eq hspec (eq_ok_of_toOption hsome) hrules hs, by rw [Outline.rule, hending]⟩

theorem compile_quotes : ∃ g, GrammarSpec.quotes.compile .standard = .ok g ∧
    ∀ rule, Rule.Among g.rules rule → rule.StandsAlone := by
  let ctx : Context := ⟨.quotes, .standard⟩
  obtain ⟨letters, hletters, hl⟩ : ∃ rule,
      compileRule ctx maxReferences { opening := some "(?P<__hl7>a)|b" } (Place.root.child 0)
        false = .ok rule ∧ (rule.opening, rule.ending, rule.caseless, rule.inner) =
          ("(?P<__hl7>a)|b", .single, false, []) :=
    exists_compileRule maxReferences (by decide +kernel) rfl rfl (.inl rfl)
  obtain ⟨quotes, hquotes, hq⟩ : ∃ rule,
      compileRule ctx maxReferences
        { label := some .string, opening := some "q|Q", closesAsOpened := true }
        (Place.root.child 1) false = .ok rule ∧
          (rule.opening, rule.ending, rule.caseless, rule.inner) = ("q|Q", .asOpened, false, []) :=
    exists_compileRule maxReferences (by decide +kernel) rfl rfl (.inr rfl)
  obtain ⟨scanner, hscanner⟩ : ∃ scanner, Scanner.build? [⟨"(?P<__hl7>a)|b", false, .rule 0⟩,
      ⟨"q|Q", false, .rule 1⟩, ⟨"#|!", false, .illegal⟩] = some scanner :=
    Option.isSome_iff_exists.1 (by decide +kernel)
  have hillegal : illegalAlternatives ctx = .ok [⟨"#|!", false, .illegal⟩] :=
    eq_ok_of_toOption (by decide +kernel)
  simp only [Prod.mk.injEq] at hl hq
  have hroot : rootScanner ctx [letters, quotes] = .ok scanner := by
    simp [rootScanner, hillegal, openings, hl, hq, bind, Except.bind, Context.scanner, hscanner]
  obtain ⟨g, hg, hrules⟩ : ∃ g, GrammarSpec.quotes.compile .standard = .ok g ∧
      g.rules = [letters, quotes] :=
    exists_compile (by decide +kernel) rfl rfl
      (compileRules_eq hletters (compileRules_eq hquotes (compileRules_nil ..))) hroot
  refine ⟨g, hg, fun rule hrule => ?_⟩
  rw [hrules] at hrule
  have hstands : ∀ {rule : Rule}, rule.inner = [] → rule.StandsAlone → ∀ r,
      Rule.Among [rule] r → r.StandsAlone := fun hinner hrule =>
    Rule.standsAlone_of_inner hrule (by simp [hinner])
  obtain ⟨top, htop, hamong⟩ := hrule.exists_top
  simp only [List.mem_cons, List.not_mem_nil, or_false] at htop
  rcases htop with rfl | rfl
  · refine hstands hl.2.2.2 ⟨?_, ?_⟩ rule hamong
    · rw [hl.1]
      decide +kernel
    · simp [Rule.closers, hl.2.1]
  · refine hstands hq.2.2.2 ⟨?_, ?_⟩ rule hamong
    · rw [hq.1]
      decide +kernel
    · simp [Rule.closers, hq.2.1]

end Compile

namespace Scan

/-- An open scope of a grammar: its rule is one of the grammar's and opens scopes, and the text that
it was opened with is kept just if that closes it. -/
structure Frame.BelongsTo (g : Grammar) (frame : Frame) : Prop where
  among : Rule.Among g.rules frame.rule
  opensScope : frame.rule.opensScope = true
  close_isSome : frame.close.isSome = (frame.rule.ending == .asOpened)

/-- What ends a scope: a pattern, or the text it was opened with. -/
def Frame.closers (frame : Frame) : List Candidate :=
  frame.rule.closers.map .pattern ++ frame.close.toList.map .literal

/-- A scope ends with the pattern of its rule, or with the text that it was opened with. -/
theorem Frame.BelongsTo.ends {g : Grammar} {frame : Frame} (h : frame.BelongsTo g) :
    (∃ source, frame.rule.ending = .pattern source ∧ frame.close = none) ∨
      ∃ text, frame.rule.ending = .asOpened ∧ frame.close = some text := by
  have hopens := h.opensScope
  have hclose := h.close_isSome
  unfold Rule.opensScope at hopens
  cases hending : frame.rule.ending with
  | single => simp [hending] at hopens
  | pattern source =>
    rw [hending] at hclose
    exact .inl ⟨source, rfl, Option.not_isSome_iff_eq_none.1 (by simp [hclose])⟩
  | asOpened =>
    obtain ⟨text, htext⟩ := Option.isSome_iff_exists.1 (hclose.trans (by simp [hending]))
    exact .inr ⟨text, rfl, htext⟩

/-- A scope has one end. -/
theorem Frame.BelongsTo.closers {g : Grammar} {frame : Frame} (h : frame.BelongsTo g) :
    ∃ c, frame.closers = [c] := by
  unfold Frame.closers Rule.closers
  obtain ⟨source, hending, hclose⟩ | ⟨text, hending, hclose⟩ := h.ends
  · exact ⟨.pattern ⟨source, frame.rule.caseless, .closing⟩, by simp [hending, hclose]⟩
  · exact ⟨.literal text, by simp [hending, hclose]⟩

theorem State.among_rules {g : Grammar} {ctx : Context} {s : State} (hg : ctx.grammar = g)
    (h : ∀ frame ∈ s.stack, frame.BelongsTo g) :
    ∀ rule ∈ s.rules ctx, Rule.Among g.rules rule := by
  subst hg
  intro rule hrule
  unfold State.rules at hrule
  split at hrule
  · rename_i frame stack hs
    exact .inner (h frame (hs ▸ List.mem_cons_self ..)).among hrule
  · exact .top hrule

theorem State.Opens.belongsTo {ctx : Context} {s : State} {rule : Rule} {start stop : Nat}
    (opens : s.Opens ctx rule start stop) (h : ∀ frame ∈ s.stack, frame.BelongsTo ctx.grammar) :
    (s.frame ctx rule start stop).BelongsTo ctx.grammar where
  among := by
    obtain ⟨index, -, hrule⟩ := opens.hit
    exact State.among_rules rfl h rule (List.mem_of_getElem? hrule)
  opensScope := opens.opensScope
  close_isSome := by
    unfold State.frame
    cases rule.ending <;> simp

/-- The scopes open after a step are of the grammar of the region if those before it are. -/
theorem State.belongsTo_step {ctx : Context} {s : State} (inside : Embedding ctx → Inner)
    (h : ∀ frame ∈ s.stack, frame.BelongsTo ctx.grammar) :
    ∀ frame ∈ (s.step ctx inside).stack, frame.BelongsTo ctx.grammar := by
  intro frame hframe
  rcases State.stack_step ctx inside s with hsuffix | ⟨rule, start, stop, opens, hstack⟩
  · exact h frame (hsuffix.subset hframe)
  · rw [hstack] at hframe
    rcases List.mem_cons.1 hframe with rfl | hframe
    · exact opens.belongsTo h
    · exact h frame hframe

/-- Every scope that is open in a region is of the grammar of the region. -/
theorem Reached.belongsTo {top ctx : Context} {first : Nat} {s : State}
    (h : Reached top ctx first s) : ∀ frame ∈ s.stack, frame.BelongsTo ctx.grammar := by
  induction h with
  | start => exact fun _ hframe => nomatch hframe
  | take reached popped ih => exact ih
  | @step ctx _ _ reached going ih => exact State.belongsTo_step ctx.inside ih
  | embed reached going embeds ih => exact fun _ hframe => nomatch hframe

namespace State

/-- The scanner of the current scope. -/
def scanner (ctx : Context) (s : State) : Scanner :=
  match s.stack with
  | frame :: _ => frame.rule.scanner
  | [] => ctx.grammar.scanner

/-- The patterns looked for in the current scope: the openings of its rules, in order, and behind
them the pattern that closes it, or outside all scopes what is illegal there. -/
def patterns (illegal : List Alternative) (ctx : Context) (s : State) : List Alternative :=
  Compile.openings (s.rules ctx) ++ match s.stack with
    | frame :: _ => frame.rule.closers
    | [] => illegal

/-- Everything looked for in the current scope, in order. -/
def candidates (illegal : List Alternative) (ctx : Context) (s : State) : List Candidate :=
  (Compile.openings (s.rules ctx)).map .pattern ++ match s.stack with
    | frame :: _ => frame.closers
    | [] => illegal.map .pattern

/-- What comes next is found by looking for one candidate after the other: the openings of the
rules, in order, and behind them, inside a scope, its one end. -/
structure FindsFirst (illegal : List Alternative) (ctx : Context) (s : State) : Prop where
  earliest : Candidate.Earliest ctx.haystack s.cursor (s.candidates illegal ctx) (s.nextHit? ctx)
  closers : ∀ frame ∈ s.stack, ∃ c, frame.closers = [c]
  joined : s.patterns illegal ctx ≠ [] →
    ∃ r, Regex.ofPattern? (Scanner.pattern (s.patterns illegal ctx)) = some r ∧
      ((s.scanner ctx).find? ctx.haystack s.cursor).map Prod.snd =
        r.find? ctx.haystack s.cursor

/-- The text that closes the current scope, if only that does. -/
def literal? (s : State) : Option (List Char) := s.stack.head?.bind Frame.close

theorem candidates_eq (illegal : List Alternative) (ctx : Context) (s : State) :
    s.candidates illegal ctx =
      (s.patterns illegal ctx).map .pattern ++ s.literal?.toList.map .literal := by
  unfold candidates patterns literal?
  cases s.stack <;> simp [Frame.closers]

/-- A match of the text that closes the scope is what comes next if it starts in front of what the
scanner finds. -/
theorem nextHit?_eq (ctx : Context) (s : State) :
    s.nextHit? ctx =
      Candidate.unlessBefore .closing
        (s.literal?.bind fun text => (Candidate.literal text).match? ctx.haystack s.cursor)
        ((s.scanner ctx).find? ctx.haystack s.cursor) := by
  unfold nextHit? literal? scanner
  cases s.stack with
  | nil => rfl
  | cons frame stack =>
    change _ = Candidate.unlessBefore .closing (frame.literalHit? ctx.haystack s.cursor) _
    dsimp only
    cases frame.literalHit? ctx.haystack s.cursor <;>
      cases frame.rule.scanner.find? ctx.haystack s.cursor <;> rfl

/-- Where the scanner is built from what is looked for, what comes next is what comes first. -/
theorem earliest_of_build? {illegal : List Alternative} {ctx : Context} {s : State}
    (hs : Scanner.build? (s.patterns illegal ctx) = some (s.scanner ctx))
    (alone : ∀ a ∈ s.patterns illegal ctx, a.StandsAlone) :
    Candidate.Earliest ctx.haystack s.cursor (s.candidates illegal ctx) (s.nextHit? ctx) := by
  have he := Scanner.earliest_of_build? hs (fun a ha => (alone a ha).readsWhole) ctx.haystack
    s.cursor
  rw [nextHit?_eq, candidates_eq]
  cases s.literal? with
  | none => simpa [Candidate.unlessBefore] using he
  | some text => exact he.append (.literal text)

theorem findsFirst_of_build? {illegal : List Alternative} {ctx : Context} {s : State}
    (hs : Scanner.build? (s.patterns illegal ctx) = some (s.scanner ctx))
    (alone : ∀ a ∈ s.patterns illegal ctx, a.StandsAlone)
    (hframes : ∀ frame ∈ s.stack, frame.BelongsTo ctx.grammar) : s.FindsFirst illegal ctx where
  earliest := earliest_of_build? hs alone
  closers := fun frame hframe => (hframes frame hframe).closers
  joined := by
    intro hne
    obtain ⟨r, hr, hfind⟩ := Scanner.find?_of_build? hs hne fun a ha => (alone a ha).isWhole
    exact ⟨r, hr, hfind ctx.haystack s.cursor⟩

end State

end Scan

end Highlighter
