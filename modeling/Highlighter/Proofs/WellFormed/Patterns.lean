import Highlighter.Proofs.Candidates
import Highlighter.Proofs.WellFormed.Fragments
import Mathlib

/-!
What checking a pattern tells of the pattern by itself. A pattern is checked in the group that it is
searched in, and a parenthesis in it may close that group: then the pattern passes though by itself
it is none, and what stands behind the parenthesis is searched without the case mode of the rule. A
pattern that closes no group around it is checked as it is by itself, and so it is searched. A
fragment, too, is put into a group, and there it is read as by itself if by itself it is a pattern.
-/

namespace Highlighter

namespace Alternative

open Regex.Reader

variable {pattern : String} {caseless : Bool}

theorem under?_of_ended {t : Regex.Reader}
    (hread : pattern.toList.foldlM step? (fresh (modes caseless)) = some t) (ended : Ended t)
    (hdepth : t.complete.inner.depth ≤ maxDepth) :
    Regex.under? (modes caseless) pattern = some t.complete.inner.regex := by
  rw [Regex.under?, hread, Option.bind_some, finish?_eq, if_pos]
  simp [ended.mode_eq, t.groups_complete, ended.groups_eq, hdepth]

/-- A pattern that closes no group around it denotes in the group of its rule what it denotes by
itself. -/
theorem under?_of_ofRulePattern? {r : Regex} (inside : ¬ Regex.ClosesOutside pattern)
    (h : Regex.ofRulePattern? pattern caseless = some r) :
    Regex.under? (modes caseless) pattern = some r := by
  obtain ⟨t, hread, ended, rfl, hdepth⟩ := exists_ended_of_not_closesOutside inside h
  exact under?_of_ended hread ended hdepth

/-- A pattern that may be read in the group of its rule is one by itself just if it does not close
that group. -/
theorem isSome_under?_iff (h : (Regex.ofRulePattern? pattern caseless).isSome) :
    (Regex.under? (modes caseless) pattern).isSome ↔ ¬ Regex.ClosesOutside pattern := by
  constructor
  · intro alone closes
    rw [Regex.under?, closes.foldlM_eq_none (s := fresh (modes caseless)) rfl] at alone
    cases alone
  · intro inside
    obtain ⟨r, hr⟩ := Option.isSome_iff_exists.1 h
    rw [under?_of_ofRulePattern? inside hr]
    rfl

end Alternative

namespace Regex.Reader

open Highlighter.Alternative

/-- Between two pieces of a pattern a group is opened where what stands in front is settled. -/
theorem foldlM_openGroup {s : Reader} (hcomment : s.inComment = false)
    (hends : s.mode.ends = true) :
    "(?:".toList.foldlM step? s =
      some ((fresh s.flags).within (⟨.nothing, s.flags, s.branches, s.complete.items⟩ :: s.groups)
        s.names) := by
  have hblanks : ∀ c ∈ ['(', '?', ':'], (Text.isSpace c || c == '#') = false := by
    have hall : ['(', '?', ':'].all (fun c => !(Text.isSpace c || c == '#')) = true := by
      decide +kernel
    intro c hc
    simpa only [Bool.not_eq_eq_eq_not, Bool.not_true] using List.all_eq_true.1 hall c hc
  have hstep : ∀ t : Reader, t.inComment = false → ∀ c ∈ ['(', '?', ':'],
      t.step? c = (t.settle c).take? c := by
    intro t ht c hc
    simp [step?, ht, hblanks c hc]
  have hopen : s.step? '(' = some { s with items := s.complete.items, mode := .group } := by
    rw [step?_eq_ready? hcomment (mode_complete_eq_ready_iff.2 hends) (hblanks '(' (by simp))
      (by decide) (by decide)]
    change some { s.complete with mode := .group } = _
    unfold complete
    split <;> rfl
  have hmark : step? { s with items := s.complete.items, mode := .group } '?' =
      some { s with items := s.complete.items, mode := .groupMark } := by
    rw [hstep _ (by exact hcomment) '?' (by simp)]
    rfl
  have hcolon : step? { s with items := s.complete.items, mode := .groupMark } ':' =
      some ((fresh s.flags).within
        (⟨.nothing, s.flags, s.branches, s.complete.items⟩ :: s.groups) s.names) := by
    rw [hstep _ (by exact hcomment) ':' (by simp)]
    simp [settle, take?, flag?, openGroup, within, fresh, hcomment]
  rw [show "(?:".toList = ['(', '?', ':'] from rfl]
  simp only [List.foldlM_cons, hopen, hmark, hcolon, Option.bind_eq_bind, Option.bind_some,
    List.foldlM_nil, Option.pure_def]

/-- A text that is a pattern by itself is read in a group as by itself. The group is one piece, so
the branches of the text are its own. -/
theorem foldlM_group {s t u : Reader} {inner : String} (hcomment : s.inComment = false)
    (hends : s.mode.ends = true) (hread : inner.toList.foldlM step? (fresh s.flags) = some t)
    (ended : Ended t) (hu : ("(?:" ++ inner ++ ")").toList.foldlM step? s = some u) :
    u = ⟨s.flags, s.groups, s.branches,
      .piece ⟨t.complete.inner.regex, t.complete.inner.depth + 1⟩ :: s.complete.items,
      t.names ++ s.names, false, .ready⟩ := by
  rw [String.toList_append, List.foldlM_append, String.toList_append, List.foldlM_append,
    foldlM_openGroup hcomment hends] at hu
  obtain ⟨v, hv, hu⟩ := Option.bind_eq_some_iff.1 hu
  cases foldlM_step?_within hread hv
  rw [show ")".toList = [')'] from rfl, List.foldlM_cons, ended.close] at hu
  cases hu
  rw [t.names_complete, t.inComment_complete, ended.inComment_eq]
  rfl

end Regex.Reader

open Regex.Reader Highlighter.Alternative in
/-- Behind a text, where another piece may follow, a second text is read in a group as by itself: the
group is one more piece, and denotes what the text denotes. The text must be a pattern by itself, and
must not end in a comment. -/
def Regex.GroupedAlone (front inner : String) : Prop :=
  ∀ flags s t u r, front.toList.foldlM step? (fresh flags) = some s → s.inComment = false →
    s.mode.ends = true → inner.toList.foldlM step? (fresh s.flags) = some t →
    t.inComment = false → Regex.under? s.flags inner = some r →
    (front ++ "(?:" ++ inner ++ ")").toList.foldlM step? (fresh flags) = some u →
      ∃ depth names, u =
        ⟨s.flags, s.groups, s.branches, .piece ⟨r, depth⟩ :: s.complete.items, names, false, .ready⟩

open Regex.Reader Highlighter.Alternative in
theorem Regex.groupedAlone (front inner : String) : Regex.GroupedAlone front inner := by
  intro flags s t u r hfront hcomment hends hread ht hr hu
  rw [Regex.under?, hread, Option.bind_some] at hr
  obtain ⟨hgroups, hmode, rfl⟩ := of_finish? hr
  rw [String.append_assoc, String.append_assoc, String.toList_append, List.foldlM_append,
    hfront] at hu
  exact ⟨_, _, foldlM_group hcomment hends hread ⟨hgroups, ht, hmode⟩
    (by rwa [String.append_assoc])⟩

namespace Fragment

variable {source? : String → Option String}

/-- The expansion of a pattern holds that of each of its fragments, in a group. -/
theorem Expands.exists_group {nesting : Nat} {before after : List Piece} {name s : String}
    (h : Expands source? nesting (before ++ .reference name :: after) s) :
    ∃ fewer source front inner back, source? name = some source ∧
      Expands source? fewer (pieces source.toList) inner ∧ Expands source? nesting before front ∧
      s = front ++ "(?:" ++ inner ++ ")" ++ back := by
  induction before generalizing s with
  | nil =>
    cases h with
    | reference found fragment expands =>
      exact ⟨_, _, "", _, _, found, fragment, .nil, by rw [String.empty_append]⟩
  | cons piece before ih =>
    cases h with
    | char expands =>
      obtain ⟨fewer, source, front, inner, back, found, fragment, hfront, rfl⟩ := ih expands
      exact ⟨fewer, source, _, inner, back, found, fragment, .char hfront,
        by simp [String.append_assoc]⟩
    | reference found' fragment' expands =>
      obtain ⟨fewer, source, front, inner, back, found, fragment, hfront, rfl⟩ := ih expands
      exact ⟨fewer, source, _, inner, back, found, fragment, .reference found' fragment' hfront,
        by simp [String.append_assoc]⟩

end Fragment

namespace Compile

open Regex.Reader Highlighter.Alternative

/-- A pattern that is refused is reported as it was read, after its references were replaced. -/
theorem check_eq_error {ctx : Context} {pattern : String} {caseless : Bool}
    (alone : Regex.under? (modes caseless) pattern = none)
    (inside : ¬ Regex.ClosesOutside pattern) :
    ctx.check pattern caseless = .error (.invalidPattern ctx.name pattern) := by
  unfold Context.check
  split
  · rename_i r hr
    rw [under?_of_ofRulePattern? inside hr] at alone
    cases alone
  · rfl

/-- The patterns of some rules that are looked for together with some others. -/
theorem readsWhole_of_mem_openings {rules : List Rule}
    (checked : ∀ rule ∈ rules, rule.Checked) {others : List Alternative}
    (hothers : ∀ a ∈ others, (Regex.ofRulePattern? a.pattern a.caseless).isSome)
    (inside : ∀ a ∈ openings rules ++ others, ¬ Regex.ClosesOutside a.pattern) :
    ∀ a ∈ openings rules ++ others, a.ReadsWhole := by
  intro a ha
  refine readsWhole_of_not_closesOutside ?_ (inside a ha)
  rcases List.mem_append.1 ha with ha | ha
  · obtain ⟨i, hi, rfl⟩ := List.mem_mapIdx.1 ha
    exact (checked _ (List.getElem_mem hi)).opening
  · exact hothers a ha

end Compile

namespace Grammar

open Compile Highlighter.Alternative

/-- A pattern of a grammar: what opens or closes a rule, at any depth, or what is illegal. -/
inductive LooksFor (g : Grammar) (illegal : List Alternative) : Alternative → Prop
  | opening {rule : Rule} (among : Rule.Among g.rules rule) (hit : Hit) :
      LooksFor g illegal ⟨rule.opening, rule.caseless, hit⟩
  | closing {rule : Rule} {a : Alternative} (among : Rule.Among g.rules rule)
      (mem : a ∈ rule.closers) : LooksFor g illegal a
  | illegal {a : Alternative} (mem : a ∈ illegal) : LooksFor g illegal a

/-- What holds of the patterns of a grammar that has been compiled. They are valid by themselves just
if they close no group around them. Then they are searched as they are read by themselves, all of each
in the case mode of its rule, and so are they together in the scanners. -/
structure Vetted (g : Grammar) (illegal : List Alternative) : Prop where
  valid_iff : ∀ a, g.LooksFor illegal a →
    ((Regex.under? (modes a.caseless) a.pattern).isSome ↔ ¬ Regex.ClosesOutside a.pattern)
  alone : ∀ a, g.LooksFor illegal a → ¬ Regex.ClosesOutside a.pattern → ∀ h p,
    (Candidate.pattern a).match? h p =
      (Regex.under? (modes a.caseless) a.pattern).bind (·.find? h p)
  root : (∀ a ∈ openings g.rules ++ illegal, ¬ Regex.ClosesOutside a.pattern) → ∀ h p,
    Candidate.Earliest h p ((openings g.rules ++ illegal).map .pattern) (g.scanner.find? h p)
  scope : ∀ rule, Rule.Among g.rules rule → rule.opensScope = true →
    (∀ a ∈ rule.alternatives, ¬ Regex.ClosesOutside a.pattern) → ∀ h p,
      Candidate.Earliest h p (rule.alternatives.map .pattern) (rule.scanner.find? h p)
  closing : ∀ rule, Rule.Among g.rules rule → ∀ a ∈ rule.closers,
    ¬ Regex.ClosesOutside a.pattern → rule.closing = Regex.under? (modes a.caseless) a.pattern

section Compiled

variable {spec : GrammarSpec} {library : Library} {g : Grammar} {illegal : List Alternative}
  (compiles : Compiles spec library g)
  (hillegal : illegalAlternatives ⟨spec, library⟩ = .ok illegal)

include compiles hillegal

theorem LooksFor.isSome {a : Alternative} (h : g.LooksFor illegal a) :
    (Regex.ofRulePattern? a.pattern a.caseless).isSome := by
  cases h with
  | opening among hit => exact (checked_of_compile compiles.rules among).opening
  | closing among mem => exact (checked_of_compile compiles.rules among).closers a mem
  | illegal mem => exact ofRulePattern?_of_illegalAlternatives hillegal a mem

theorem vetted_of_compiles : g.Vetted illegal where
  valid_iff := fun a ha => isSome_under?_iff (ha.isSome compiles hillegal)
  alone := by
    intro a ha inside h p
    obtain ⟨r, hr⟩ := Option.isSome_iff_exists.1 (ha.isSome compiles hillegal)
    rw [Candidate.match?, hr, under?_of_ofRulePattern? inside hr]
  root := by
    intro inside h p
    refine Scanner.earliest_of_build? (build?_of_rootScanner compiles.scanner hillegal) ?_ h p
    exact readsWhole_of_mem_openings (fun rule hrule => checked_of_compile compiles.rules (.top hrule))
      (ofRulePattern?_of_illegalAlternatives hillegal) inside
  scope := by
    intro rule among opens inside h p
    have hchecked := checked_of_compile compiles.rules among
    refine Scanner.earliest_of_build? (hchecked.scanner opens) ?_ h p
    exact readsWhole_of_mem_openings
      (fun child hchild => checked_of_compile compiles.rules (.inner among hchild))
      hchecked.closers inside
  closing := by
    intro rule among a ha inside
    have hchecked := checked_of_compile compiles.rules among
    obtain ⟨r, hr⟩ := Option.isSome_iff_exists.1 (hchecked.closers a ha)
    have hhead : rule.closers.head? = some a := by
      unfold Rule.closers at ha ⊢
      split at ha <;> simp_all
    rw [hchecked.closing, hhead, Option.bind_some, hr, under?_of_ofRulePattern? inside hr]

end Compiled

/-- What compiling makes sure of the patterns of a grammar, which patterns it refuses, and how a
fragment stands in the pattern that refers to it. -/
theorem vetted_of_compile {spec : GrammarSpec} {library : Library} {g : Grammar}
    (compiled : spec.compile library = .ok g) :
    (∃ illegal, illegalAlternatives ⟨spec, library⟩ = .ok illegal ∧ g.Vetted illegal) ∧
    (∀ (ctx : Context) pattern caseless, Regex.under? (modes caseless) pattern = none →
      ¬ Regex.ClosesOutside pattern →
        ctx.check pattern caseless = .error (.invalidPattern ctx.name pattern)) ∧
    ∀ nesting before after name s,
      Fragment.Expands (Context.source? ⟨spec, library⟩) nesting (before ++ .reference name :: after)
        s →
      ∃ fewer source front inner back, Context.source? ⟨spec, library⟩ name = some source ∧
        Fragment.Expands (Context.source? ⟨spec, library⟩) fewer (Fragment.pieces source.toList)
          inner ∧
        s = front ++ "(?:" ++ inner ++ ")" ++ back ∧ Regex.GroupedAlone front inner := by
  have hcompiles := compiles_of_compile compiled
  obtain ⟨illegal, hillegal, -⟩ := bind_eq_ok hcompiles.scanner
  refine ⟨⟨illegal, hillegal, vetted_of_compiles hcompiles hillegal⟩, ?_, ?_⟩
  · exact fun ctx pattern caseless => check_eq_error
  · intro nesting before after name s expands
    obtain ⟨fewer, source, front, inner, back, found, fragment, -, rfl⟩ := expands.exists_group
    exact ⟨fewer, source, front, inner, back, found, fragment, rfl, Regex.groupedAlone front inner⟩

/-- The patterns of a grammar of quotes are found as they are by themselves. -/
theorem vetted_quotes : ∃ g, GrammarSpec.quotes.compile .standard = .ok g ∧
    ∃ illegal, illegalAlternatives ⟨.quotes, .standard⟩ = .ok illegal ∧
      (∀ a ∈ openings g.rules ++ illegal,
        (Regex.under? (modes a.caseless) a.pattern).isSome = true) ∧
      ∀ h p, Candidate.Earliest h p ((openings g.rules ++ illegal).map .pattern)
        (g.scanner.find? h p) := by
  obtain ⟨g, hg, alone⟩ := compile_quotes
  obtain ⟨⟨illegal, hillegal, vetted⟩, -, -⟩ := vetted_of_compile hg
  have hsame : illegal = [⟨"#|!", false, .illegal⟩] := by
    have hconcrete : illegalAlternatives ⟨.quotes, .standard⟩ = .ok [⟨"#|!", false, .illegal⟩] :=
      eq_ok_of_toOption (by decide +kernel)
    exact Except.ok.inj (hillegal.symm.trans hconcrete)
  have hinside : ∀ a ∈ openings g.rules ++ illegal,
      g.LooksFor illegal a ∧ ¬ Regex.ClosesOutside a.pattern := by
    intro a ha
    rcases List.mem_append.1 ha with ha | ha
    · obtain ⟨i, hi, rfl⟩ := List.mem_mapIdx.1 ha
      have among := Rule.Among.top (List.getElem_mem hi)
      exact ⟨.opening among _, Regex.not_closesOutside_of_isSome (alone _ among).opening⟩
    · refine ⟨.illegal ha, Regex.not_closesOutside_of_isSome ?_⟩
      rw [hsame, List.mem_singleton] at ha
      rw [ha]
      decide +kernel
  exact ⟨g, hg, illegal, hillegal,
    fun a ha => (vetted.valid_iff a (hinside a ha).1).2 (hinside a ha).2,
    vetted.root fun a ha => (hinside a ha).2⟩

end Grammar

/-- A rule in a grammar without case, whose opening closes the group it is put into. -/
def GrammarSpec.strayed : GrammarSpec where
  name := "strayed"
  caseless := true
  rules := [{ opening := some "a)|(b" }]

open Compile in
/-- A pattern may pass that is none by itself, and then only a part of it disregards case. -/
theorem Grammar.passes_strayed : ∃ g, GrammarSpec.strayed.compile .standard = .ok g ∧
    ∃ rule ∈ g.rules, rule.opening = "a)|(b" ∧ rule.caseless = true ∧
      Regex.ofPattern? rule.opening = none ∧ Regex.ClosesOutside rule.opening ∧
      g.scanner.find? ⟨#['A'], 1⟩ 0 = some (.rule 0, 0, 1) ∧
      g.scanner.find? ⟨#['b'], 1⟩ 0 = some (.rule 0, 0, 1) ∧
      g.scanner.find? ⟨#['B'], 1⟩ 0 = none := by
  let ctx : Context := ⟨.strayed, .standard⟩
  obtain ⟨rule, hrule, h⟩ : ∃ rule,
      compileRule ctx maxReferences { opening := some "a)|(b" } (Place.root.child 0) true =
        .ok rule ∧ (rule.opening, rule.ending, rule.caseless, rule.inner) =
          ("a)|(b", .single, true, []) :=
    exists_compileRule maxReferences (by decide +kernel) rfl rfl (.inl rfl)
  simp only [Prod.mk.injEq] at h
  have hbuild : (Scanner.build? [⟨rule.opening, rule.caseless, .rule 0⟩]).isSome := by
    rw [h.1, h.2.2.1]
    decide +kernel
  have hname : (Text.trim GrammarSpec.strayed.name).isEmpty = false := by decide +kernel
  have hillegal : illegalAlternatives ctx = .ok [] := rfl
  obtain ⟨g, hg, hrules, hscanner⟩ := exists_compile_single hname rfl rfl rfl hrule hillegal hbuild
  rw [h.1, h.2.2.1] at hscanner
  have hfound : (Scanner.build? [⟨"a)|(b", true, .rule 0⟩]).map (fun s =>
      ["A", "b", "B"].map fun text => s.find? ⟨text.toList.toArray, text.length⟩ 0) =
        some [some (.rule 0, 0, 1), some (.rule 0, 0, 1), none] := by cbv
  rw [hscanner, Option.map_some, Option.some.injEq] at hfound
  simp only [List.map_cons, List.map_nil, List.cons.injEq] at hfound
  refine ⟨g, hg, rule, hrules ▸ List.mem_singleton_self _, h.1, h.2.2.1, ?_, ?_, ?_⟩
  · rw [h.1]
    decide +kernel
  · rw [h.1]
    exact ⟨['a'], "|(b".toList, _, rfl, rfl, ⟨rfl, rfl, rfl⟩⟩
  · exact ⟨hfound.1, hfound.2.1, hfound.2.2.1⟩

end Highlighter
