import Highlighter.Grammar.Compile
import Highlighter.Proofs.Command.Settled
import Highlighter.Proofs.Sorted

/-!
A run writes all of its output or nothing, and its status says how it went. Whatever goes wrong,
goes wrong before anything is written; and whether a text counts as clean is decided by what
highlighting came to, before plain tokens are left out.
-/

namespace Highlighter

namespace Command

/-- The settings of a run: what its arguments and the files of settings come to. -/
def Configured (world : World Id) (args : Arguments) (s : Settings) : Prop :=
  ∃ loader, args.loader = .ok loader ∧ loader.build world.contents = .ok s

/-- Whether the arguments ask for a text to be highlighted. -/
def Arguments.Highlights (args : Arguments) : Prop :=
  args.listFormats = false ∧ args.listLanguages = false

/-- What can go wrong in a run. -/
inductive Fails (world : World Id) (args : Arguments) : Prop
  /-- A depth among the arguments is too large for any setting. -/
  | argument {message : String} (h : args.loader = .error message)
  /-- The settings cannot be made out. -/
  | configuration {loader : Settings.Loader} {e : Settings.Error}
      (hloader : args.loader = .ok loader) (h : loader.build world.contents = .error e)
  /-- Nesting is to go deeper than it may. -/
  | depth {s : Settings} (hs : Configured world args s) (h : maxDepthLimit < s.maxDepth)
  /-- A grammar cannot be loaded, or its names are taken. -/
  | grammar {s : Settings} {e : GrammarError} (hs : Configured world args s)
      (hlist : args.listFormats = false)
      (h : Registry.loaded world.contents (s.grammars ++ args.grammars) = .error e)
  /-- A grammar mentions a language that is not there. -/
  | reference {s : Settings} {r : Registry} {e : GrammarError} (hs : Configured world args s)
      (hlist : args.listFormats = false)
      (hr : Registry.loaded world.contents (s.grammars ++ args.grammars) = .ok r)
      (h : r.validate = .error e)
  /-- The format is unknown. -/
  | format {s : Settings} (hs : Configured world args s) (hhighlights : args.Highlights)
      (h : FormatRegistry.standard.has s.format = false)
  /-- The text cannot be read. -/
  | input {path : String} {fault : ReadFault} (hhighlights : args.Highlights)
      (hpath : args.path = some path) (h : world.text path = .error fault)
  /-- The language is unknown. -/
  | language {s : Settings} {r : Registry} {language : String} (hs : Configured world args s)
      (hhighlights : args.Highlights)
      (hr : Registry.loaded world.contents (s.grammars ++ args.grammars) = .ok r)
      (hlanguage : args.language = some language) (h : r.find? language = none)

/-- A run highlights a text: everything that this takes is there. -/
structure Highlighted (world : World Id) (args : Arguments) (s : Settings) (h : Highlight) :
    Prop where
  configured : Configured world args s
  depth : s.maxDepth ≤ maxDepthLimit
  highlights : args.Highlights
  highlight : ∃ r path language text,
    Registry.ofFiles world.contents (s.grammars ++ args.grammars) = .ok r ∧
      args.path = some path ∧ world.text path = .ok text ∧
      args.language = some language ∧ r.highlight? language s.maxDepth text = some h

theorem Configured.unique {world : World Id} {args : Arguments} {s s' : Settings}
    (h : Configured world args s) (h' : Configured world args s') : s = s' := by
  obtain ⟨loader, hloader, hbuild⟩ := h
  obtain ⟨loader', hloader', hbuild'⟩ := h'
  obtain rfl := Except.ok.inj (hloader.symm.trans hloader')
  exact Except.ok.inj (hbuild.symm.trans hbuild')

/-- A formatter that writes every highlight. -/
def Writes (entry : String × Formatter) : Prop := ∀ h, ∃ written, entry.2.serialize h = .ok written

theorem writes_register {r : FormatRegistry} (hr : ∀ entry ∈ r.formatters, Writes entry)
    {f : Formatter} (hf : Writes (f.name, f)) :
    ∀ entry ∈ (r.register f).formatters, Writes entry := by
  intro entry hentry
  rcases mem_of_mem_putSorted hentry with rfl | hentry
  · exact hf
  · exact hr entry hentry

/-- In a known format everything can be written. -/
theorem exists_serialize {format : String} (h : FormatRegistry.standard.has format = true)
    (highlight : Highlight) :
    ∃ written, FormatRegistry.standard.serialize highlight format = .ok written := by
  have hall : ∀ entry ∈ FormatRegistry.standard.formatters, Writes entry := by
    have hnone : ∀ entry ∈ ({} : FormatRegistry).formatters, Writes entry := by simp
    exact writes_register (writes_register (writes_register hnone fun _ => ⟨_, rfl⟩)
      fun _ => ⟨_, rfl⟩) fun _ => ⟨_, rfl⟩
  obtain ⟨f, hf⟩ := Option.isSome_iff_exists.1 h
  obtain ⟨front, back, heq, -⟩ := List.lookup_eq_some_iff.1 hf
  have hmem : (format, f) ∈ FormatRegistry.standard.formatters := by
    rw [heq]
    exact List.mem_append_right _ (List.mem_cons_self ..)
  obtain ⟨written, hwritten⟩ := hall _ hmem highlight
  refine ⟨written, ?_⟩
  unfold FormatRegistry.serialize
  rw [hf]
  exact hwritten

theorem getLast?_terminated (written : String) :
    (terminated written).toList.getLast? = some '\n' := by
  unfold terminated
  split
  · rename_i h
    exact beq_iff_eq.1 h
  · rw [String.toList_append]
    exact List.getLast?_concat

/-- In a known format a highlight is written, and its status is told from all of it. -/
theorem exists_outputs {s : Settings} (h : FormatRegistry.standard.has s.format = true)
    (strict : Bool) (path : String) (highlight : Highlight) :
    ∃ written o, FormatRegistry.standard.serialize
        (if s.includePlain then highlight else highlight.withoutPlain) s.format = .ok written ∧
      outputs .standard s strict path highlight = .ok o ∧ o.output = terminated written ∧
      o.status =
        if strict && (highlight.outcome.incomplete || highlight.outcome.illegal) then notClean
        else 0 := by
  obtain ⟨written, hwritten⟩ :=
    exists_serialize h (if s.includePlain then highlight else highlight.withoutPlain)
  refine ⟨written, if strict && (highlight.outcome.incomplete || highlight.outcome.illegal) then
    ⟨notClean, terminated written, remark path highlight.outcome⟩
    else { output := terminated written }, hwritten, ?_, ?_, ?_⟩
  · simp only [outputs, hwritten]
    cases strict && (highlight.outcome.incomplete || highlight.outcome.illegal) <;> rfl
  · split <;> rfl
  · split <;> rfl

section Stages

variable {world : World Id} {args : Arguments} {s : Settings} {o : Outputs}

theorem settled_eq_some_iff : args.settled world = some s ↔
    Configured world args s ∧ s.maxDepth ≤ maxDepthLimit := by
  simp only [Arguments.settled, Configured, Option.bind_eq_some_iff, toOption_eq_some_iff,
    Option.ite_none_left_eq_some, Option.some.injEq, Nat.not_lt, gt_iff_lt]
  constructor
  · rintro ⟨loader, hloader, s', hbuild, hdepth, rfl⟩
    exact ⟨⟨loader, hloader, hbuild⟩, hdepth⟩
  · rintro ⟨⟨loader, hloader, hbuild⟩, hdepth⟩
    exact ⟨loader, hloader, s, hbuild, hdepth, rfl⟩

theorem ofFiles_eq_ok_iff {contents : String → Except ReadFault ByteArray} {paths : List String}
    {r : Registry} : Registry.ofFiles contents paths = .ok r ↔
      Registry.loaded contents paths = .ok r ∧ r.validate = .ok () := by
  unfold Registry.ofFiles
  cases Registry.loaded contents paths with
  | error e => simp [bind, Except.bind]
  | ok r' =>
    cases hvalid : r'.validate with
    | error e =>
      simp only [bind, Except.bind, hvalid, reduceCtorEq, Except.ok.injEq, false_iff]
      rintro ⟨rfl, hok⟩
      cases hvalid.symm.trans hok
    | ok u =>
      simp only [bind, Except.bind, hvalid, pure, Except.pure, Except.ok.injEq]
      exact ⟨fun h => ⟨h, h ▸ hvalid⟩, And.left⟩

/-- What a run that is to highlight a text comes to. -/
theorem sought_eq_some_iff (highlights : args.Highlights) : args.sought world s = some o ↔
    ∃ r path language text h,
      Registry.ofFiles world.contents (s.grammars ++ args.grammars) = .ok r ∧
        args.path = some path ∧ args.language = some language ∧
        FormatRegistry.standard.has s.format = true ∧ world.text path = .ok text ∧
        r.highlight? language s.maxDepth text = some h ∧
        outputs .standard s args.strict path h = .ok o := by
  unfold Arguments.sought
  rw [highlights.1, highlights.2]
  simp only [Bool.false_eq_true, if_false, Option.bind_eq_some_iff, toOption_eq_some_iff,
    Option.ite_none_right_eq_some]
  constructor
  · rintro ⟨r, hr, path, hpath, language, hlanguage, hhas, text, htext, h, hh, ho⟩
    exact ⟨r, path, language, text, h, hr, hpath, hlanguage, hhas, htext, hh, ho⟩
  · rintro ⟨r, path, language, text, h, hr, hpath, hlanguage, hhas, htext, hh, ho⟩
    exact ⟨r, hr, path, hpath, language, hlanguage, hhas, text, htext, h, hh, ho⟩

/-- Whatever is asked for but the formats, the registry has to be there. -/
theorem exists_ofFiles_of_sought (hlist : args.listFormats = false)
    (h : args.sought world s = some o) :
    ∃ r, Registry.ofFiles world.contents (s.grammars ++ args.grammars) = .ok r := by
  unfold Arguments.sought at h
  rw [hlist, if_neg Bool.false_ne_true, Option.bind_eq_some_iff] at h
  obtain ⟨r, hr, -⟩ := h
  exact ⟨r, toOption_eq_some_iff.1 hr⟩

/-- Where something goes wrong, a run comes to nothing. -/
theorem Fails.eq_none (h : Fails world args) :
    (args.settled world).bind (args.sought world) = none := by
  refine Option.eq_none_iff_forall_ne_some.2 fun o ho => ?_
  obtain ⟨s, hsettled, hsought⟩ := Option.bind_eq_some_iff.1 ho
  obtain ⟨hconfigured, hdepth⟩ := settled_eq_some_iff.1 hsettled
  cases h with
  | argument h =>
    obtain ⟨loader, hloader, -⟩ := hconfigured
    cases hloader.symm.trans h
  | configuration hl h =>
    obtain ⟨loader, hloader, hbuild⟩ := hconfigured
    obtain rfl := Except.ok.inj (hloader.symm.trans hl)
    cases hbuild.symm.trans h
  | depth hs h =>
    obtain rfl := hconfigured.unique hs
    exact Nat.not_lt.2 hdepth h
  | grammar hs hlist h =>
    obtain rfl := hconfigured.unique hs
    obtain ⟨r, hr⟩ := exists_ofFiles_of_sought hlist hsought
    cases (ofFiles_eq_ok_iff.1 hr).1.symm.trans h
  | reference hs hlist hloaded h =>
    obtain rfl := hconfigured.unique hs
    obtain ⟨r, hr⟩ := exists_ofFiles_of_sought hlist hsought
    obtain ⟨hloaded', hvalid⟩ := ofFiles_eq_ok_iff.1 hr
    obtain rfl := Except.ok.inj (hloaded'.symm.trans hloaded)
    cases hvalid.symm.trans h
  | format hs highlights h =>
    obtain rfl := hconfigured.unique hs
    obtain ⟨_, _, _, _, _, -, -, -, hhas, -⟩ := (sought_eq_some_iff highlights).1 hsought
    cases hhas.symm.trans h
  | input highlights hpath h =>
    obtain ⟨_, path, _, text, _, -, hpath', -, -, htext, -⟩ :=
      (sought_eq_some_iff highlights).1 hsought
    obtain rfl := Option.some.inj (hpath'.symm.trans hpath)
    cases htext.symm.trans h
  | language hs highlights hloaded hlanguage h =>
    obtain rfl := hconfigured.unique hs
    obtain ⟨r, _, language, text, _, hr, -, hlanguage', -, -, hh, -⟩ :=
      (sought_eq_some_iff highlights).1 hsought
    obtain rfl := Option.some.inj (hlanguage'.symm.trans hlanguage)
    obtain rfl := Except.ok.inj ((ofFiles_eq_ok_iff.1 hr).1.symm.trans hloaded)
    unfold Registry.highlight? Registry.start? at hh
    rw [h] at hh
    cases hh

theorem Fails.of_settled (h : args.settled world = none) : Fails world args := by
  unfold Arguments.settled at h
  cases hloader : args.loader with
  | error message => exact .argument hloader
  | ok loader =>
    cases hbuild : loader.build world.contents with
    | error e => exact .configuration hloader hbuild
    | ok s =>
      have hs : Configured world args s := ⟨loader, hloader, hbuild⟩
      refine .depth hs (Nat.lt_of_not_le fun hle => ?_)
      cases h.symm.trans (settled_eq_some_iff.2 ⟨hs, hle⟩)

/-- With the registry there, only a highlighting can go wrong. -/
theorem Fails.of_ofFiles (hs : Configured world args s) (hlist : args.listFormats = false)
    (h : ∀ r, Registry.ofFiles world.contents (s.grammars ++ args.grammars) ≠ .ok r) :
    Fails world args := by
  cases hloaded : Registry.loaded world.contents (s.grammars ++ args.grammars) with
  | error e => exact .grammar hs hlist hloaded
  | ok r =>
    cases hvalid : r.validate with
    | error e => exact .reference hs hlist hloaded hvalid
    | ok u => exact absurd (ofFiles_eq_ok_iff.2 ⟨hloaded, hvalid⟩) (h r)

theorem sought_of_listFormats (h : args.listFormats = true) :
    args.sought world s = some { output := formatList .standard } := by
  unfold Arguments.sought
  rw [if_pos h]

theorem sought_of_listLanguages (hformats : args.listFormats = false)
    (hlanguages : args.listLanguages = true) {r : Registry}
    (hr : Registry.ofFiles world.contents (s.grammars ++ args.grammars) = .ok r) :
    args.sought world s = some { output := languageList r } := by
  unfold Arguments.sought
  rw [hformats, hlanguages, if_neg Bool.false_ne_true, hr]
  rfl

theorem exists_highlight? {r : Registry} {language : String} {g : Grammar}
    (h : r.find? language = some g) (depth : Nat) (text : String) :
    ∃ highlight, r.highlight? language depth text = some highlight := by
  unfold Registry.highlight? Registry.start?
  rw [h]
  exact ⟨_, rfl⟩

/-- A highlighting in which nothing goes wrong comes to something. -/
theorem exists_of_highlights (hs : Configured world args s) (highlights : args.Highlights)
    (valid : args.path.isSome ∧ args.language.isSome) {r : Registry}
    (hr : Registry.ofFiles world.contents (s.grammars ++ args.grammars) = .ok r)
    (h : ¬Fails world args) : ∃ o, args.sought world s = some o := by
  obtain ⟨path, hpath⟩ := Option.isSome_iff_exists.1 valid.1
  obtain ⟨language, hlanguage⟩ := Option.isSome_iff_exists.1 valid.2
  have hhas : FormatRegistry.standard.has s.format = true :=
    Bool.not_eq_false _ ▸ fun hno => h (.format hs highlights hno)
  cases htext : world.text path with
  | error fault => exact absurd (.input highlights hpath htext) h
  | ok text =>
    cases hfind : r.find? language with
    | none => exact absurd (.language hs highlights (ofFiles_eq_ok_iff.1 hr).1 hlanguage hfind) h
    | some g =>
      obtain ⟨highlight, hhighlight⟩ := exists_highlight? hfind s.maxDepth text
      obtain ⟨-, o, -, ho, -⟩ := exists_outputs hhas args.strict path highlight
      exact ⟨o, (sought_eq_some_iff highlights).2
        ⟨r, path, language, text, highlight, hr, hpath, hlanguage, hhas, htext, hhighlight, ho⟩⟩

/-- Where nothing goes wrong, a run comes to something. -/
theorem exists_of_not_fails (valid : args.Highlights → args.path.isSome ∧ args.language.isSome)
    (h : ¬Fails world args) :
    ∃ s o, args.settled world = some s ∧ args.sought world s = some o := by
  cases hsettled : args.settled world with
  | none => exact absurd (.of_settled hsettled) h
  | some s =>
    have hs := (settled_eq_some_iff.1 hsettled).1
    cases hformats : args.listFormats with
    | true => exact ⟨s, _, rfl, sought_of_listFormats hformats⟩
    | false =>
      by_cases hregistry : ∃ r,
          Registry.ofFiles world.contents (s.grammars ++ args.grammars) = .ok r
      · obtain ⟨r, hr⟩ := hregistry
        cases hlanguages : args.listLanguages with
        | true => exact ⟨s, _, rfl, sought_of_listLanguages hformats hlanguages hr⟩
        | false =>
          have highlights : args.Highlights := ⟨hformats, hlanguages⟩
          obtain ⟨o, ho⟩ := exists_of_highlights hs highlights (valid highlights) hr h
          exact ⟨s, o, rfl, ho⟩
      · exact absurd (.of_ofFiles hs hformats fun r hr => hregistry ⟨r, hr⟩) h

/-- A list is given with status 0. -/
theorem status_of_not_highlights (hlist : ¬args.Highlights) (h : args.sought world s = some o) :
    o.status = 0 := by
  cases hformats : args.listFormats with
  | true =>
    obtain rfl := Option.some.inj ((sought_of_listFormats hformats).symm.trans h)
    rfl
  | false =>
    have hlanguages : args.listLanguages = true :=
      Bool.not_eq_false _ ▸ fun hno => hlist ⟨hformats, hno⟩
    obtain ⟨r, hr⟩ := exists_ofFiles_of_sought hformats h
    obtain rfl := Option.some.inj ((sought_of_listLanguages hformats hlanguages hr).symm.trans h)
    rfl

theorem map_output_outputs (formats : FormatRegistry) (s : Settings) (strict strict' : Bool)
    (path : String) (h : Highlight) :
    (outputs formats s strict path h).toOption.map Outputs.output =
      (outputs formats s strict' path h).toOption.map Outputs.output := by
  cases hwritten : formats.serialize (if s.includePlain then h else h.withoutPlain) s.format with
  | error e =>
    simp only [outputs, hwritten]
    rfl
  | ok written =>
    simp only [outputs, hwritten]
    cases h.outcome.incomplete || h.outcome.illegal <;> cases strict <;> cases strict' <;> rfl

theorem map_bind_congr {α β γ : Type} (x : Option α) {f f' : α → Option β} {g : β → γ}
    (h : ∀ a, (f a).map g = (f' a).map g) : (x.bind f).map g = (x.bind f').map g := by
  cases x with
  | none => rfl
  | some a => exact h a

/-- What is written does not depend on whether the run is strict. -/
theorem map_output_sought (args : Arguments) (strict : Bool) :
    ({ args with strict }.sought world s).map Outputs.output =
      (args.sought world s).map Outputs.output := by
  unfold Arguments.sought
  cases args.listFormats with
  | true => simp only [if_true]
  | false =>
    simp only [Bool.false_eq_true, if_false]
    refine map_bind_congr _ fun r => ?_
    cases args.listLanguages with
    | true => simp only [if_true]
    | false =>
      simp only [Bool.false_eq_true, if_false]
      refine map_bind_congr _ fun path => map_bind_congr _ fun language => ?_
      split
      · refine map_bind_congr _ fun text => map_bind_congr _ fun h => ?_
        exact map_output_outputs ..
      · rfl

end Stages

/-- A command line that asks for no list names a text and a language. -/
theorem isSome_of_ofWords {words : List String} {args : Arguments}
    (h : Arguments.ofWords words = .ok args) (highlights : args.Highlights) :
    args.path.isSome ∧ args.language.isSome := by
  unfold Arguments.ofWords at h
  obtain ⟨read, -, h⟩ := Compile.bind_eq_ok h
  obtain ⟨r, -, h⟩ := Compile.bind_eq_ok h
  dsimp only at h
  split at h
  · rename_i hfound
    cases h
    simpa [highlights.1, highlights.2] using hfound
  · cases h

/-- A report that holds all of a highlight, and says whether a strict run is content with it. -/
structure Report.Writes (r : Report) (strict : Bool) (s : Settings) (h : Highlight) : Prop where
  serialized : ∃ written,
    FormatRegistry.standard.serialize (if s.includePlain then h else h.withoutPlain) s.format =
      .ok written ∧ r.output = terminated written
  ends : r.output.toList.getLast? = some '\n'
  status : r.status = if strict && (h.outcome.incomplete || h.outcome.illegal) then 2 else 0

/-- A report that is honest about how a run went. -/
structure Report.Honest (r : Report) (world : World Id) (args : Arguments) : Prop where
  fails : Fails world args → r.status = 1 ∧ r.output = ""
  lists : ¬Fails world args → ¬args.Highlights → r.status = 0
  highlights : ¬Fails world args → args.Highlights →
    ∃ s h, Highlighted world args s h ∧ r.Writes args.strict s h

section Reports

variable {world : World Id} {args : Arguments} {r : Report}

theorem writes_of_shows {s : Settings} {o : Outputs} (settled : args.settled world = some s)
    (highlights : args.Highlights) (sought : args.sought world s = some o)
    (hstatus : r.status = o.status) (houtput : r.output = o.output) :
    ∃ h, Highlighted world args s h ∧ r.Writes args.strict s h := by
  obtain ⟨configured, depth⟩ := settled_eq_some_iff.1 settled
  obtain ⟨registry, path, language, text, h, hregistry, hpath, hlanguage, hhas, htext, hhighlight,
    ho⟩ := (sought_eq_some_iff highlights).1 sought
  obtain ⟨written, o', hwritten, ho', houtput', hstatus'⟩ := exists_outputs hhas args.strict path h
  obtain rfl := Except.ok.inj (ho.symm.trans ho')
  refine ⟨h, ⟨configured, depth, highlights, ?_⟩, ⟨written, hwritten, ?_⟩, ?_, ?_⟩
  · exact ⟨registry, path, language, text, hregistry, hpath, htext, hlanguage, hhighlight⟩
  · rw [houtput, houtput']
  · rw [houtput, houtput']
    exact getLast?_terminated written
  · rw [hstatus, hstatus']
    rfl

theorem honest_of_shows (valid : args.Highlights → args.path.isSome ∧ args.language.isSome)
    (h : r.Shows ((args.settled world).bind (args.sought world))) : r.Honest world args where
  fails hfails := by
    rw [hfails.eq_none] at h
    exact h
  lists hfails hlist := by
    obtain ⟨s, o, settled, sought⟩ := exists_of_not_fails valid hfails
    rw [settled, Option.bind_some, sought] at h
    rw [h.1, status_of_not_highlights hlist sought]
  highlights hfails highlights := by
    obtain ⟨s, o, settled, sought⟩ := exists_of_not_fails valid hfails
    rw [settled, Option.bind_some, sought] at h
    exact ⟨s, writes_of_shows settled highlights sought h.1 h.2⟩

end Reports

/-- What is shown of the same output is the same. -/
theorem output_eq_of_shows {r r' : Report} {o o' : Option Outputs} (h : r.Shows o)
    (h' : r'.Shows o') (same : o.map Outputs.output = o'.map Outputs.output) :
    r.output = r'.output := by
  cases o with
  | none =>
    obtain rfl := Option.map_eq_none_iff.1 same.symm
    rw [h.2, h'.2]
  | some o =>
    obtain ⟨o', rfl, ho⟩ := Option.map_eq_some_iff.1 same.symm
    rw [h.2, h'.2, ho]

theorem run_eq_runWith {world : World Id} {words : List String} {args : Arguments}
    (h : Arguments.ofWords words = .ok args) : run world words = runWith world args := by
  unfold run
  rw [h]

end Command

end Highlighter
