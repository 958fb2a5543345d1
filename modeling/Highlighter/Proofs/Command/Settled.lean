import Highlighter.Proofs.Command.Stages

/-!
What a run shows is what its settings and what it does with them come to. The files of settings are
read beforehand, which makes no difference.
-/

namespace Highlighter

namespace Settings

open Loader

section Congr

variable {read read' : Reader}

theorem found?_congr {paths : List String} (h : ∀ path ∈ paths, read path = read' path) :
    found? read paths = found? read' paths := by
  induction paths with
  | nil => rfl
  | cons path paths ih =>
    obtain ⟨hpath, hpaths⟩ := List.forall_mem_cons.1 h
    rw [found?, found?, hpath, ih hpaths]

theorem Layer.read_congr {layer : Layer}
    (h : ∀ path ∈ candidates layer.path, read path = read' path) :
    layer.read read = layer.read read' := by
  unfold Layer.read
  rw [found?_congr h]

/-- Only the files that may be read matter. -/
theorem Loader.build_congr {l : Loader} (h : ∀ path ∈ l.paths, read path = read' path) :
    l.build read = l.build read' := by
  have hlayers : ∀ (layers : List Layer) (t : Tree),
      (∀ path ∈ layers.flatMap fun layer => candidates layer.path, read path = read' path) →
      layers.foldlM (fun t layer => do (← layer.read read).foldlM addEntry t) t =
        layers.foldlM (fun t layer => do (← layer.read read').foldlM addEntry t) t := by
    intro layers
    induction layers with
    | nil => exact fun _ _ => rfl
    | cons layer layers ih =>
      intro t h
      rw [List.flatMap_cons, List.forall_mem_append] at h
      rw [List.foldlM_cons, List.foldlM_cons, Layer.read_congr h.1]
      exact congrArg _ (funext fun t => ih t h.2)
  unfold build merged
  rw [hlayers l.layers _ h]

end Congr

end Settings

namespace Command

/-- What a report shows of what a run comes to. -/
def Report.Shows (r : Report) : Option Outputs → Prop
  | some o => r.status = o.status ∧ r.output = o.output
  | none => r.status = failure ∧ r.output = ""

theorem report_shows (f : Filter) (warnings : List String) (records : List Record)
    (result : Except String Outputs) :
    (report f warnings records result).Shows result.toOption := by
  cases result <;> exact ⟨rfl, rfl⟩

/-- The settings of a run, unless something is wrong with them. -/
def Arguments.settled (args : Arguments) (world : World Id) : Option Settings :=
  args.loader.toOption.bind fun loader =>
    (loader.build world.contents).toOption.bind fun s =>
      if s.maxDepth > maxDepthLimit then none else some s

theorem toOption_settings (loader : Settings.Loader) (read : Settings.Reader) :
    (settings loader read).toOption = (loader.build read).toOption.bind fun s =>
      if s.maxDepth > maxDepthLimit then none else some s := by
  unfold settings
  cases loader.build read with
  | error e => rfl
  | ok s =>
    change Except.toOption (if s.maxDepth > maxDepthLimit then _ else _) =
      if s.maxDepth > maxDepthLimit then none else some s
    split <;> rfl

/-- Files that were read beforehand are found again. -/
theorem lookup_map_of_mem {α β : Type} [BEq α] [LawfulBEq α] (f : α → β) {xs : List α} {x : α}
    (h : x ∈ xs) : (xs.map fun x => (x, f x)).lookup x = some (f x) := by
  induction xs with
  | nil => cases h
  | cons y ys ih =>
    rw [List.map_cons, List.lookup_cons]
    by_cases hxy : x = y
    · rw [hxy, beq_self_eq_true]
    · rw [beq_false_of_ne hxy]
      exact ih ((List.mem_cons.1 h).resolve_left hxy)

theorem runWith_shows (world : World Id) (args : Arguments) :
    (runWith world args).run.Shows ((args.settled world).bind (args.sought world)) := by
  unfold runWith Arguments.settled
  cases hloader : args.loader with
  | error message => exact ⟨rfl, rfl⟩
  | ok loader =>
    simp only [Id.run_bind, List.idRun_mapM, Id.run_pure]
    have hread : ∀ path ∈ loader.paths,
        ((loader.paths.map fun path => (path, (world.contents path).run)).lookup path).getD
          (.error .notFound) = world.contents path := by
      intro path hpath
      rw [lookup_map_of_mem (fun path => (world.contents path).run) hpath]
      rfl
    have hsettings := toOption_settings loader fun path =>
      ((loader.paths.map fun path => (path, (world.contents path).run)).lookup path).getD
        (.error .notFound)
    rw [Settings.Loader.build_congr hread] at hsettings
    change Report.Shows _ (((loader.build world.contents).toOption.bind _).bind (args.sought world))
    rw [← hsettings]
    cases settings loader _ with
    | error message => exact ⟨rfl, rfl⟩
    | ok s =>
      have hperform := gives_perform world args s []
      change Report.Shows _ (args.sought world s)
      rw [← hperform]
      exact report_shows ..

end Command

end Highlighter
