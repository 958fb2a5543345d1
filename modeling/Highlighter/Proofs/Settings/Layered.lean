import Highlighter.Proofs.Settings.Apart
import Highlighter.Proofs.Settings.Layers
import Mathlib.Data.List.Basic

/-!
Settings from any sequence of calls to a loader. Each setting is told by itself, from its last
override if there is one, else from the last file that gives it, else from the defaults; and a build
fails just if a file is missing that has to exist or one of these values cannot be read.
-/

namespace Highlighter.Settings

open Settings.Tree Loader

/-- A call to a loader. -/
inductive Call
  | file (path : String)
  | optionalFile (path : String)
  | override (setting : Setting) (value : Tree)

namespace Call

def layer? : Call → Option Layer
  | file path => some ⟨path, true⟩
  | optionalFile path => some ⟨path, false⟩
  | override .. => none

/-- The value that a call puts over all others of a setting. -/
def value? (p : Setting) : Call → Option Tree
  | override q value => if q = p then some value else none
  | _ => none

end Call

def Loader.call (l : Loader) : Call → Except Error Loader
  | .file path => .ok (l.withFile path)
  | .optionalFile path => .ok (l.withOptionalFile path)
  | .override p value => l.set p.key value

/-- A new loader after some calls. -/
def Loader.ofCalls (calls : List Call) : Except Error Loader := calls.foldlM Loader.call {}

section Given

variable (read : Reader) (calls : List Call) (p : Setting)

/-- What files give for a setting, in the order in which they were added. -/
def fromFiles : List Tree :=
  (calls.filterMap Call.layer?).flatMap fun layer => (entriesIn read layer.path).flatMap p.given

/-- The last override of a setting. -/
def override? : Option Tree := (calls.filterMap (Call.value? p)).getLast?

/-- What is given last for a setting: by an override, else by a file, else by the defaults. -/
def latest : Tree := (override? calls p).getD ((fromFiles read calls p).getLast?.getD p.default)

/-- What a setting comes to. Everything that is given for it goes over what was given before. -/
def winner : Tree :=
  (fromFiles read calls p ++ (override? calls p).toList).foldl upon p.default

end Given

/-- Whether a file is missing that has to exist. -/
def Missing (read : Reader) (calls : List Call) : Prop :=
  ∃ path, .file path ∈ calls ∧ Absent read path

theorem foldl_upon_of_getLast? {values : List Tree} {last old : Tree}
    (h : values.getLast? = some last) (hlast : last.isTable = false) :
    values.foldl upon old = last := by
  obtain ⟨front, rfl⟩ := List.getLast?_eq_some_iff.1 h
  rw [List.foldl_append, List.foldl_cons, List.foldl_nil, upon_of_not_isTable hlast]

/-- Only tables are merged. -/
theorem winner_eq_latest {read : Reader} {calls : List Call} {p : Setting}
    (h : (latest read calls p).isTable = false) : winner read calls p = latest read calls p := by
  unfold winner
  unfold latest at h ⊢
  cases hoverride : override? calls p with
  | some value =>
    rw [hoverride] at h
    exact foldl_upon_of_getLast? List.getLast?_concat h
  | none =>
    rw [hoverride, Option.getD_none] at h
    rw [Option.toList_none, List.append_nil, Option.getD_none]
    cases hfiles : (fromFiles read calls p).getLast? with
    | none =>
      rw [List.getLast?_eq_none_iff.1 hfiles]
      rfl
    | some last =>
      rw [hfiles] at h
      exact foldl_upon_of_getLast? hfiles h

theorem read_winner_of_ungiven {read : Reader} {calls : List Call} {p : Setting}
    (files : fromFiles read calls p = []) (overrides : override? calls p = none) :
    p.read (winner read calls p) = .ok (p.of defaults) := by
  unfold winner
  rw [files, overrides]
  exact p.read_default

/-- The overrides of a setting in a loader. -/
def valuesFor (p : Setting) (overrides : List (Path × Tree)) : List Tree :=
  overrides.filterMap fun e => if e.1 = p.path then some e.2 else none

/-- A loader that holds what calls have told it. -/
structure Loader.Gathers (l : Loader) (calls : List Call) : Prop where
  layers : l.layers = calls.filterMap Call.layer?
  owned : ∀ e ∈ l.overrides, ∃ p : Setting, e.1 = p.path
  values : ∀ p, valuesFor p l.overrides = (override? calls p).toList

theorem valuesFor_cons (p q : Setting) (value : Tree) (overrides : List (Path × Tree)) :
    valuesFor p ((q.path, value) :: overrides) =
      (if q = p then [value] else []) ++ valuesFor p overrides := by
  unfold valuesFor
  rw [List.filterMap_cons]
  by_cases hq : q = p <;> simp [Setting.path_inj, hq]

/-- An override takes the place of an earlier one of the same setting. -/
theorem valuesFor_set (p q : Setting) (overrides : List (Path × Tree)) (value : Tree) :
    valuesFor p (overrides.filter (·.1 != q.path) ++ [(q.path, value)]) =
      if q = p then [value] else valuesFor p overrides := by
  unfold valuesFor
  rw [List.filterMap_append, List.filterMap_filter]
  -- What is filtered out is of no other setting than `q`.
  by_cases hq : q = p
  · have hnone : ∀ e ∈ overrides, (if (e.1 != q.path) = true then
        if e.1 = p.path then some e.2 else none else none) = none := by
      intro e _
      by_cases he : e.1 = p.path <;> simp [he, hq]
    rw [List.filterMap_eq_nil_iff.2 hnone, if_pos hq, hq]
    simp
  · have hsame : ∀ e ∈ overrides, (if (e.1 != q.path) = true then
        if e.1 = p.path then some e.2 else none else none) =
          if e.1 = p.path then some e.2 else none := by
      intro e _
      by_cases he : e.1 = p.path <;> simp [he, Setting.path_inj, Ne.symm hq]
    rw [List.filterMap_congr hsame, if_neg hq]
    simp [Setting.path_inj, hq]

theorem override?_concat (calls : List Call) (c : Call) (p : Setting) :
    override? (calls ++ [c]) p = (c.value? p).or (override? calls p) := by
  unfold override?
  rw [List.filterMap_append, List.filterMap_cons, List.filterMap_nil]
  cases c.value? p with
  | none => simp
  | some value => simp

theorem Loader.gathers_new : Loader.Gathers {} [] :=
  ⟨rfl, List.forall_mem_nil _, fun _ => rfl⟩

/-- What a call tells a loader. -/
theorem Loader.Gathers.call {l : Loader} {calls : List Call} (h : l.Gathers calls) (c : Call) :
    ∃ l', l.call c = .ok l' ∧ l'.Gathers (calls ++ [c]) := by
  cases c with
  | file path | optionalFile path =>
    refine ⟨_, rfl, ?_, h.owned, fun p => ?_⟩
    · rw [List.filterMap_append, ← h.layers]
      rfl
    · rw [override?_concat]
      exact h.values p
  | override q value =>
    refine ⟨{ l with overrides := l.overrides.filter (·.1 != q.path) ++ [(q.path, value)] },
      ?_, ?_, ?_, fun p => ?_⟩
    · rw [Loader.call, Loader.set, q.ofString?_key]
    · rw [List.filterMap_append, ← h.layers]
      exact (List.append_nil _).symm
    · intro e he
      rcases List.mem_append.1 he with he | he
      · exact h.owned e (List.mem_filter.1 he).1
      · obtain rfl := List.mem_singleton.1 he
        exact ⟨q, rfl⟩
    · rw [valuesFor_set, h.values, override?_concat, Call.value?]
      split <;> rfl

/-- No call fails, and the loader holds what all of them have told it. -/
theorem Loader.exists_ofCalls (calls : List Call) :
    ∃ l, Loader.ofCalls calls = .ok l ∧ l.Gathers calls := by
  have run : ∀ (rest done : List Call) (l : Loader), l.Gathers done →
      ∃ l', rest.foldlM Loader.call l = .ok l' ∧ l'.Gathers (done ++ rest) := by
    intro rest
    induction rest with
    | nil => exact fun done l h => ⟨l, rfl, by rwa [List.append_nil]⟩
    | cons c rest ih =>
      intro done l h
      obtain ⟨l₁, hl₁, h₁⟩ := h.call c
      obtain ⟨l₂, hl₂, h₂⟩ := ih _ l₁ h₁
      refine ⟨l₂, ?_, ?_⟩
      · rw [List.foldlM_cons, hl₁]
        exact hl₂
      · rwa [List.append_assoc, List.singleton_append] at h₂
  exact run calls [] {} gathers_new

section Merge

variable {t : Tree} {f : Setting → Tree} {read : Reader}

theorem Tree.Holds.overrides {overrides : List (Path × Tree)} (h : t.Holds f)
    (owned : ∀ e ∈ overrides, ∃ p : Setting, e.1 = p.path) :
    ∃ t', overrides.foldlM (fun t (path, value) => Tree.setAt value path t) t = .ok t' ∧
      t'.Holds fun p => (valuesFor p overrides).foldl upon (f p) := by
  induction overrides generalizing t f with
  | nil => exact ⟨t, rfl, h⟩
  | cons e overrides ih =>
    obtain ⟨path, value⟩ := e
    obtain ⟨⟨q, hq⟩, howned⟩ := List.forall_mem_cons.1 owned
    obtain rfl : path = q.path := hq
    obtain ⟨t₁, ht₁, h₁⟩ := h.setAt q value
    obtain ⟨t₂, ht₂, h₂⟩ := ih h₁ howned
    refine ⟨t₂, ?_, ?_⟩
    · rw [List.foldlM_cons]
      dsimp only
      rw [ht₁]
      exact ht₂
    · simpa only [valuesFor_cons, List.foldl_append] using h₂

/-- What the files do, one after the other. -/
theorem Tree.Holds.layers {layers : List Layer} (h : t.Holds f)
    (orderly : ∀ layer ∈ layers, Orderly read layer.path)
    (present : ∀ layer ∈ layers, layer.required = true → ¬Absent read layer.path) :
    ∃ t', layers.foldlM (fun t layer => do (← layer.read read).foldlM Loader.addEntry t) t =
        .ok t' ∧
      t'.Holds fun p => (layers.flatMap fun layer =>
        (entriesIn read layer.path).flatMap p.given).foldl upon (f p) := by
  induction layers generalizing t f with
  | nil => exact ⟨t, rfl, h⟩
  | cons layer layers ih =>
    obtain ⟨hlayer, horderly⟩ := List.forall_mem_cons.1 orderly
    obtain ⟨hthere, hpresent⟩ := List.forall_mem_cons.1 present
    obtain ⟨t₁, ht₁, h₁⟩ := h.addEntries hlayer.proper
    obtain ⟨t₂, ht₂, h₂⟩ := ih h₁ horderly hpresent
    refine ⟨t₂, ?_, ?_⟩
    · rw [List.foldlM_cons, Layer.read_eq_entriesIn hlayer hthere]
      change (List.foldlM Loader.addEntry t _ >>= _) = _
      rw [ht₁]
      exact ht₂
    · simpa only [List.flatMap_cons, List.foldl_append] using h₂

/-- A file that is missing is noticed, whatever was added before. -/
theorem Tree.Holds.error_of_absent {layers : List Layer} (h : t.Holds f)
    (orderly : ∀ layer ∈ layers, Orderly read layer.path)
    (missing : ∃ layer ∈ layers, layer.required = true ∧ Absent read layer.path) :
    ∃ e, layers.foldlM (fun t layer => do (← layer.read read).foldlM Loader.addEntry t) t =
      .error e := by
  induction layers generalizing t f with
  | nil =>
    obtain ⟨_, hmem, -⟩ := missing
    cases hmem
  | cons layer layers ih =>
    obtain ⟨hlayer, horderly⟩ := List.forall_mem_cons.1 orderly
    rw [List.foldlM_cons]
    by_cases hhere : layer.required = true ∧ Absent read layer.path
    · rw [Layer.read_of_absent hhere.2 hhere.1]
      exact ⟨_, rfl⟩
    · -- This file is there or may be missing, so the walk goes on to the one that is not there.
      obtain ⟨t₁, ht₁, h₁⟩ := h.addEntries hlayer.proper
      rw [Layer.read_eq_entriesIn hlayer fun required absent => hhere ⟨required, absent⟩]
      change ∃ e, (List.foldlM Loader.addEntry t _ >>= _) = _
      rw [ht₁]
      refine ih h₁ horderly ?_
      obtain ⟨other, hmem, hother⟩ := missing
      rcases List.mem_cons.1 hmem with rfl | hmem
      · exact absurd hother hhere
      · exact ⟨other, hmem, hother⟩

end Merge

theorem missing_iff {read : Reader} {calls : List Call} : Missing read calls ↔
    ∃ layer ∈ calls.filterMap Call.layer?, layer.required = true ∧ Absent read layer.path := by
  constructor
  · rintro ⟨path, hmem, absent⟩
    exact ⟨⟨path, true⟩, List.mem_filterMap.2 ⟨_, hmem, rfl⟩, rfl, absent⟩
  · rintro ⟨layer, hmem, required, absent⟩
    obtain ⟨c, hc, hlayer⟩ := List.mem_filterMap.1 hmem
    cases c with
    | file path =>
      cases hlayer
      exact ⟨path, hc, absent⟩
    | optionalFile path =>
      cases hlayer
      cases required
    | override => cases hlayer

instance (read : Reader) (calls : List Call) : Decidable (Missing read calls) :=
  decidable_of_iff _ missing_iff.symm

/-- Settings each of which is just what was given last. -/
def AllLatest (read : Reader) (calls : List Call) (s : Settings) : Prop :=
  ¬Missing read calls ∧ ∀ p : Setting, p.read (latest read calls p) = .ok (p.of s)

instance (read : Reader) (calls : List Call) (s : Settings) : Decidable (AllLatest read calls s) :=
  inferInstanceAs (Decidable (_ ∧ _))

/-- What a loader makes of the calls to it: it succeeds just if no file is missing and every value
can be read, and then each setting is its value. -/
structure Loader.Layered (l : Loader) (read : Reader) (calls : List Call) : Prop where
  build_eq_ok_iff : ∀ s, l.build read = .ok s ↔
    ¬Missing read calls ∧ ∀ p : Setting, p.read (winner read calls p) = .ok (p.of s)
  build_eq_error_iff : (∃ e, l.build read = .error e) ↔
    Missing read calls ∨ ∃ (p : Setting) (e : Error), p.read (winner read calls p) = .error e
  /-- The value is the one given last, except that tables are merged. -/
  winner_eq : ∀ p, (latest read calls p).isTable = false →
    winner read calls p = latest read calls p
  /-- A setting that nothing is given for is the default one. -/
  ungiven : ∀ p : Setting, fromFiles read calls p = [] → override? calls p = none →
    p.read (winner read calls p) = .ok (p.of defaults)

section Build

variable {l : Loader} {read : Reader} {calls : List Call}

theorem Loader.Gathers.merged_eq_ok (h : l.Gathers calls)
    (orderly : ∀ layer ∈ calls.filterMap Call.layer?, Orderly read layer.path)
    (present : ¬Missing read calls) :
    ∃ t, l.merged read = .ok t ∧ t.Holds (winner read calls) := by
  rw [missing_iff] at present
  obtain ⟨t₁, ht₁, h₁⟩ := holds_defaults.layers orderly fun layer hmem required absent =>
    present ⟨layer, hmem, required, absent⟩
  obtain ⟨t₂, ht₂, h₂⟩ := h₁.overrides h.owned
  refine ⟨t₂, ?_, ?_⟩
  · unfold merged
    rw [h.layers, ht₁]
    exact ht₂
  · simp only [h.values, ← List.foldl_append] at h₂
    exact h₂

theorem Loader.Gathers.merged_eq_error (h : l.Gathers calls)
    (orderly : ∀ layer ∈ calls.filterMap Call.layer?, Orderly read layer.path)
    (missing : Missing read calls) : ∃ e, l.merged read = .error e := by
  obtain ⟨e, he⟩ := holds_defaults.error_of_absent orderly (missing_iff.1 missing)
  refine ⟨e, ?_⟩
  unfold merged
  rw [h.layers, he]
  rfl

end Build

/-- A folder of two files of settings. -/
def twoFiles (a b : String) : Reader :=
  Folder.read ⟨[(["a.toml"], a.toUTF8), (["b.toml"], b.toUTF8)]⟩

end Highlighter.Settings
