import Highlighter.Proofs.Keywords.Entries
import Highlighter.Proofs.Sorted

/-!
What a keyword table says. It is filled in the order of the kinds and, within a kind, in the order of
the entries, and a word that has an entry keeps it. So a word is of the first kind that lists it, in
any spelling that the case mode does not tell apart, and of the relevance that the first entry tells
that lists it there.
-/

namespace Highlighter

section Walks

variable {ε α β γ : Type} {f : α → Except ε β} {as : List α}

theorem mapM_cons_eq_error_iff {a : α} {e : ε} : (a :: as).mapM f = .error e ↔
    f a = .error e ∨ (∃ b, f a = .ok b) ∧ as.mapM f = .error e := by
  rw [List.mapM_cons]
  cases f a with
  | error e' => simp [bind, Except.bind]
  | ok b =>
    cases as.mapM f with
    | error e' => simp [bind, Except.bind]
    | ok bs => simp [bind, Except.bind, pure, Except.pure]

/-- A walk is stopped by the first step that fails. -/
theorem mapM_eq_error_iff {e : ε} : as.mapM f = .error e ↔
    ∃ before a behind, as = before ++ a :: behind ∧ (∀ b ∈ before, ∃ c, f b = .ok c) ∧
      f a = .error e := by
  induction as with
  | nil =>
    refine ⟨nofun, ?_⟩
    rintro ⟨before, a, behind, hsplit, -⟩
    simp at hsplit
  | cons a as ih =>
    rw [mapM_cons_eq_error_iff, ih]
    constructor
    · rintro (ha | ⟨ha, before, b, behind, rfl, hbefore, hb⟩)
      · exact ⟨[], a, as, rfl, nofun, ha⟩
      · exact ⟨a :: before, b, behind, rfl, List.forall_mem_cons.2 ⟨ha, hbefore⟩, hb⟩
    · rintro ⟨before, b, behind, hsplit, hbefore, hb⟩
      cases before with
      | nil =>
        cases hsplit
        exact .inl hb
      | cons c before =>
        cases hsplit
        obtain ⟨ha, hbefore⟩ := List.forall_mem_cons.1 hbefore
        exact .inr ⟨ha, before, b, behind, rfl, hbefore, hb⟩

/-- What is found first among the results of a walk is found first along it. -/
theorem findSome?_of_mapM {bs : List β} (h : as.mapM f = .ok bs) (g : β → Option γ) :
    bs.findSome? g = as.findSome? fun a => (f a).toOption.bind g := by
  induction as generalizing bs with
  | nil =>
    cases h
    rfl
  | cons a as ih =>
    rw [List.mapM_cons] at h
    obtain ⟨b, hb, h⟩ := Compile.bind_eq_ok h
    obtain ⟨rest, hrest, h⟩ := Compile.bind_eq_ok h
    cases h
    rw [List.findSome?_cons, List.findSome?_cons, hb, ih hrest]
    rfl

theorem findSome?_flatMap (f : β → Option γ) (g : α → List β) (as : List α) :
    (as.flatMap g).findSome? f = as.findSome? fun a => (g a).findSome? f := by
  induction as with
  | nil => rfl
  | cons a as ih =>
    rw [List.flatMap_cons, List.findSome?_append, ih, List.findSome?_cons]
    cases (g a).findSome? f <;> rfl

end Walks

namespace Keyword

/-- An entry lists a word of this form. -/
def Lists (caseless : Bool) (entry form : String) (relevance : Nat) : Prop :=
  ∃ word, Says entry word relevance ∧ normalize caseless word = form

/-- What an entry under a kind tells about words of some form. -/
def entryFor? (caseless : Bool) (form : String) (kind : Kind) (entry : String) : Option Entry :=
  ( readEntry? caseless kind entry).bind fun item => if form == item.1 then some item.2 else none

variable {caseless : Bool} {kind : Kind} {entry form : String}

theorem entryFor?_eq_some_iff {found : Entry} : entryFor? caseless form kind entry = some found ↔
    found.kind = kind ∧ Lists caseless entry form found.relevance := by
  unfold entryFor?
  simp only [Option.bind_eq_some_iff, readEntry?_eq_some_iff, Option.ite_none_right_eq_some,
    beq_iff_eq]
  constructor
  · rintro ⟨_, ⟨word, relevance, hsays, rfl⟩, rfl, hfound⟩
    cases hfound
    exact ⟨rfl, word, hsays, rfl⟩
  · rintro ⟨rfl, word, hsays, rfl⟩
    exact ⟨_, ⟨word, _, hsays, rfl⟩, rfl, rfl⟩

theorem entryFor?_eq_none_iff : entryFor? caseless form kind entry = none ↔
    ∀ relevance, ¬ Lists caseless entry form relevance := by
  rw [Option.eq_none_iff_forall_ne_some]
  simp only [ne_eq, entryFor?_eq_some_iff, not_and]
  exact ⟨fun h relevance => h ⟨kind, relevance⟩ rfl, fun h found _ => h found.relevance⟩

end Keyword

namespace WordList

open Keyword

/-- Some entry lists a word of this form. -/
def Lists (list : WordList) (caseless : Bool) (form : String) : Prop :=
  ∃ entry ∈ list.entries, ∃ relevance, Keyword.Lists caseless entry form relevance

/-- The first entry that lists a word of this form tells this relevance. -/
def Tells (list : WordList) (caseless : Bool) (form : String) (relevance : Nat) : Prop :=
  ∃ before entry behind, list.entries = before ++ entry :: behind ∧
    Keyword.Lists caseless entry form relevance ∧
    ∀ other ∈ before, ∀ relevance, ¬ Keyword.Lists caseless other form relevance

variable {list : WordList} {caseless : Bool} {kind : Kind} {form : String}

theorem findSome?_eq_none_iff :
    list.entries.findSome? (entryFor? caseless form kind) = none ↔ ¬ list.Lists caseless form := by
  simp [Lists, entryFor?_eq_none_iff]

theorem findSome?_eq_some_iff {found : Entry} :
    list.entries.findSome? (entryFor? caseless form kind) = some found ↔
      found.kind = kind ∧ list.Tells caseless form found.relevance := by
  simp only [List.findSome?_eq_some_iff, entryFor?_eq_some_iff, entryFor?_eq_none_iff]
  constructor
  · rintro ⟨before, entry, behind, hsplit, ⟨hkind, hlists⟩, hbefore⟩
    exact ⟨hkind, before, entry, behind, hsplit, hlists, hbefore⟩
  · rintro ⟨hkind, before, entry, behind, hsplit, hlists, hbefore⟩
    exact ⟨before, entry, behind, hsplit, ⟨hkind, hlists⟩, hbefore⟩

end WordList

namespace KeywordTable

open Keyword

section Filling

variable {entries read : List (String × Entry)} {new : String × Entry} {form : String}

theorem lookup_insert : (insert entries new).lookup form =
    (entries.lookup form).or ([new].lookup form) := by
  unfold insert
  split
  · rename_i hsome
    by_cases hform : form = new.1
    · subst hform
      rw [Option.or_of_isSome hsome]
    · have hnone : [new].lookup form = none := by simp [hform]
      rw [hnone, Option.or_none]
  · rw [List.lookup_append]

/-- The first entry for a word stays. -/
theorem lookup_foldl_insert : (read.foldl insert entries).lookup form =
    (entries.lookup form).or (read.lookup form) := by
  induction read generalizing entries with
  | nil => rw [List.foldl_nil, List.lookup_nil, Option.or_none]
  | cons new read ih =>
    rw [List.foldl_cons, ih, lookup_insert, Option.or_assoc, ← List.lookup_append,
      List.singleton_append]

theorem nodup_foldl_insert (h : (entries.map Prod.fst).Nodup) :
    ((read.foldl insert entries).map Prod.fst).Nodup := by
  induction read generalizing entries with
  | nil => exact h
  | cons new read ih =>
    rw [List.foldl_cons]
    refine ih ?_
    unfold insert
    split
    · exact h
    · rename_i hnone
      have hnew : new.1 ∉ entries.map Prod.fst := by
        intro hmem
        obtain ⟨item, hitem, heq⟩ := List.mem_map.1 hmem
        exact hnone (List.lookup_isSome_iff.2 ⟨item, hitem, beq_iff_eq.2 heq.symm⟩)
      rw [List.map_append, List.map_singleton]
      exact List.perm_middle.nodup_iff.2 (List.nodup_cons.2 ⟨by simpa using hnew, by simpa using h⟩)

end Filling

/-- The entries of keyword sets, in the order in which they are read. -/
def items (sets : List (Kind × WordList)) : List (Kind × String) :=
  sets.flatMap fun set => set.2.entries.map (set.1, ·)

theorem map_snd_items (sets : List (Kind × WordList)) :
    (items sets).map Prod.snd = sets.flatMap (·.2.entries) := by
  simp [items, List.map_flatMap, Function.comp_def]

/-- Reads an entry, or refuses it. -/
def readItem (caseless : Bool) (item : Kind × String) : Except String (String × Entry) :=
  match readEntry? caseless item.1 item.2 with
  | some read => .ok read
  | none => .error item.2

theorem readItem_eq_error_iff {caseless : Bool} {item : Kind × String} {entry : String} :
    readItem caseless item = .error entry ↔ item.2 = entry ∧ Malformed item.2 := by
  rw [← @readEntry?_eq_none_iff caseless item.1]
  unfold readItem
  cases readEntry? caseless item.1 item.2 <;> simp

theorem exists_readItem_iff {caseless : Bool} {item : Kind × String} :
    (∃ read, readItem caseless item = .ok read) ↔ ¬ Malformed item.2 := by
  rw [← @readEntry?_eq_none_iff caseless item.1]
  unfold readItem
  cases readEntry? caseless item.1 item.2 <;> simp

section Tables

variable {sets : List (Kind × WordList)} {caseless : Bool} {table : KeywordTable}

/-- A table is filled with what the entries say, one after the other. -/
theorem ofLists_eq (sets : List (Kind × WordList)) (caseless : Bool) : ofLists sets caseless =
    ((items sets).mapM (readItem caseless)).map fun read => ⟨caseless, read.foldl insert []⟩ := by
  change ((items sets).mapM (readItem caseless) >>= fun read => pure _) = _
  cases (items sets).mapM (readItem caseless) <;> rfl

/-- The first entry that cannot be read is refused. -/
theorem ofLists_eq_error_iff {entry : String} : ofLists sets caseless = .error entry ↔
    ∃ before behind, sets.flatMap (·.2.entries) = before ++ entry :: behind ∧
      (∀ other ∈ before, ¬ Malformed other) ∧ Malformed entry := by
  have hwalk : ofLists sets caseless = .error entry ↔
      (items sets).mapM (readItem caseless) = .error entry := by
    rw [ofLists_eq]
    cases (items sets).mapM (readItem caseless) <;> simp [Except.map]
  rw [hwalk, mapM_eq_error_iff, ← map_snd_items]
  simp only [readItem_eq_error_iff, exists_readItem_iff]
  constructor
  · rintro ⟨before, item, behind, hsplit, hbefore, rfl, hmalformed⟩
    refine ⟨before.map Prod.snd, behind.map Prod.snd, by simp [hsplit], ?_, hmalformed⟩
    intro other hother
    obtain ⟨item', hitem', rfl⟩ := List.mem_map.1 hother
    exact hbefore item' hitem'
  · rintro ⟨before, behind, hsplit, hbefore, hmalformed⟩
    obtain ⟨before', rest, hitems, rfl, hrest⟩ := List.map_eq_append_iff.1 hsplit
    obtain ⟨item, behind', rfl, rfl, -⟩ := List.map_eq_cons_iff.1 hrest
    exact ⟨before', item, behind', hitems, fun b hb => hbefore b.2 (List.mem_map_of_mem hb), rfl,
      hmalformed⟩

theorem exists_read (h : ofLists sets caseless = .ok table) :
    ∃ read, (items sets).mapM (readItem caseless) = .ok read ∧
      ⟨caseless, read.foldl insert []⟩ = table := by
  rw [ofLists_eq] at h
  cases hread : (items sets).mapM (readItem caseless) with
  | error entry =>
    rw [hread] at h
    cases h
  | ok read =>
    rw [hread] at h
    exact ⟨read, rfl, Except.ok.inj h⟩

/-- What a table has for a form comes first among the entries of the sets. -/
theorem lookup_of_ofLists (h : ofLists sets caseless = .ok table) (form : String) :
    table.entries.lookup form = sets.findSome? fun set =>
      set.2.entries.findSome? (entryFor? caseless form set.1) := by
  obtain ⟨read, hread, rfl⟩ := exists_read h
  rw [lookup_foldl_insert, List.lookup_nil, Option.none_or, List.lookup_eq_findSome?,
    findSome?_of_mapM hread, items, findSome?_flatMap]
  congr 1
  funext set
  rw [List.findSome?_map]
  congr 1
  funext entry
  simp only [Function.comp_apply, readItem, entryFor?]
  cases readEntry? caseless set.1 entry <;> rfl

theorem isSome_lookup_iff (h : ofLists sets caseless = .ok table) {form : String} :
    (table.entries.lookup form).isSome = true ↔ ∃ set ∈ sets, set.2.Lists caseless form := by
  rw [lookup_of_ofLists h, Option.isSome_iff_ne_none, ne_eq, List.findSome?_eq_none_iff]
  simp only [WordList.findSome?_eq_none_iff, Classical.not_forall, Classical.not_not, exists_prop]

/-- The first kind that lists a word comes before all others that do. -/
theorem lookup_eq_some_iff (sorted : sets.Pairwise (·.1.rank < ·.1.rank))
    (h : ofLists sets caseless = .ok table) {form : String} {found : Entry} :
    table.entries.lookup form = some found ↔ ∃ list, (found.kind, list) ∈ sets ∧
      (∀ set ∈ sets, set.2.Lists caseless form → found.kind.rank ≤ set.1.rank) ∧
      list.Tells caseless form found.relevance := by
  rw [lookup_of_ofLists h, List.findSome?_eq_some_iff]
  simp only [WordList.findSome?_eq_some_iff, WordList.findSome?_eq_none_iff]
  constructor
  · rintro ⟨before, ⟨kind, list⟩, behind, rfl, ⟨rfl, htells⟩, hbefore⟩
    refine ⟨list, by simp, fun set hset hlists => ?_, htells⟩
    rcases List.mem_append.1 hset with hset | hset
    · exact absurd hlists (hbefore set hset)
    · rcases List.mem_cons.1 hset with rfl | hset
      · exact Nat.le_refl _
      · have hbehind := (List.pairwise_append.1 sorted).2.1
        exact Nat.le_of_lt (List.rel_of_pairwise_cons hbehind hset)
  · rintro ⟨list, hmem, hleast, htells⟩
    obtain ⟨before, behind, rfl⟩ := List.append_of_mem hmem
    refine ⟨before, _, behind, rfl, ⟨rfl, htells⟩, fun set hset hlists => ?_⟩
    have hlt := (List.pairwise_append.1 sorted).2.2 set hset _ (List.mem_cons_self ..)
    exact absurd (hleast set (by simp [hset]) hlists) (Nat.not_le.2 hlt)

theorem nodup_of_ofLists (h : ofLists sets caseless = .ok table) :
    (table.entries.map Prod.fst).Nodup := by
  obtain ⟨read, -, rfl⟩ := exists_read h
  exact nodup_foldl_insert List.nodup_nil

end Tables

/-- What a table tells about words, and how many it has. -/
structure Means (sets : List (Kind × WordList)) (caseless : Bool) (table : KeywordTable) : Prop where
  /-- A word is known if a word of the same form is listed. -/
  known : ∀ word, (table.find? word).isSome = true ↔
    ∃ set ∈ sets, set.2.Lists caseless (normalize caseless word)
  /-- It is of the first kind that lists one, and as relevant as the first entry there tells. -/
  first : ∀ word found, table.find? word = some found ↔ ∃ list, (found.kind, list) ∈ sets ∧
    (∀ set ∈ sets, set.2.Lists caseless (normalize caseless word) →
      found.kind.rank ≤ set.1.rank) ∧
    list.Tells caseless (normalize caseless word) found.relevance
  /-- Words of one form count once. -/
  size : ∃ forms : List String, forms.Nodup ∧ table.size = forms.length ∧
    ∀ form, form ∈ forms ↔ ∃ set ∈ sets, set.2.Lists caseless form

theorem means_of_ofLists {sets : List (Kind × WordList)} {caseless : Bool} {table : KeywordTable}
    (sorted : sets.Pairwise (·.1.rank < ·.1.rank)) (h : ofLists sets caseless = .ok table) :
    Means sets caseless table := by
  have hfind : ∀ word, table.find? word = table.entries.lookup (normalize caseless word) := by
    intro word
    rw [find?, key, caseless_of_ofLists h]
  refine
    { known := fun word => ?_
      first := fun word found => ?_
      size := ⟨table.entries.map Prod.fst, nodup_of_ofLists h, by rw [size, List.length_map],
        fun form => ?_⟩ }
  · rw [hfind, isSome_lookup_iff h]
  · rw [hfind, lookup_eq_some_iff sorted h]
  · rw [← isSome_lookup_iff h, List.lookup_isSome_iff, List.mem_map]
    simp only [beq_iff_eq, eq_comm (a := form)]

theorem exists_error_iff {sets : List (Kind × WordList)} {caseless : Bool} :
    (∃ entry, ofLists sets caseless = .error entry) ↔
      ∃ set ∈ sets, ∃ entry ∈ set.2.entries, Malformed entry := by
  have hread : (∃ entry, ofLists sets caseless = .error entry) ↔
      ¬ ∃ table, ofLists sets caseless = .ok table := by
    cases ofLists sets caseless <;> simp
  rw [hread, exists_ofLists_iff]
  simp only [← not_malformed_iff, Classical.not_forall, Classical.not_not, exists_prop]

theorem ofLists_congr {sets sets' : List (Kind × WordList)} (caseless : Bool)
    (h : sets'.map (fun set => (set.1, set.2.entries)) = sets.map fun set => (set.1, set.2.entries)) :
    ofLists sets' caseless = ofLists sets caseless := by
  have hitems : ∀ sets : List (Kind × WordList), items sets =
      (sets.map fun set => (set.1, set.2.entries)).flatMap fun set => set.2.map (set.1, ·) := by
    intro sets
    rw [items, List.flatMap_map]
  rw [ofLists_eq, ofLists_eq, hitems, hitems, h]

/-- What a keyword table says, for all keyword sets. They can be read unless there is an entry that
cannot be, and the first such entry is the one that is refused. The table tells of the words in them
what the first kind that lists them tells first. It depends on nothing but the entries of each kind,
however they are spread over texts. -/
theorem ofLists_meaning {sets : List (Kind × WordList)} (sorted : sets.Pairwise (·.1.rank < ·.1.rank))
    (caseless : Bool) :
    ((∃ entry, ofLists sets caseless = .error entry) ↔
      ∃ set ∈ sets, ∃ entry ∈ set.2.entries, Malformed entry) ∧
    (∀ entry, ofLists sets caseless = .error entry ↔
      ∃ before behind, sets.flatMap (·.2.entries) = before ++ entry :: behind ∧
        (∀ other ∈ before, ¬ Malformed other) ∧ Malformed entry) ∧
    (∀ table, ofLists sets caseless = .ok table → Means sets caseless table) ∧
    (∀ sets', (sets'.map fun set => (set.1, set.2.entries)) =
        (sets.map fun set => (set.1, set.2.entries)) →
      ofLists sets' caseless = ofLists sets caseless) ∧
    ofLists (sets.map fun set => (set.1, set.2.inOneText)) caseless = ofLists sets caseless := by
  refine ⟨exists_error_iff, fun entry => ofLists_eq_error_iff,
    fun table h => means_of_ofLists sorted h, fun sets' h => ofLists_congr caseless h, ?_⟩
  refine ofLists_congr caseless ?_
  rw [List.map_map]
  simp only [Function.comp_def, WordList.entries_inOneText]

/-- Words that are listed for two kinds, in several spellings, with a weight and without. -/
theorem ofLists_shared :
    let sets : List (Kind × WordList) :=
      [(.keyword, .text "IF|5 For if|3"), (.builtIn, .list ["for|9", "put Put|7"])]
    ∃ table, ofLists sets true = .ok table ∧
      ofLists [(.keyword, .text "IF|5 For if|3"), (.builtIn, .text "for|9 put Put|7")] true =
        .ok table ∧
      table.find? "FOR" = some ⟨.keyword, 0⟩ ∧
      ofLists [(.keyword, .text "IF|5 For if|"), (.builtIn, .text "|1")] true = .error "if|" := by
  intro sets
  have hread : (ofLists sets true).toOption.isSome = true := by decide +kernel
  obtain ⟨-, -, hmeans, -, htexts⟩ :=
    ofLists_meaning (show sets.Pairwise (·.1.rank < ·.1.rank) by decide) true
  obtain ⟨-, hrefused, -⟩ := @ofLists_meaning
    [(.keyword, .text "IF|5 For if|"), (.builtIn, .text "|1")] (by decide) true
  cases h : ofLists sets true with
  | error entry =>
    rw [h] at hread
    cases hread
  | ok table =>
    have hfor : entryFor? true (normalize true "FOR") .keyword "For" = some ⟨.keyword, 0⟩ := by
      decide +kernel
    have hif : entryFor? true (normalize true "FOR") .keyword "IF|5" = none := by decide +kernel
    have hfirst : ∀ set ∈ sets, Kind.rank .keyword ≤ set.1.rank := by decide
    refine ⟨table, rfl, htexts.trans h, ?_, ?_⟩
    · refine ((hmeans table h).first "FOR" _).2 ⟨.text "IF|5 For if|3", List.mem_cons_self ..,
        fun set hset _ => hfirst set hset, ["IF|5"], "For", ["if|3"], by decide +kernel,
        (entryFor?_eq_some_iff.1 hfor).2, ?_⟩
      exact List.forall_mem_singleton.2 (entryFor?_eq_none_iff.1 hif)
    · have hgood : ∀ entry ∈ ["IF|5", "For"], ¬ Malformed entry := by
        simp only [← @readEntry?_eq_none_iff true .keyword]
        decide +kernel
      have hbad : Malformed "if|" := (@readEntry?_eq_none_iff true .keyword _).1 (by decide +kernel)
      exact (hrefused "if|").2 ⟨["IF|5", "For"], ["|1"], by decide +kernel, hgood, hbad⟩

end KeywordTable

end Highlighter
