import Highlighter.Proofs.Json.Scalars

/-!
Documents in JSON. A document that is made of texts, small numbers, lists and maps with texts as keys
is read back from what is written of it, unless it is nested deeper than the reader goes.
-/

namespace Highlighter

mutual

/-- How deep lists and maps are nested in a document. -/
def Doc.nesting : Doc → Nat
  | .list items _ => Doc.nestingOfItems items + 1
  | .map entries _ => Doc.nestingOfEntries entries + 1
  | .tagged _ doc => Doc.nesting doc
  | .scalar _ | .word _ | .fault => 0

def Doc.nestingOfItems : List Doc → Nat
  | [] => 0
  | doc :: docs => max (Doc.nesting doc) (Doc.nestingOfItems docs)

def Doc.nestingOfEntries : List (Doc × Doc) → Nat
  | [] => 0
  | (_, value) :: rest => max (Doc.nesting value) (Doc.nestingOfEntries rest)

end

namespace Doc

theorem nestingOfItems_le_iff {docs : List Doc} {n : Nat} :
    nestingOfItems docs ≤ n ↔ ∀ doc ∈ docs, doc.nesting ≤ n := by
  induction docs with
  | nil => simp [nestingOfItems]
  | cons doc docs ih => rw [nestingOfItems, Nat.max_le, ih, List.forall_mem_cons]

theorem nestingOfEntries_le_iff {entries : List (Doc × Doc)} {n : Nat} :
    nestingOfEntries entries ≤ n ↔ ∀ entry ∈ entries, entry.2.nesting ≤ n := by
  induction entries with
  | nil => simp [nestingOfEntries]
  | cons entry entries ih => rw [nestingOfEntries, Nat.max_le, ih, List.forall_mem_cons]

theorem nesting_ofList_le_iff {items : List Doc} {n : Nat} :
    (ofList items).nesting ≤ n + 1 ↔ ∀ doc ∈ items, doc.nesting ≤ n := by
  rw [ofList, nesting, Nat.add_le_add_iff_right, nestingOfItems_le_iff]

theorem nesting_ofFields_le_iff {fields : List (String × Doc)} {n : Nat} :
    (ofFields fields).nesting ≤ n + 1 ↔ ∀ field ∈ fields, field.2.nesting ≤ n := by
  rw [ofFields, nesting, Nat.add_le_add_iff_right, nestingOfEntries_le_iff, List.forall_mem_map]

end Doc

namespace Json

/-- A document that JSON tells from every other: it is whole, and its keys are texts. -/
inductive Plain : Doc → Prop
  | scalar {value : Scalar} (plain : IsPlain value) : Plain (.scalar value)
  | ofList {items : List Doc} (plain : ∀ doc ∈ items, Plain doc) : Plain (.ofList items)
  | ofFields {fields : List (String × Doc)} (plain : ∀ field ∈ fields, Plain field.2) :
      Plain (.ofFields fields)

theorem plain_string (s : String) : Plain (.string s) := .scalar trivial

section Texts

/-- An entry of a map on one line. -/
def fieldText (field : String × Doc) : String := quote field.1 ++ ":" ++ compact field.2

/-- Parts with commas between them. -/
def joined (parts : List String) : List Char := (",".intercalate parts).toList

theorem joined_singleton (part : String) : joined [part] = part.toList := by
  rw [joined, String.intercalate_singleton]

theorem joined_cons_cons (part next : String) (parts : List String) :
    joined (part :: next :: parts) = part.toList ++ ',' :: joined (next :: parts) := by
  rw [joined, String.intercalate_cons_cons, joined]
  simp

/-- The first of several parts stands in front. -/
theorem exists_joined_cons (part : String) (parts : List String) :
    ∃ behind, joined (part :: parts) = part.toList ++ behind := by
  cases parts with
  | nil => exact ⟨[], by rw [joined_singleton, List.append_nil]⟩
  | cons next parts => exact ⟨_, joined_cons_cons part next parts⟩

theorem compactItems_eq_map (docs : List Doc) : compactItems docs = docs.map compact := by
  induction docs with
  | nil => rfl
  | cons doc docs ih => rw [compactItems, ih, List.map_cons]

theorem compactEntries_eq_map (fields : List (String × Doc)) :
    compactEntries (fields.map fun (key, value) => (.string key, value)) =
      fields.map fieldText := by
  induction fields with
  | nil => rfl
  | cons field fields ih =>
    rw [List.map_cons, compactEntries, ih, List.map_cons]
    rfl

theorem toList_compact_ofList (items : List Doc) :
    (compact (.ofList items)).toList = '[' :: (joined (items.map compact) ++ [']']) := by
  rw [Doc.ofList, compact, compactItems_eq_map, String.toList_append, String.toList_append]
  rfl

theorem toList_compact_ofFields (fields : List (String × Doc)) :
    (compact (.ofFields fields)).toList =
      '\x7b' :: (joined (fields.map fieldText) ++ ['\x7d']) := by
  rw [Doc.ofFields, compact, compactEntries_eq_map, String.toList_append, String.toList_append]
  rfl

theorem toList_fieldText (name : String) (value : Doc) :
    (fieldText (name, value)).toList = (quote name).toList ++ ':' :: (compact value).toList := by
  rw [fieldText, String.toList_append, String.toList_append, List.append_assoc]
  rfl

theorem length_le_fieldText (field : String × Doc) :
    (compact field.2).toList.length ≤ (fieldText field).toList.length := by
  rw [toList_fieldText, List.length_append, List.length_cons]
  omega

/-- The name of a field is read up to the colon behind it. -/
theorem string?_fieldText (name : String) (value : Doc) (rest : List Char) :
    ∃ body, (fieldText (name, value)).toList ++ rest = '"' :: body ∧
      string? body.length [] body = some (name, ':' :: ((compact value).toList ++ rest)) := by
  obtain ⟨body, hbody, hread⟩ := string?_quote name (':' :: ((compact value).toList ++ rest))
  refine ⟨body, ?_, hread⟩
  rw [toList_fieldText, List.append_assoc, List.cons_append, hbody]

end Texts

theorem skip_cons {c : Char} (h : isBlank c = false) (rest : List Char) :
    skip (c :: rest) = c :: rest :=
  List.dropWhile_cons_of_neg (by simp [h])

section Steps

variable {fuel depth : Nat} {c : Char} {cs rest : List Char} {doc : Doc}

theorem value_scalar {s : Scalar} (hbegins : Begins cs) (h : scalar? cs = some (s, rest)) :
    value (fuel + 1) depth cs = (.scalar s, some rest) := by
  obtain ⟨c, behind, rfl, hblank, hlist, -, hmap⟩ := hbegins
  have hskip := skip_cons hblank behind
  rw [value, hskip, h]
  · intro rest heq
    rw [hskip] at heq
    exact absurd (List.cons.inj heq).1 hlist
  · intro rest heq
    rw [hskip] at heq
    exact absurd (List.cons.inj heq).1 hmap

theorem value_list {docs : List Doc} (hblank : isBlank c = false) (hend : c ≠ ']')
    (h : items fuel depth (c :: cs) = (docs, some rest)) :
    value (fuel + 1) (depth + 1) ('[' :: c :: cs) = (.list docs true, some rest) := by
  have hskip := skip_cons hblank cs
  simp [value, skip_cons, isBlank, hskip, hend, h]

theorem value_map {es : List (Doc × Doc)} (h : entries fuel depth ('"' :: cs) = (es, some rest)) :
    value (fuel + 1) (depth + 1) ('\x7b' :: '"' :: cs) = (.map es true, some rest) := by
  simp [value, skip_cons, isBlank, h]

theorem items_last (h : value fuel depth cs = (doc, some (']' :: rest))) :
    items (fuel + 1) depth cs = ([doc], some rest) := by
  simp [items, h, skip_cons, isBlank]

theorem items_comma {docs : List Doc} {behind : List Char}
    (h : value fuel depth cs = (doc, some (',' :: behind)))
    (hothers : items fuel depth behind = (docs, some rest)) :
    items (fuel + 1) depth cs = (doc :: docs, some rest) := by
  simp [items, h, skip_cons, isBlank, hothers]

variable {name : String} {behind : List Char}

theorem entries_last (hname : string? cs.length [] cs = some (name, ':' :: behind))
    (h : value fuel depth behind = (doc, some ('\x7d' :: rest))) :
    entries (fuel + 1) depth ('"' :: cs) = ([(.string name, doc)], some rest) := by
  simp [entries, hname, h, skip_cons, isBlank]

theorem entries_comma {es : List (Doc × Doc)} {others : List Char}
    (hname : string? cs.length [] cs = some (name, ':' :: behind))
    (h : value fuel depth behind = (doc, some (',' :: others)))
    (hothers : entries fuel depth others = (es, some rest)) :
    entries (fuel + 1) depth ('"' :: cs) = ((.string name, doc) :: es, some rest) := by
  simp [entries, hname, h, skip_cons, isBlank, hothers]

end Steps

/-- A document is read back at some depth, with as much fuel as its text needs. -/
def ReadsBack (depth : Nat) (doc : Doc) : Prop :=
  ∀ fuel rest, 2 * (compact doc).toList.length ≤ fuel → Delimits rest →
    value fuel depth ((compact doc).toList ++ rest) = (doc, some rest)

section Members

variable {fuel depth : Nat}

/-- Items are read back if each of them is. -/
theorem items_joined {docs : List Doc} (hne : docs ≠ []) (h : ∀ doc ∈ docs, ReadsBack depth doc)
    (hfuel : 2 * (joined (docs.map compact)).length ≤ fuel) (rest : List Char) :
    items (fuel + 1) depth (joined (docs.map compact) ++ ']' :: rest) = (docs, some rest) := by
  induction docs generalizing fuel with
  | nil => exact absurd rfl hne
  | cons doc docs ih =>
    obtain ⟨hdoc, hdocs⟩ := List.forall_mem_cons.1 h
    cases docs with
    | nil =>
      rw [List.map_singleton, joined_singleton] at hfuel ⊢
      exact items_last (hdoc fuel _ hfuel (delimits_cons (by decide) rest))
    | cons next docs =>
      rw [List.map_cons, List.map_cons, joined_cons_cons, ← List.map_cons] at hfuel ⊢
      rw [List.length_append, List.length_cons] at hfuel
      obtain ⟨fuel, rfl⟩ : ∃ less, fuel = less + 1 := ⟨fuel - 1, by omega⟩
      rw [List.append_assoc, List.cons_append]
      refine items_comma (hdoc _ _ (by omega) (delimits_cons (by decide) _)) ?_
      exact ih (List.cons_ne_nil _ _) hdocs (by omega)

/-- Fields are read back if the value of each of them is. -/
theorem entries_joined {fields : List (String × Doc)} (hne : fields ≠ [])
    (h : ∀ field ∈ fields, ReadsBack depth field.2)
    (hfuel : 2 * (joined (fields.map fieldText)).length ≤ fuel) (rest : List Char) :
    entries (fuel + 1) depth (joined (fields.map fieldText) ++ '\x7d' :: rest) =
      (fields.map fun (key, value) => (.string key, value), some rest) := by
  induction fields generalizing fuel with
  | nil => exact absurd rfl hne
  | cons field fields ih =>
    obtain ⟨hvalue, hvalues⟩ := List.forall_mem_cons.1 h
    have hlength := length_le_fieldText field
    cases fields with
    | nil =>
      rw [List.map_singleton, joined_singleton] at hfuel ⊢
      obtain ⟨body, hbody, hread⟩ := string?_fieldText field.1 field.2 ('\x7d' :: rest)
      rw [hbody]
      exact entries_last hread (hvalue _ _ (by omega) (delimits_cons (by decide) rest))
    | cons next fields =>
      rw [List.map_cons, List.map_cons, joined_cons_cons, ← List.map_cons] at hfuel ⊢
      rw [List.length_append, List.length_cons] at hfuel
      obtain ⟨fuel, rfl⟩ : ∃ less, fuel = less + 1 := ⟨fuel - 1, by omega⟩
      obtain ⟨body, hbody, hread⟩ := string?_fieldText field.1 field.2
        (',' :: (joined ((next :: fields).map fieldText) ++ '\x7d' :: rest))
      rw [List.append_assoc, List.cons_append, hbody]
      refine entries_comma hread (hvalue _ _ (by omega) (delimits_cons (by decide) _)) ?_
      exact ih (List.cons_ne_nil _ _) hvalues (by omega)

end Members

/-- A document begins neither with a blank nor like the end of a list. -/
theorem head_compact {doc : Doc} (h : Plain doc) :
    ∃ c rest, (compact doc).toList = c :: rest ∧ isBlank c = false ∧ c ≠ ']' := by
  cases h with
  | scalar plain =>
    obtain ⟨⟨c, rest, htext, hblank, -, hend, -⟩, -⟩ := scalar?_scalar plain delimits_nil
    rw [List.append_nil] at htext
    exact ⟨c, rest, by rw [compact, htext], hblank, hend⟩
  | ofList => exact ⟨'[', _, toList_compact_ofList _, rfl, by decide⟩
  | ofFields => exact ⟨'\x7b', _, toList_compact_ofFields _, rfl, by decide⟩

theorem readsBack_scalar {s : Scalar} (h : IsPlain s) (depth : Nat) :
    ReadsBack depth (.scalar s) := by
  intro fuel rest hfuel hrest
  obtain ⟨c, behind, htext, -⟩ := head_compact (.scalar h)
  rw [htext, List.length_cons] at hfuel
  obtain ⟨fuel, rfl⟩ : ∃ less, fuel = less + 1 := ⟨fuel - 1, by omega⟩
  obtain ⟨hbegins, hread⟩ := scalar?_scalar h hrest
  rw [compact]
  exact value_scalar hbegins hread

theorem readsBack_ofList {docs : List Doc} (hplain : ∀ doc ∈ docs, Plain doc) {depth : Nat}
    (h : ∀ doc ∈ docs, ReadsBack depth doc) : ReadsBack (depth + 1) (.ofList docs) := by
  intro fuel rest hfuel _
  rw [toList_compact_ofList] at hfuel ⊢
  rw [List.length_cons, List.length_append, List.length_singleton] at hfuel
  obtain ⟨fuel, rfl⟩ : ∃ less, fuel = less + 1 + 1 := ⟨fuel - 2, by omega⟩
  rw [List.cons_append, List.append_assoc, List.singleton_append]
  cases docs with
  | nil => rfl
  | cons doc docs =>
    have hless : 2 * (joined ((doc :: docs).map compact)).length ≤ fuel := by omega
    have hitems := items_joined (List.cons_ne_nil _ _) h hless rest
    obtain ⟨c, behind, htext, hblank, hend⟩ := head_compact (hplain doc (List.mem_cons_self ..))
    obtain ⟨others, hjoined⟩ := exists_joined_cons (compact doc) (docs.map compact)
    rw [List.map_cons, hjoined, htext, List.append_assoc, List.cons_append] at hitems ⊢
    exact value_list hblank hend hitems

theorem readsBack_ofFields {fields : List (String × Doc)} {depth : Nat}
    (h : ∀ field ∈ fields, ReadsBack depth field.2) :
    ReadsBack (depth + 1) (.ofFields fields) := by
  intro fuel rest hfuel _
  rw [toList_compact_ofFields] at hfuel ⊢
  rw [List.length_cons, List.length_append, List.length_singleton] at hfuel
  obtain ⟨fuel, rfl⟩ : ∃ less, fuel = less + 1 + 1 := ⟨fuel - 2, by omega⟩
  rw [List.cons_append, List.append_assoc, List.singleton_append]
  cases fields with
  | nil => rfl
  | cons field fields =>
    have hless : 2 * (joined ((field :: fields).map fieldText)).length ≤ fuel := by omega
    have hentries := entries_joined (List.cons_ne_nil _ _) h hless rest
    obtain ⟨others, hjoined⟩ := exists_joined_cons (fieldText field) (fields.map fieldText)
    obtain ⟨body, hbody, -⟩ := string?_fieldText field.1 field.2 (others ++ '\x7d' :: rest)
    rw [List.map_cons, hjoined, List.append_assoc, hbody] at hentries ⊢
    exact value_map hentries

/-- A document is read back where there are as many levels left as it is nested. -/
theorem Plain.readsBack {doc : Doc} (h : Plain doc) {depth : Nat} (hdepth : doc.nesting ≤ depth) :
    ReadsBack depth doc := by
  induction h generalizing depth with
  | scalar plain => exact readsBack_scalar plain depth
  | ofList plain ih =>
    rw [Doc.ofList, Doc.nesting] at hdepth
    obtain ⟨depth, rfl⟩ : ∃ less, depth = less + 1 := ⟨depth - 1, by omega⟩
    have hdocs := Doc.nesting_ofList_le_iff.1 hdepth
    exact readsBack_ofList plain fun doc hdoc => ih doc hdoc (hdocs doc hdoc)
  | ofFields plain ih =>
    rw [Doc.ofFields, Doc.nesting] at hdepth
    obtain ⟨depth, rfl⟩ : ∃ less, depth = less + 1 := ⟨depth - 1, by omega⟩
    have hfields := Doc.nesting_ofFields_le_iff.1 hdepth
    exact readsBack_ofFields fun field hfield => ih field hfield (hfields field hfield)

/-- A document is read back from what is written of it. -/
theorem read_compact {doc : Doc} (h : Plain doc) (hdepth : doc.nesting ≤ maxDepth) :
    read (compact doc) = ⟨doc, true⟩ := by
  have hread := h.readsBack hdepth (2 * (compact doc).toList.length + 2) [] (by omega) delimits_nil
  rw [List.append_nil] at hread
  rw [read, hread]
  rfl

end Json

end Highlighter
