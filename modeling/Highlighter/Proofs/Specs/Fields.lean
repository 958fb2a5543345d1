import Highlighter.Grammar.Compile
import Highlighter.Grammar.Decode
import Highlighter.Grammar.Encode

/-!
The fields of a record. What is written of a field is read back into it, and a field that is left
out stays as it is, so a record is read back from its fields if each of them is.
-/

namespace Highlighter

namespace Decode

variable {σ : Type} {d : Dialect} {known : List String} {set : σ → String → Doc → Except Fault σ}

/-- Sets the field that an entry of a map names. -/
def addField (d : Dialect) (known : List String) (set : σ → String → Doc → Except Fault σ)
    (acc : σ × List String) (entry : Doc × Doc) : Except Fault (σ × List String) := do
  let name ← field d known acc.2 entry.1
  return (← set acc.1 name entry.2, name :: acc.2)

theorem field_string {seen : List String} {name : String} (hknown : name ∈ known)
    (hseen : name ∉ seen) : field d known seen (.string name) = .ok name := by
  simp [field, string, Doc.string, hknown, hseen, bind, Except.bind, pure, Except.pure]

theorem addField_string {seen : List String} {name : String} {acc acc' : σ} {value : Doc}
    (hknown : name ∈ known) (hseen : name ∉ seen) (h : set acc name value = .ok acc') :
    addField d known set (acc, seen) (.string name, value) = .ok (acc', name :: seen) := by
  simp [addField, field_string hknown hseen, h, bind, Except.bind, pure, Except.pure]

/-- Fields that are known and occur once are set one after the other. -/
theorem foldlM_addField {fields : List (String × Doc)} {seen : List String} {acc acc' : σ}
    (hknown : ∀ field ∈ fields, field.1 ∈ known) (hnodup : (fields.map Prod.fst).Nodup)
    (hunseen : ∀ field ∈ fields, field.1 ∉ seen)
    (h : fields.foldlM (fun acc field => set acc field.1 field.2) acc = .ok acc') :
    (fields.map fun (key, value) => (Doc.string key, value)).foldlM (addField d known set)
      (acc, seen) = .ok (acc', (fields.map Prod.fst).reverse ++ seen) := by
  induction fields generalizing seen acc with
  | nil =>
    cases h
    rfl
  | cons field fields ih =>
    rw [List.foldlM_cons] at h
    obtain ⟨next, hset, h⟩ := Compile.bind_eq_ok h
    obtain ⟨hfield, hknown⟩ := List.forall_mem_cons.1 hknown
    obtain ⟨hfresh, hunseen⟩ := List.forall_mem_cons.1 hunseen
    rw [List.map_cons, List.nodup_cons] at hnodup
    have hothers : ∀ other ∈ fields, other.1 ∉ field.1 :: seen := by
      intro other hother hmem
      rcases List.mem_cons.1 hmem with heq | hmem
      · exact hnodup.1 (heq ▸ List.mem_map_of_mem hother)
      · exact hunseen other hother hmem
    rw [List.map_cons, List.foldlM_cons, addField_string hfield hfresh hset, List.map_cons,
      List.reverse_cons, List.append_assoc, List.singleton_append]
    exact ih hknown hnodup.2 hothers h

/-- Fields, of the known ones and in their order, make one record into another. -/
structure Fills (set : σ → String → Doc → Except Fault σ) (known : List String) (acc : σ)
    (fields : List (String × Doc)) (acc' : σ) : Prop where
  names : (fields.map Prod.fst).Sublist known
  result : fields.foldlM (fun acc field => set acc field.1 field.2) acc = .ok acc'

namespace Fills

variable {acc acc' acc'' : σ} {fields : List (String × Doc)} {name : String}

theorem nil : Fills set [] acc [] acc := ⟨.slnil, rfl⟩

theorem cons {value : Doc} (h : set acc name value = .ok acc')
    (h' : Fills set known acc' fields acc'') :
    Fills set (name :: known) acc ((name, value) :: fields) acc'' where
  names := h'.names.cons_cons name
  result := by
    rw [List.foldlM_cons, h]
    exact h'.result

/-- A field that is left out. -/
theorem skip (h : Fills set known acc fields acc') :
    Fills set (name :: known) acc fields acc' :=
  ⟨h.names.cons name, h.result⟩

/-- A field that is there when it is set. -/
theorem optional {α : Type} {encode : α → Doc} (filled : Option α → σ)
    (h : ∀ a, set (filled none) name (encode a) = .ok (filled (some a))) {value : Option α}
    (h' : Fills set known (filled value) fields acc') :
    Fills set (name :: known) (filled none) (Encode.optional name encode value ++ fields) acc' := by
  cases value with
  | none => exact h'.skip
  | some a => exact .cons (h a) h'

/-- A record is read back from a map of its fields. -/
theorem foldlM (h : Fills set known acc fields acc') (hnodup : known.Nodup) (d : Dialect) :
    (fields.map fun (key, value) => (Doc.string key, value)).foldlM (addField d known set)
      (acc, []) = .ok (acc', (fields.map Prod.fst).reverse) := by
  have hknown : ∀ field ∈ fields, field.1 ∈ known :=
    fun field hfield => h.names.subset (List.mem_map_of_mem hfield)
  rw [foldlM_addField hknown (h.names.nodup hnodup) (fun _ _ => List.not_mem_nil) h.result,
    List.append_nil]

end Fills

end Decode

end Highlighter
