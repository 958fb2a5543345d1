import Highlighter.Format.Tag
import Highlighter.Proofs.Tag.Quoting
import Mathlib.Data.List.Induction

/-!
The tag format read from its end. A line for a token ends with a quote, and no quote ends the header,
whatever the language is called: so the last line that does not end with one is where the header
ends. In the header the flags are known by their last letters, and what is left in front of the
digits of the score is the language.
-/

namespace Highlighter

theorem toString_inj {n m : Nat} (h : toString n = toString m) : n = m := by
  have hdigits : Nat.toDigits 10 n = Nat.toDigits 10 m := by
    rw [Nat.toString_eq_ofList_toDigits, Nat.toString_eq_ofList_toDigits] at h
    exact String.ofList_injective h
  calc
    n = Nat.ofDigitChars 10 (Nat.toDigits 10 n) 0 := Nat.ofDigitChars_ten_toDigits.symm
    _ = Nat.ofDigitChars 10 (Nat.toDigits 10 m) 0 := by rw [hdigits]
    _ = m := Nat.ofDigitChars_ten_toDigits

theorem isDigit_of_mem_toString {n : Nat} {c : Char} (h : c ∈ (toString n).toList) :
    c.isDigit = true := by
  rw [Nat.toString_eq_ofList_toDigits, String.toList_ofList] at h
  exact Nat.isDigit_of_mem_toDigits (by decide) (by decide) h

theorem notMem_toString {c : Char} (h : c.isDigit = false) (n : Nat) : c ∉ (toString n).toList := by
  intro hmem
  rw [isDigit_of_mem_toString hmem] at h
  cases h

theorem toString_toList_ne_nil (n : Nat) : (toString n).toList ≠ [] := by
  rw [Nat.toString_eq_ofList_toDigits, String.toList_ofList]
  exact Nat.toDigits_ne_nil

namespace Kind

theorem label_inj {k l : Kind} (h : k.label = l.label) : k = l := by
  have hsome : some k = some l := by rw [← ofLabel?_label k, ← ofLabel?_label l, h]
  exact Option.some.inj hsome

theorem notMem_label (k : Kind) : ' ' ∉ k.label.toList ∧ '\n' ∉ k.label.toList := by
  cases k <;> decide

end Kind

namespace Token

theorem toList_render (t : Token) :
    t.render.toList = t.kind.label.toList ++ ' ' :: ((toString t.start).toList ++
      '.' :: '.' :: ((toString t.stop).toList ++ ' ' :: (Text.quoted t.text).toList)) := by
  simp [render]

/-- The line of a token says all of it. -/
theorem render_inj {t u : Token} (h : t.render = u.render) : t = u := by
  have hline := congrArg String.toList h
  rw [toList_render, toList_render] at hline
  obtain ⟨hlabel, hline⟩ := cut_inj t.kind.notMem_label.1 u.kind.notMem_label.1 hline
  obtain ⟨hstart, hline⟩ := cut_inj (notMem_toString rfl _) (notMem_toString rfl _) hline
  obtain ⟨hstop, htext⟩ :=
    cut_inj (notMem_toString rfl _) (notMem_toString rfl _) (List.cons.inj hline).2
  cases t
  cases u
  simp only [Token.mk.injEq]
  exact ⟨Kind.label_inj (String.toList_inj.1 hlabel), Text.quoted_inj (String.toList_inj.1 htext),
    toString_inj (String.toList_inj.1 hstart), toString_inj (String.toList_inj.1 hstop)⟩

/-- A token stands on one line. -/
theorem break_notMem_render (t : Token) : '\n' ∉ t.render.toList := by
  have hdigits := notMem_toString (show '\n'.isDigit = false from rfl)
  rw [toList_render]
  simp only [List.mem_append, List.mem_cons, t.kind.notMem_label.2, hdigits,
    Text.break_notMem_quoted, Char.reduceEq, or_self, not_false_eq_true]

theorem getLast?_render (t : Token) : t.render.toList.getLast? = some '"' := by
  rw [toList_render, Text.toList_quoted]
  simp only [List.getLast?_append, List.getLast?_cons]
  rfl

end Token

namespace Format

/-- A header, and a line for each of some tokens. -/
def written (header : List Char) (tokens : List Token) : List Char :=
  header ++ '\n' :: tokens.flatMap fun t => t.render.toList ++ ['\n']

theorem toList_tag (h : Highlight) : (tag h).toList = written (tagHeader h).toList h.tokens := by
  simp [tag, written, List.flatMap_map]

theorem written_concat (header : List Char) (tokens : List Token) (t : Token) :
    ∃ front, written header tokens = front ++ ['\n'] ∧
      written header (tokens ++ [t]) = (front ++ '\n' :: t.render.toList) ++ ['\n'] := by
  rcases List.eq_nil_or_concat tokens with rfl | ⟨others, last, rfl⟩
  · exact ⟨header, by simp [written], by simp [written]⟩
  · rw [List.concat_eq_append]
    exact ⟨written header others ++ last.render.toList, by simp [written], by simp [written]⟩

/-- Where the header does not end like a token, header and tokens can be told apart. -/
theorem written_inj {header header' : List Char} (hends : header.getLast? ≠ some '"')
    (hends' : header'.getLast? ≠ some '"') {tokens tokens' : List Token}
    (h : written header tokens = written header' tokens') :
    header = header' ∧ tokens = tokens' := by
  induction tokens using List.reverseRecOn generalizing tokens' with
  | nil =>
    rcases List.eq_nil_or_concat tokens' with rfl | ⟨others, last, rfl⟩
    · exact ⟨List.append_cancel_right h, rfl⟩
    · rw [List.concat_eq_append] at h
      obtain ⟨front, -, hlast⟩ := written_concat header' others last
      rw [hlast] at h
      have hheader : header = front ++ '\n' :: last.render.toList := List.append_cancel_right h
      simp [hheader, List.getLast?_append, List.getLast?_cons, last.getLast?_render] at hends
  | append_singleton tokens t ih =>
    obtain ⟨front, hrest, hlast⟩ := written_concat header tokens t
    rw [hlast] at h
    rcases List.eq_nil_or_concat tokens' with rfl | ⟨others, last, rfl⟩
    · have hheader : front ++ '\n' :: t.render.toList = header' := List.append_cancel_right h
      simp [← hheader, List.getLast?_append, List.getLast?_cons, t.getLast?_render] at hends'
    · rw [List.concat_eq_append] at h ⊢
      obtain ⟨front', hrest', hlast'⟩ := written_concat header' others last
      rw [hlast'] at h
      obtain ⟨rfl, hline⟩ := cut_last_inj t.break_notMem_render last.break_notMem_render
        (List.append_cancel_right h)
      obtain ⟨rfl, rfl⟩ := ih (hrest.trans hrest'.symm)
      exact ⟨rfl, by rw [Token.render_inj (String.toList_inj.1 hline)]⟩

/-- A word behind a text, if a flag is raised. -/
def flagged (front : List Char) (name : String) (raised : Bool) : List Char :=
  if raised then front ++ ' ' :: name.toList else front

/-- A flag is seen where the text in front of it ends with another letter. -/
theorem flagged_inj {front front' : List Char} {name : String} (last : Char) {raised raised' : Bool}
    (hname : name.toList.getLast? = some last) (hends : front.getLast? ≠ some last)
    (hends' : front'.getLast? ≠ some last)
    (h : flagged front name raised = flagged front' name raised') :
    front = front' ∧ raised = raised' := by
  have hlast : ∀ cs : List Char, (cs ++ ' ' :: name.toList).getLast? = some last := by
    intro cs
    rw [List.getLast?_append, List.getLast?_cons, hname]
    rfl
  cases raised <;> cases raised' <;> simp only [flagged, Bool.false_eq_true, ↓reduceIte] at h
  · exact ⟨h, rfl⟩
  · exact absurd (h ▸ hlast front') hends
  · exact absurd (h ▸ hlast front) hends'
  · exact ⟨List.append_cancel_right h, rfl⟩

/-- With a flag or without, a text ends with none but its own letter or that of the flag. -/
theorem getLast?_flagged_ne {front : List Char} {name : String} (last : Char) {other : Char}
    (hname : name.toList.getLast? = some last) (hne : last ≠ other)
    (hends : front.getLast? ≠ some other) (raised : Bool) :
    (flagged front name raised).getLast? ≠ some other := by
  cases raised with
  | false => exact hends
  | true =>
    simp only [flagged, ↓reduceIte, List.getLast?_append, List.getLast?_cons, hname]
    simpa using hne

/-- The language and the score, without flags. -/
def scored (h : Highlight) : List Char :=
  "# ".toList ++ h.language.toList ++ " relevance".toList ++ '=' ::
    (toString h.outcome.relevance).toList

theorem toList_tagHeader (h : Highlight) :
    (tagHeader h).toList = flagged (flagged (flagged (scored h) "incomplete" h.outcome.incomplete)
      "illegal" h.outcome.illegal) "depth_limited" h.outcome.depthLimited := by
  cases hi : h.outcome.incomplete <;> cases hl : h.outcome.illegal <;>
    cases hd : h.outcome.depthLimited <;>
    simp [tagHeader, flags, scored, flagged, hi, hl, hd]

/-- What is in front of the flags ends with a digit. -/
theorem getLast?_scored_ne (h : Highlight) {other : Char} (hother : other.isDigit = false) :
    (scored h).getLast? ≠ some other := by
  have hne := toString_toList_ne_nil h.outcome.relevance
  have hdigit := isDigit_of_mem_toString (List.getLast_mem hne)
  rw [scored, List.getLast?_append, List.getLast?_cons, List.getLast?_eq_some_getLast hne]
  intro hlast
  have heq : (toString h.outcome.relevance).toList.getLast hne = other := by simpa using hlast
  rw [heq, hother] at hdigit
  cases hdigit

theorem scored_inj {h k : Highlight} (heq : scored h = scored k) :
    h.language = k.language ∧ h.outcome.relevance = k.outcome.relevance := by
  obtain ⟨hfront, hscore⟩ := cut_last_inj (notMem_toString rfl _) (notMem_toString rfl _) heq
  refine ⟨String.toList_inj.1 ?_, toString_inj (String.toList_inj.1 hscore)⟩
  exact List.append_cancel_left (List.append_cancel_right hfront)

/-- No header ends like the line of a token. -/
theorem getLast?_tagHeader (h : Highlight) : (tagHeader h).toList.getLast? ≠ some '"' := by
  rw [toList_tagHeader]
  apply getLast?_flagged_ne 'd' rfl (by decide)
  apply getLast?_flagged_ne 'l' rfl (by decide)
  apply getLast?_flagged_ne 'e' rfl (by decide)
  exact getLast?_scored_ne h rfl

/-- The header says all of a highlight but its tokens. -/
theorem tagHeader_inj {h k : Highlight} (heq : (tagHeader h).toList = (tagHeader k).toList) :
    h.language = k.language ∧ h.outcome = k.outcome := by
  have hinner : ∀ (h : Highlight) (other : Char), other.isDigit = false → 'e' ≠ other →
      (flagged (scored h) "incomplete" h.outcome.incomplete).getLast? ≠ some other :=
    fun h other hother he => getLast?_flagged_ne 'e' rfl he (getLast?_scored_ne h hother) _
  have houter : ∀ h : Highlight, (flagged (flagged (scored h) "incomplete" h.outcome.incomplete)
      "illegal" h.outcome.illegal).getLast? ≠ some 'd' :=
    fun h => getLast?_flagged_ne 'l' rfl (by decide) (hinner h 'd' rfl (by decide)) _
  -- the flags are taken off from the last one to the first
  rw [toList_tagHeader, toList_tagHeader] at heq
  obtain ⟨heq, hdepth⟩ := flagged_inj 'd' rfl (houter h) (houter k) heq
  obtain ⟨heq, hillegal⟩ :=
    flagged_inj 'l' rfl (hinner h 'l' rfl (by decide)) (hinner k 'l' rfl (by decide)) heq
  obtain ⟨heq, hincomplete⟩ :=
    flagged_inj 'e' rfl (getLast?_scored_ne h rfl) (getLast?_scored_ne k rfl) heq
  obtain ⟨hlanguage, hrelevance⟩ := scored_inj heq
  refine ⟨hlanguage, ?_⟩
  cases hh : h.outcome
  cases hk : k.outcome
  rw [hh, hk] at hdepth hillegal hincomplete hrelevance
  rw [Outcome.mk.injEq]
  exact ⟨hrelevance, hincomplete, hillegal, hdepth⟩

/-- The lines behind a header: one for each token, each with an end. -/
theorem splitOn_lines (tokens : List Token) :
    (tokens.flatMap fun t => t.render.toList ++ ['\n']).splitOn '\n' =
      tokens.map (·.render.toList) ++ [[]] := by
  have hjoined : (tokens.flatMap fun t => t.render.toList ++ ['\n']) =
      ['\n'].intercalate (tokens.map (·.render.toList) ++ [[]]) := by
    induction tokens with
    | nil => rfl
    | cons t tokens ih =>
      rw [List.flatMap_cons, ih, List.map_cons, List.cons_append,
        List.intercalate_cons_of_ne_nil (by simp)]
  rw [hjoined, List.splitOn_intercalate]
  · intro line hline
    rcases List.mem_append.1 hline with hline | hline
    · obtain ⟨t, -, rfl⟩ := List.mem_map.1 hline
      exact t.break_notMem_render
    · simp [List.mem_singleton.1 hline]
  · simp

/-- The tag format loses nothing: two highlights with the same text are the same. Behind the header
stands one line for each token, in order. -/
theorem tag_faithful :
    Function.Injective tag ∧
      ∀ h : Highlight, ∃ body : String, tag h = tagHeader h ++ "\n" ++ body ∧
        body.toList.splitOn '\n' = h.tokens.map (·.render.toList) ++ [[]] := by
  constructor
  · intro h k heq
    have htext := congrArg String.toList heq
    rw [toList_tag, toList_tag] at htext
    obtain ⟨hheader, htokens⟩ :=
      written_inj (getLast?_tagHeader h) (getLast?_tagHeader k) htext
    obtain ⟨hlanguage, houtcome⟩ := tagHeader_inj hheader
    cases h
    cases k
    simp only [Highlight.mk.injEq]
    exact ⟨hlanguage, htokens, houtcome⟩
  · intro h
    refine ⟨_, rfl, ?_⟩
    rw [← splitOn_lines]
    simp [List.flatMap_map]

end Format

end Highlighter
