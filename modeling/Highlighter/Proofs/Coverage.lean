import Highlighter.Coverage
import Highlighter.Proofs.Granularity.Tokens

/-!
The check for coverage is exact. It looks at each token only where the one before it has ended, and
it never looks at the end of a range by itself; but what it takes out of the text between the two
ends is the text of the token, so a range is as long as that, and what has been passed is what the
texts of the tokens so far come to.
-/

namespace Highlighter

namespace Source

variable {text part : String} {a b i : Nat}

theorem size_offsets (s : Source) : s.offsets.size = s.size + 1 := by
  rw [s.offsets_eq, byteOffsets, List.size_toArray, List.length_scanl]
  rfl

theorem getElem_offsets (s : Source) (h : i < s.offsets.size) : s.offsets[i] = s.byte i := by
  rw [byte, Array.getElem?_eq_getElem h, Option.getD_some]

/-- A byte is found where a character begins or the text ends, and nowhere else. -/
theorem findIdx?_offsets (s : Source) :
    s.offsets.findIdx? (· == a) = some i ↔ i ≤ s.size ∧ s.byte i = a := by
  have hsize := s.size_offsets
  rw [Array.findIdx?_eq_some_iff_getElem]
  constructor
  · rintro ⟨hlt, hfound, -⟩
    rw [beq_iff_eq, s.getElem_offsets] at hfound
    exact ⟨by omega, hfound⟩
  · rintro ⟨hle, rfl⟩
    refine ⟨by omega, by rw [beq_iff_eq, s.getElem_offsets], fun j hji => ?_⟩
    rw [beq_iff_eq, s.getElem_offsets, byte_inj (by omega) hle]
    omega

/-- A place between two parts of a text has as many characters in front of it as the first part, and
its byte is the size of that. -/
theorem byte_front (front back : String) :
    front.toList.length ≤ (ofString (front ++ back)).size ∧
      (ofString (front ++ back)).byte front.toList.length = front.utf8ByteSize := by
  have hle : front.toList.length ≤ (ofString (front ++ back)).size := by simp [ofString, size]
  refine ⟨hle, ?_⟩
  rw [byte_eq _ hle]
  simp [ofString, slice]

/-- What is taken out of a text between two bytes is a part of it that begins and ends there.
Nothing is taken out where the text has no such part. -/
theorem bytes?_eq_some_iff : (ofString text).bytes? a b = some part ↔
    ∃ before after, text = before ++ part ++ after ∧
      before.utf8ByteSize = a ∧ (before ++ part).utf8ByteSize = b := by
  simp only [bytes?, Option.bind_eq_bind, Option.bind_eq_some_iff, findIdx?_offsets]
  constructor
  · rintro ⟨first, ⟨hfirst, rfl⟩, last, ⟨hlast, rfl⟩, htaken⟩
    split at htaken
    · rename_i hle
      obtain rfl := Option.some.inj htaken
      have hfl : first ≤ last := by
        have := byte_lt_byte_iff hlast hfirst
        omega
      -- the part as a token that has no other purpose
      exact @isSlice_token text ⟨.plain, first, last⟩ hfl hlast
    · cases htaken
  · rintro ⟨before, after, rfl, rfl, rfl⟩
    obtain ⟨hlast, hlastByte⟩ := byte_front (before ++ part) after
    obtain ⟨hfirst, hfirstByte⟩ := byte_front before (part ++ after)
    rw [← String.append_assoc] at hfirst hfirstByte
    refine ⟨_, ⟨hfirst, hfirstByte⟩, _, ⟨hlast, hlastByte⟩, ?_⟩
    rw [String.utf8ByteSize_append, if_pos (Nat.le_add_right ..)]
    simp [slice, ofString, List.extract_eq_take_drop]

end Source

/-- From some byte on the ranges follow one another, and each is as long as the text of its token.
-/
def InPlaceFrom : Nat → List Token → Prop
  | _, [] => True
  | n, t :: ts => t.start = n ∧ t.stop = n + t.text.utf8ByteSize ∧ InPlaceFrom t.stop ts

theorem inPlaceFrom_iff {n : Nat} {tokens : List Token} :
    InPlaceFrom n tokens ↔ ∀ before t after, tokens = before ++ t :: after →
      t.start = n + (String.join (before.map Token.text)).utf8ByteSize ∧
        t.stop = t.start + t.text.utf8ByteSize := by
  induction tokens generalizing n with
  | nil => simp [InPlaceFrom]
  | cons first rest ih =>
    rw [InPlaceFrom, ih]
    constructor
    · rintro ⟨hstart, hstop, hrest⟩ before t after heq
      cases before with
      | nil =>
        obtain ⟨rfl, rfl⟩ := List.cons.inj heq
        simp [hstart, hstop]
      | cons x before =>
        obtain ⟨rfl, rfl⟩ := List.cons.inj heq
        obtain ⟨htstart, htstop⟩ := hrest before t after rfl
        refine ⟨?_, htstop⟩
        rw [htstart, hstop, List.map_cons, String.join_cons, String.utf8ByteSize_append]
        omega
    · intro h
      obtain ⟨hstart, hstop⟩ := h [] first rest rfl
      have hstart' : first.start = n := by simpa using hstart
      refine ⟨hstart', hstart' ▸ hstop, fun before t after heq => ?_⟩
      obtain ⟨htstart, htstop⟩ := h (first :: before) t after (by rw [heq]; rfl)
      refine ⟨?_, htstop⟩
      rw [htstart, hstop, hstart', List.map_cons, String.join_cons, String.utf8ByteSize_append]
      omega

/-- The tokens are a text cut into pieces, as their texts and their ranges show. -/
structure CutsUp (text : String) (tokens : List Token) : Prop where
  join : String.join (tokens.map Token.text) = text
  nonempty : ∀ t ∈ tokens, t.text ≠ ""
  /-- A range begins where the texts of all tokens in front of it end, and is as long as its own. -/
  inPlace : ∀ before t after, tokens = before ++ t :: after →
    t.start = (String.join (before.map Token.text)).utf8ByteSize ∧
      t.stop = t.start + t.text.utf8ByteSize

/-- A range that is none of a text: reversed, out of bounds or with an end in a character. -/
def Strays (text : String) (start stop : Nat) : Prop :=
  stop < start ∨ text.utf8ByteSize < stop ∨
    ¬(⟨start⟩ : String.Pos.Raw).IsValid text ∨ ¬(⟨stop⟩ : String.Pos.Raw).IsValid text

theorem Token.IsSlice.not_strays {t : Token} {text : String} (h : t.IsSlice text) :
    ¬Strays text t.start t.stop := by
  obtain ⟨before, after, rfl, hstart, hstop⟩ := h
  rw [← hstart, ← hstop]
  have hfirst : (⟨before.utf8ByteSize⟩ : String.Pos.Raw).IsValid (before ++ t.text ++ after) :=
    String.Pos.Raw.isValid_iff_exists_append.2
      ⟨before, t.text ++ after, String.append_assoc, rfl⟩
  have hlast : (⟨(before ++ t.text).utf8ByteSize⟩ : String.Pos.Raw).IsValid
      (before ++ t.text ++ after) :=
    String.Pos.Raw.isValid_iff_exists_append.2 ⟨before ++ t.text, after, rfl, rfl⟩
  have hle : before.utf8ByteSize ≤ (before ++ t.text).utf8ByteSize := by
    rw [String.utf8ByteSize_append]
    exact Nat.le_add_right ..
  rintro (hreversed | hbeyond | hinside | hinside)
  · exact Nat.not_lt.2 hle hreversed
  · exact Nat.not_lt.2 hlast.le_utf8ByteSize hbeyond
  · exact hinside hfirst
  · exact hinside hlast

theorem CutsUp.isSlice {text : String} {tokens : List Token} (h : CutsUp text tokens) {t : Token}
    (ht : t ∈ tokens) : t.IsSlice text := by
  obtain ⟨before, after, rfl⟩ := List.append_of_mem ht
  obtain ⟨hstart, hstop⟩ := h.inPlace before t after rfl
  refine ⟨String.join (before.map Token.text), String.join (after.map Token.text), ?_, hstart.symm,
    ?_⟩
  · rw [← h.join, List.map_append, List.map_cons, String.join_append, String.join_cons,
      String.append_assoc]
  · rw [String.utf8ByteSize_append, hstop, hstart]

/-- What is in front of a place and what is behind it are told by the byte. -/
theorem append_inj_of_utf8ByteSize {a b c d : String} (h : a ++ b = c ++ d)
    (hsize : a.utf8ByteSize = c.utf8ByteSize) : a = c ∧ b = d := by
  have hbytes := congrArg String.toByteArray h
  rw [String.toByteArray_append, String.toByteArray_append] at hbytes
  have hac : a = c := String.toByteArray_inj.1 (ByteArray.append_inj_left hbytes hsize)
  subst hac
  exact ⟨rfl, (String.append_right_inj a).1 h⟩

theorem coversFrom_cons_eq_ok_iff {s : Source} {size index reached : Nat} {t : Token}
    {ts : List Token} : coversFrom s size index reached (t :: ts) = .ok () ↔
      t.start = reached ∧ t.text ≠ "" ∧ s.bytes? t.start t.stop = some t.text ∧
        coversFrom s size (index + 1) t.stop ts = .ok () := by
  rw [coversFrom]
  by_cases hstart : t.start = reached
  · by_cases hempty : t.text = ""
    · simp [hstart, hempty]
    · cases htaken : s.bytes? t.start t.stop with
      | none => simp [hstart, hempty]
      | some taken => by_cases hsame : taken = t.text <;> simp [hstart, hempty, hsame]
  · simp [hstart]

/-- The check accepts the rest of the tokens just if they cut up the rest of the text. -/
theorem coversFrom_eq_ok_iff (front back : String) (tokens : List Token) (index : Nat) :
    coversFrom (Source.ofString (front ++ back)) (front ++ back).utf8ByteSize index
        front.utf8ByteSize tokens = .ok () ↔
      String.join (tokens.map Token.text) = back ∧ (∀ t ∈ tokens, t.text ≠ "") ∧
        InPlaceFrom front.utf8ByteSize tokens := by
  induction tokens generalizing front back index with
  | nil =>
    have hback : front.utf8ByteSize = (front ++ back).utf8ByteSize ↔ "" = back := by
      rw [String.utf8ByteSize_append, eq_comm, Nat.add_eq_left, String.utf8ByteSize_eq_zero_iff,
        eq_comm]
    simp [coversFrom, InPlaceFrom, ← hback]
  | cons t ts ih =>
    rw [coversFrom_cons_eq_ok_iff, Source.bytes?_eq_some_iff, List.map_cons, String.join_cons,
      List.forall_mem_cons, InPlaceFrom]
    constructor
    · rintro ⟨hstart, hne, ⟨before, after, htext, hbefore, hstop⟩, hrest⟩
      -- the token was taken out right behind what has been passed
      rw [String.append_assoc] at htext
      obtain ⟨rfl, rfl⟩ := append_inj_of_utf8ByteSize htext (hstart.symm.trans hbefore.symm)
      rw [← String.append_assoc, ← hstop, ih] at hrest
      obtain ⟨hjoin, hnonempty, hplaced⟩ := hrest
      rw [hstop] at hplaced
      exact ⟨by rw [hjoin], ⟨hne, hnonempty⟩, hstart, by rw [← hstop, String.utf8ByteSize_append],
        hplaced⟩
    · rintro ⟨rfl, ⟨hne, hnonempty⟩, hstart, hlength, hplaced⟩
      have hstop : (front ++ t.text).utf8ByteSize = t.stop := by
        rw [String.utf8ByteSize_append, hlength]
      refine ⟨hstart, hne, ⟨front, _, String.append_assoc.symm, hstart.symm, hstop⟩, ?_⟩
      rw [← String.append_assoc, ← hstop, ih, hstop]
      exact ⟨rfl, hnonempty, hplaced⟩

/-- The check for coverage accepts a list of tokens just if it is the text cut into pieces, and
otherwise it finds a fault, so also where the range of some token is none of the text. -/
theorem covers_exact (text : String) (tokens : List Token) :
    (covers text tokens = .ok () ↔ CutsUp text tokens) ∧
    ((∃ fault, covers text tokens = .error fault) ↔ ¬CutsUp text tokens) ∧
    ∀ t ∈ tokens, Strays text t.start t.stop → ∃ fault, covers text tokens = .error fault := by
  have haccepts : covers text tokens = .ok () ↔ CutsUp text tokens := by
    have hfrom := coversFrom_eq_ok_iff "" text tokens 0
    rw [String.empty_append, inPlaceFrom_iff] at hfrom
    simp only [String.utf8ByteSize_empty, Nat.zero_add] at hfrom
    exact hfrom.trans ⟨fun ⟨hjoin, hnonempty, hplaced⟩ => ⟨hjoin, hnonempty, hplaced⟩,
      fun h => ⟨h.join, h.nonempty, h.inPlace⟩⟩
  have hrefuses : (∃ fault, covers text tokens = .error fault) ↔ ¬CutsUp text tokens := by
    rw [← haccepts]
    cases covers text tokens with
    | ok => simp
    | error fault => simp
  exact ⟨haccepts, hrefuses, fun t ht hstrays =>
    hrefuses.2 fun hcuts => (hcuts.isSlice ht).not_strays hstrays⟩

/-- A range that ends in the second of two letters is refused. -/
theorem covers_refuses_within_letter :
    let t : Token := ⟨.plain, "aé", 0, 2⟩
    Strays "aé" t.start t.stop ∧ ∃ fault, covers "aé" [t] = .error fault := by
  intro t
  have hstrays : Strays "aé" t.start t.stop := .inr (.inr (.inr (by decide)))
  exact ⟨hstrays, (covers_exact "aé" [t]).2.2 t (List.mem_singleton_self t) hstrays⟩

end Highlighter
