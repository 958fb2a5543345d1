import Highlighter.Regex.Reader

/-!
What a reader goes by. Whether a character can be read, and where that leads, does not depend on the
expressions that have been read so far, nor on the flags other than `x`. So two readings that differ
in these alone succeed or fail together.
-/

namespace Highlighter.Regex.Reader

def Flags.bare (f : Flags) : Flags := { spaced := f.spaced }

def Piece.bare (_ : Piece) : Piece := ⟨.empty, 0⟩

def Item.bare : Item → Item
  | directive => directive
  | piece p => piece p.bare

def Group.bare (g : Group) : Group := ⟨g.capture, g.flags.bare, [], g.items.map Item.bare⟩

def Bracket.bare (_ : Bracket) : Bracket := {}

def Site.bare : Site → Site
  | branch => branch
  | member open_ => member (open_.map Bracket.bare)
  | upper low open_ => upper low (open_.map Bracket.bare)

def Mode.bare : Mode → Mode
  | repeated body low high spaced => repeated body.bare low high spaced
  | lower body digits ended => lower body.bare digits ended
  | comma body low => comma body.bare low
  | upper body low digits ended => upper body.bare low digits ended
  | flagList flags letters off dangling => flagList flags.bare letters off dangling
  | escape site => escape site.bare
  | hexStart site width => hexStart site.bare width
  | hexDigits site missing value => hexDigits site.bare missing value
  | hexBraced site hasNone value => hexBraced site.bare hasNone value
  | bracket open_ place => bracket (open_.map Bracket.bare) place
  | ready => ready
  | group => group
  | groupMark => groupMark
  | groupLetter => groupLetter
  | groupAngle => groupAngle
  | groupName read => groupName read
  | edge => edge
  | edgeBrace => edgeBrace
  | edgeName read => edgeName read

/-- The reader without what it does not go by. -/
def bare (s : Reader) : Reader :=
  ⟨s.flags.bare, s.groups.map Group.bare, [], s.items.map Item.bare, s.names, s.inComment,
    s.mode.bare⟩

def InClass.bare : InClass → InClass
  | inside open_ place inComment => inside (open_.map Bracket.bare) place inComment
  | escape site => escape site.bare
  | closed _ _ => closed .none 0

@[simp] theorem Flags.bare_bare (f : Flags) : f.bare.bare = f.bare := rfl

@[simp] theorem Item.bare_comp_bare : Item.bare ∘ Item.bare = Item.bare := by
  funext i
  cases i <;> rfl

@[simp] theorem Group.bare_comp_bare : Group.bare ∘ Group.bare = Group.bare := by
  funext g
  simp [bare]

@[simp] theorem Bracket.bare_comp_bare : Bracket.bare ∘ Bracket.bare = Bracket.bare := rfl

@[simp] theorem Site.bare_bare (site : Site) : site.bare.bare = site.bare := by
  cases site <;> simp [bare]

@[simp] theorem Mode.bare_bare (m : Mode) : m.bare.bare = m.bare := by
  cases m <;> simp [bare, Piece.bare]

@[simp] theorem bare_bare (s : Reader) : s.bare.bare = s.bare := by
  simp [bare]

theorem bare_push (s : Reader) (r q : Regex) (d e : Nat) :
    (s.push r d).bare = (s.bare.push q e).bare := by
  simp [push, bare, Item.bare, Piece.bare, Mode.bare]

theorem bare_pushRepeated (s : Reader) (body body' : Piece) (low : Nat) (high : Option Nat)
    (isLazy : Bool) :
    (s.pushRepeated body low high isLazy).bare = (s.bare.pushRepeated body' low high isLazy).bare :=
  bare_push ..

theorem bare_repeat? (s : Reader) (low : Nat) (high : Option Nat) :
    (s.repeat? low high).map bare = (s.bare.repeat? low high).map bare := by
  unfold repeat? popPiece?
  cases hi : s.items with
  | nil => simp [bare, hi]
  | cons i items => cases i <;> simp [bare, hi, Item.bare, Piece.bare, Mode.bare]

theorem bare_openGroup (s : Reader) (capture : Capture) (flags : Flags) :
    (s.openGroup capture flags).bare = (s.bare.openGroup capture flags.bare).bare := by
  cases capture <;> simp [openGroup, bare, Group.bare, Mode.bare]

theorem bare_closeGroup? (s : Reader) :
    s.closeGroup?.map bare = s.bare.closeGroup?.map bare := by
  unfold closeGroup?
  cases hg : s.groups with
  | nil => simp [bare, hg]
  | cons g groups => simp [bare, hg, Group.bare, push, Item.bare, Piece.bare, Mode.bare]

theorem bare_ready? (s : Reader) (c : Char) : (s.ready? c).map bare = (s.bare.ready? c).map bare := by
  unfold ready?
  split
  · simp [bare, Mode.bare]
  · exact s.bare_closeGroup?
  · simp [bare, Mode.bare]
  · simp [bare, Mode.bare, Bracket.bare]
  · exact s.bare_repeat? 0 (some 1)
  · exact s.bare_repeat? 0 none
  · exact s.bare_repeat? 1 none
  · unfold popPiece?
    cases hi : s.items with
    | nil => simp [bare, hi]
    | cons i items => cases i <;> simp [bare, hi, Item.bare, Piece.bare, Mode.bare]
  · simp [bare, Mode.bare, Site.bare]
  · exact congrArg some (bare_push ..)
  · exact congrArg some (bare_push ..)
  · exact congrArg some (bare_push ..)
  · exact congrArg some (bare_push ..)

/-- What is made alike of what is alike is alike. -/
theorem map_bind_congr {α β α' β' : Type} {f : α → α'} {g : β → β'} {x y : Option α}
    {k l : α → Option β} (h : x.map f = y.map f)
    (hk : ∀ a b, f a = f b → (k a).map g = (l b).map g) :
    (x.bind k).map g = (y.bind l).map g := by
  cases x with
  | none =>
    cases y with
    | none => rfl
    | some b => cases h
  | some a =>
    cases y with
    | none => cases h
    | some b => exact hk a b (Option.some.inj h)

theorem map_map_congr {α β α' β' : Type} {f : α → α'} {g : β → β'} {x y : Option α}
    {k l : α → β} (h : x.map f = y.map f) (hk : ∀ a b, f a = f b → g (k a) = g (l b)) :
    (x.map k).map g = (y.map l).map g := by
  have hsome := map_bind_congr (g := g) (k := some ∘ k) (l := some ∘ l) h
    fun a b hab => congrArg some (hk a b hab)
  rwa [← Option.map_eq_bind, ← Option.map_eq_bind] at hsome

section Classes

variable (caseless caseless' blanks : Bool) {open_ open' : List Bracket} (low : Atom) (c : Char)
  (h : open_.map Bracket.bare = open'.map Bracket.bare)

include h

theorem bare_insertAtom? :
    (insertAtom? open_ low).map (List.map Bracket.bare) =
      (insertAtom? open' low).map (List.map Bracket.bare) := by
  unfold insertAtom?
  cases open_ <;> cases open' <;> cases low <;> simp_all [Bracket.bare]

theorem bare_insertRange? (high : Atom) :
    (insertRange? open_ low high).map (List.map Bracket.bare) =
      (insertRange? open' low high).map (List.map Bracket.bare) := by
  unfold insertRange?
  cases open_ <;> cases open' <;> cases low <;> cases high <;>
    simp_all [Bracket.bare, apply_ite]

theorem bare_betweenMembers :
    (betweenMembers caseless open_ c).bare = (betweenMembers caseless' open' c).bare := by
  have hother : ∀ (caseless : Bool) (opened : List Bracket), c ≠ '[' → c ≠ ']' → c ≠ '\\' →
      betweenMembers caseless opened c =
        if c == '&' || c == '-' || c == '~' then .inside opened (.doubling c)
        else .inside opened (.after (.char c)) := by
    intro caseless opened h1 h2 h3
    unfold betweenMembers
    split <;> simp_all
  by_cases h1 : c = '['
  · simp [betweenMembers, h1, InClass.bare, h]
  · by_cases h2 : c = '\\'
    · simp [betweenMembers, h2, InClass.bare, Site.bare, h]
    · by_cases h3 : c = ']'
      · rcases open_ with _ | ⟨b, _ | ⟨b', bs⟩⟩ <;> rcases open' with _ | ⟨d, _ | ⟨d', ds⟩⟩ <;>
          simp_all [betweenMembers, InClass.bare, Bracket.bare]
      · rw [hother _ _ h1 h3 h2, hother _ _ h1 h3 h2]
        split <;> simp [InClass.bare, h]

theorem bare_afterAtom? :
    (afterAtom? caseless open_ low c).map InClass.bare =
      (afterAtom? caseless' open' low c).map InClass.bare := by
  unfold afterAtom?
  split
  · simp [InClass.bare, h]
  · exact map_map_congr (bare_insertAtom? low h)
      fun a b hab => bare_betweenMembers caseless caseless' c hab

theorem bare_applyOperator (op : SetOp) :
    (applyOperator caseless open_ op).bare = (applyOperator caseless' open' op).bare := by
  unfold applyOperator
  cases open_ <;> cases open' <;> simp_all [InClass.bare, Bracket.bare]

theorem bare_upperEnd? :
    (upperEnd? open_ low c).map InClass.bare = (upperEnd? open' low c).map InClass.bare := by
  unfold upperEnd?
  split
  · simp [InClass.bare, Site.bare, h]
  · exact map_map_congr (bare_insertRange? low h (.char c))
      fun a b hab => by simp [InClass.bare, hab]

theorem bare_afterHyphen? (spaced hash inComment : Bool) :
    (afterHyphen? caseless blanks open_ low spaced hash inComment c).map InClass.bare =
      (afterHyphen? caseless' blanks open' low spaced hash inComment c).map InClass.bare := by
  unfold afterHyphen?
  split
  · simp [InClass.bare, h]
  · split
    · simp [InClass.bare, h]
    · split
      · refine map_bind_congr (bare_insertAtom? low h) fun a b hab => ?_
        split
        · simp [bare_applyOperator caseless caseless' hab]
        · split
          · simp [InClass.bare, hab]
          · exact bare_afterAtom? caseless caseless' _ c hab
      · split
        · simp [InClass.bare, h]
        · exact bare_upperEnd? low c h

theorem bare_inClass? (place : Place) :
    (inClass? caseless blanks open_ place c).map InClass.bare =
      (inClass? caseless' blanks open' place c).map InClass.bare := by
  have hstart : (inClass?.startMembers caseless open_ c).map InClass.bare =
      (inClass?.startMembers caseless' open' c).map InClass.bare := by
    unfold inClass?.startMembers
    split
    · exact map_map_congr (bare_insertAtom? _ h) fun a b hab => by simp [InClass.bare, hab]
    · split
      · exact map_map_congr (bare_insertAtom? _ h) fun a b hab => by simp [InClass.bare, hab]
      · simp [bare_betweenMembers caseless caseless' c h]
  unfold inClass?
  cases place with
  | opening =>
    simp only
    split
    · cases open_ <;> cases open' <;> simp_all [InClass.bare, Bracket.bare]
    · exact hstart
  | negating => exact hstart
  | hyphens =>
    simp only
    split
    · exact map_map_congr (bare_insertAtom? _ h) fun a b hab => by simp [InClass.bare, hab]
    · simp [bare_betweenMembers caseless caseless' c h]
  | members => simp [bare_betweenMembers caseless caseless' c h]
  | doubling d =>
    simp only
    split
    · simp [bare_applyOperator caseless caseless' h]
    · exact bare_afterAtom? caseless caseless' _ c h
  | after low => exact bare_afterAtom? caseless caseless' _ c h
  | ranging low spaced hash inComment =>
    exact bare_afterHyphen? caseless caseless' blanks low c h spaced hash inComment
  | upper low => exact bare_upperEnd? low c h
  | naming read => rfl

theorem bare_inClassName? (read : List Char) :
    (inClassName? caseless open_ read c).map InClass.bare =
      (inClassName? caseless' open' read c).map InClass.bare := by
  unfold inClassName?
  simp only
  split
  · refine map_map_congr (f := List.map Bracket.bare) ?_ fun a b hab => by simp [InClass.bare, hab]
    cases open_ <;> cases open' <;> simp_all [insertAtom?, Bracket.bare]
  · simp [InClass.bare, h]

theorem bare_unnamed (read : List Char) :
    (unnamed caseless open_ read).1.map Bracket.bare =
        (unnamed caseless' open' read).1.map Bracket.bare ∧
      (unnamed caseless open_ read).2 = (unnamed caseless' open' read).2 := by
  unfold unnamed
  refine List.foldl_rel
    (r := fun x y : List Bracket × Place => x.1.map Bracket.bare = y.1.map Bracket.bare ∧ x.2 = y.2)
    ⟨by simp [h], rfl⟩ ?_
  rintro c - ⟨opened, place⟩ ⟨opened', _⟩ ⟨hopen, rfl⟩
  have hclass := bare_inClass? caseless caseless' false c hopen place
  cases hl : inClass? caseless false opened place c with
  | none =>
    cases hr : inClass? caseless' false opened' place c with
    | none => simp_all
    | some y => simp_all
  | some x =>
    cases hr : inClass? caseless' false opened' place c with
    | none => simp_all
    | some y => cases x <;> cases y <;> simp_all [InClass.bare]

end Classes

theorem bare_bracketed (s : Reader) {x y : InClass} (h : x.bare = y.bare) :
    (s.bracketed x).bare = (s.bare.bracketed y).bare := by
  cases x <;> cases y <;>
    simp_all [InClass.bare, bracketed, bare, Mode.bare, push, Item.bare, Piece.bare]

theorem bare_place? (s : Reader) {site site' : Site} (h : site.bare = site'.bare) (a : Atom) :
    (s.place? site a).map bare = (s.bare.place? site' a).map bare := by
  unfold place?
  cases site with
  | branch =>
    cases site' with
    | branch => exact congrArg some (bare_push ..)
    | _ => cases h
  | member open_ =>
    cases site' with
    | member open' =>
      cases a <;> simp_all [Site.bare, bare, Mode.bare]
    | _ => cases h
  | upper low open_ =>
    cases site' with
    | upper low' open' =>
      simp only [Site.bare, Site.upper.injEq] at h
      obtain ⟨rfl, hopen⟩ := h
      exact map_map_congr (bare_insertRange? low hopen a) fun x y hxy => by
        simp [bare, Mode.bare, hxy]
    | _ => cases h

theorem bare_lower? (s : Reader) (body body' : Piece) (digits : List Char) (ended : Bool)
    (c : Char) :
    (s.lower? body digits ended c).map bare = (s.bare.lower? body' digits ended c).map bare := by
  unfold lower?
  split
  · simp [bare, Mode.bare, Piece.bare]
  · split
    · simp [bare, Mode.bare, Piece.bare]
    · refine map_bind_congr (f := id) rfl fun low low' hlow => ?_
      cases hlow
      split
      · simp [bare, Mode.bare, Piece.bare]
      · split
        · simp [bare, Mode.bare, Piece.bare]
        · rfl

theorem bare_upper? (s : Reader) (body body' : Piece) (low : Nat) (digits : List Char)
    (ended : Bool) (c : Char) :
    (s.upper? body low digits ended c).map bare =
      (s.bare.upper? body' low digits ended c).map bare := by
  unfold upper?
  split
  · simp [bare, Mode.bare, Piece.bare]
  · split
    · simp [bare, Mode.bare, Piece.bare]
    · refine map_bind_congr (f := id) rfl fun high high' hhigh => ?_
      cases hhigh
      split
      · simp [bare, Mode.bare, Piece.bare]
      · rfl

theorem bare_set? (flags : Flags) (c : Char) (value : Bool) :
    (flags.set? c value).map Flags.bare = (flags.bare.set? c value).map Flags.bare := by
  unfold Flags.set?
  split <;> simp [Flags.bare, apply_ite]

theorem bare_flag? (s : Reader) {flags flags' : Flags} (h : flags.bare = flags'.bare)
    (letters : List Char) (off dangling : Bool) (c : Char) :
    (s.flag? flags letters off dangling c).map bare =
      (s.bare.flag? flags' letters off dangling c).map bare := by
  have hset : ∀ value, (flags.set? c value).map Flags.bare =
      (flags'.set? c value).map Flags.bare := fun value => by
    rw [bare_set?, h, ← bare_set?]
  unfold flag?
  split
  · split
    · rfl
    · simp [bare_openGroup _ _ flags, bare_openGroup _ _ flags', h]
  · split
    · split
      · rfl
      · simp [bare, Mode.bare, Item.bare, h]
    · split
      · split
        · rfl
        · simp [bare, Mode.bare, h]
      · split
        · rfl
        · exact map_map_congr (hset _) fun a b hab => by simp [bare, Mode.bare, hab]

theorem bare_groupName? (s : Reader) (read : List Char) (c : Char) :
    (s.groupName? read c).map bare = (s.bare.groupName? read c).map bare := by
  unfold groupName?
  split
  · have hnames : s.bare.names = s.names := rfl
    simp only [hnames]
    split
    · rfl
    · exact congrArg some (bare_openGroup s _ s.flags)
  · split
    · simp [bare, Mode.bare]
    · rfl

theorem bare_hexDigit? (s : Reader) {site site' : Site} (h : site.bare = site'.bare)
    (missing value : Nat) (c : Char) :
    (s.hexDigit? site missing value c).map bare =
      (s.bare.hexDigit? site' missing value c).map bare := by
  unfold hexDigit?
  refine map_bind_congr (f := id) rfl fun d d' hd => ?_
  cases hd
  simp only
  split
  · refine map_bind_congr (f := id) rfl fun x x' hx => ?_
    cases hx
    exact bare_place? s h _
  · simp [bare, Mode.bare, h]

theorem bare_take? (s : Reader) (c : Char) : (s.take? c).map bare = (s.bare.take? c).map bare := by
  have hmode : s.bare.mode = s.mode.bare := rfl
  unfold take?
  cases hm : s.mode <;> rw [hmode, hm] <;> simp only [Mode.bare]
  case ready => exact s.bare_ready? c
  case repeated body low high spaced =>
    split
    · exact congrArg some (bare_pushRepeated ..)
    · rw [bare_ready?, bare_pushRepeated, ← bare_ready?]
  case lower body digits ended => exact s.bare_lower? ..
  case comma body low =>
    split
    · simp [bare, Mode.bare, Piece.bare]
    · exact s.bare_upper? ..
  case upper body low digits ended => exact s.bare_upper? ..
  case group =>
    split
    · simp [bare, Mode.bare]
    · rw [bare_ready?, bare_openGroup, ← bare_ready?]
      rfl
  case groupMark =>
    split
    · simp [bare, Mode.bare]
    · split
      · simp [bare, Mode.bare]
      · exact s.bare_flag? s.flags.bare_bare.symm ..
  case groupLetter =>
    split
    · simp [bare, Mode.bare]
    · rfl
  case groupAngle => exact s.bare_groupName? ..
  case groupName read => exact s.bare_groupName? ..
  case flagList flags letters off dangling => exact s.bare_flag? flags.bare_bare.symm ..
  case escape site =>
    split
    · simp [bare, Mode.bare]
    · have hbranch : (site.bare == .branch) = (site == .branch) := by
        cases site <;> rfl
      rw [hbranch]
      split
      · simp [bare, Mode.bare]
      · exact map_bind_congr (f := id) rfl fun a b hab => by cases hab; exact bare_place? s (by simp) _
  case hexStart site width =>
    split
    · simp [bare, Mode.bare]
    · exact s.bare_hexDigit? (by simp) ..
  case hexDigits site missing value => exact s.bare_hexDigit? (by simp) ..
  case hexBraced site hasNone value =>
    split
    · split
      · rfl
      · exact map_bind_congr (f := id) rfl fun a b hab => by cases hab; exact bare_place? s (by simp) _
    · exact map_map_congr (f := id) rfl fun a b hab => by cases hab; simp [bare, Mode.bare]
  case edge => simp [bare, Mode.bare]
  case edgeBrace =>
    split
    · simp [bare, Mode.bare]
    · exact s.bare_lower? ..
  case edgeName read =>
    split
    · simp [bare, Mode.bare]
    · split
      · exact map_map_congr (f := id) rfl fun a b hab => by cases hab; exact bare_push ..
      · rfl
  case bracket open_ place =>
    have hopen : open_.map Bracket.bare = (open_.map Bracket.bare).map Bracket.bare := by simp
    cases place with
    | naming read =>
      exact map_map_congr (bare_inClassName? _ _ c hopen read) fun a b hab => bare_bracketed s hab
    | _ =>
      exact map_map_congr (bare_inClass? _ _ _ c hopen _) fun a b hab => bare_bracketed s hab

theorem bare_settle (s : Reader) (c : Char) : (s.settle c).bare = (s.bare.settle c).bare := by
  have hmode : s.bare.mode = s.mode.bare := rfl
  unfold settle
  cases hm : s.mode <;> rw [hmode, hm] <;> simp only [Mode.bare, bare_bare]
  case repeated body low high spaced =>
    cases spaced with
    | true => simp
    | false =>
      simp only
      split
      · simp
      · exact bare_pushRepeated ..
  case edge =>
    split
    · simp
    · exact bare_push ..
  case bracket open_ place =>
    cases place with
    | doubling d =>
      simp only
      split
      · simp
      · simp [bare, Mode.bare]
    | naming read =>
      simp only
      split
      · simp
      · have hopen : open_.map Bracket.bare = (open_.map Bracket.bare).map Bracket.bare := by simp
        obtain ⟨hsame, hplace⟩ :=
          bare_unnamed s.flags.caseless s.bare.flags.caseless hopen read
        simp [bare, Mode.bare, hsame, hplace]
    | _ => simp

theorem passesBlanks_bare (m : Mode) : m.bare.passesBlanks = m.passesBlanks := by
  cases m with
  | bracket open_ place => cases place <;> rfl
  | _ => rfl

theorem take?_congr {s t : Reader} (h : s.bare = t.bare) (c : Char) :
    (s.take? c).map bare = (t.take? c).map bare := by
  rw [bare_take?, h, ← bare_take?]

/-- Readers that are bare alike go on alike. -/
theorem step?_congr {s t : Reader} (h : s.bare = t.bare) (c : Char) :
    (s.step? c).map bare = (t.step? c).map bare := by
  have hsettle : (s.settle c).bare = (t.settle c).bare := by
    rw [bare_settle, h, ← bare_settle]
  have hcomment : s.inComment = t.inComment := congrArg (·.inComment) h
  have hspaced : (s.settle c).flags.spaced = (t.settle c).flags.spaced :=
    congrArg (·.flags.spaced) hsettle
  have hblanks : (s.settle c).mode.passesBlanks = (t.settle c).mode.passesBlanks := by
    rw [← passesBlanks_bare, ← passesBlanks_bare (t.settle c).mode]
    exact congrArg (·.mode.passesBlanks) hsettle
  unfold step?
  simp only [hcomment, hspaced, hblanks]
  split
  · simp only [Option.map_some, Option.some.injEq]
    exact congrArg (fun s : Reader => { s with inComment := c != '\n' }) h
  · split
    · simp only [Option.map_some, Option.some.injEq]
      exact congrArg (fun s : Reader => { s with inComment := c == '#' }) hsettle
    · exact take?_congr hsettle c

/-- A text that can be read from some state can be read from every state that is bare alike. -/
theorem foldlM_step?_congr {s t : Reader} (h : s.bare = t.bare) (cs : List Char) :
    (cs.foldlM step? s).map bare = (cs.foldlM step? t).map bare := by
  induction cs generalizing s t with
  | nil => exact congrArg some h
  | cons c cs ih =>
    rw [List.foldlM_cons, List.foldlM_cons]
    exact map_bind_congr (step?_congr h c) fun a b hab => ih hab

end Highlighter.Regex.Reader
