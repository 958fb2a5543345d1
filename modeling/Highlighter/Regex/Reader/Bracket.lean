import Highlighter.Regex.Reader.Escape

/-!
Bracketed classes: members, ranges, inner classes, and the operators between them.
-/

namespace Highlighter.Regex.Reader

/-- What reading a class comes to: it goes on, perhaps in a comment, an escape begins, or the
outermost bracket is closed. -/
inductive InClass
  | inside (open_ : List Bracket) (place : Place) (inComment : Bool := false)
  | escape (site : Site)
  | closed (set : CharSet) (depth : Nat)

namespace Members

def insert (m : Members) (set : CharSet) (depth : Nat := 0) : Members :=
  ⟨.union m.set set, depth :: m.depths⟩

end Members

namespace Bracket

def insert (b : Bracket) (set : CharSet) (depth : Nat := 0) : Bracket :=
  { b with members := b.members.insert set depth }

/-- Closes a set under case where the flag `i` asks for it. -/
def cased (caseless : Bool) (s : CharSet) : CharSet := if caseless then .caseless s else s

/-- A set or what is not in it. Case is seen to first. -/
def chosen (caseless negated : Bool) (s : CharSet) : CharSet :=
  if negated then .compl (cased caseless s) else cased caseless s

/-- What the operator read before, if any, makes of the members read since, and how deep its
spelling nests. -/
def operand (b : Bracket) (caseless : Bool) : CharSet × Nat :=
  let depth := depthOf b.members.depths
  match b.waiting with
  | none => (b.members.set, depth)
  | some (op, left, leftDepth) =>
    let left := cased caseless left
    let right := cased caseless b.members.set
    let set := match op with
      | .inter => .inter left right
      | .diff => .diff left right
      | .symmDiff => .symmDiff left right
    (set, max leftDepth depth + 1)

/-- Starts the part behind an operator. -/
def operator (b : Bracket) (caseless : Bool) (op : SetOp) : Bracket :=
  { b with members := {}, waiting := some (op, b.operand caseless) }

/-- The set that the class as a whole stands for. -/
def close (b : Bracket) (caseless : Bool) : CharSet :=
  chosen caseless b.negated (b.operand caseless).1

def depth (b : Bracket) : Nat := (b.operand false).2 + 1

end Bracket

/-- Adds an atom to the innermost class. Conditions are not members. -/
def insertAtom? (open_ : List Bracket) (a : Atom) : Option (List Bracket) :=
  match open_, a with
  | b :: bs, .char c => some (b.insert (.one c) :: bs)
  | b :: bs, .set s => some (b.insert s :: bs)
  | _, _ => none

/-- Adds the range between two atoms, which have to be characters in order. -/
def insertRange? (open_ : List Bracket) (low high : Atom) : Option (List Bracket) :=
  match open_, low, high with
  | b :: bs, .char l, .char h => if l ≤ h then some (b.insert (.range l h) :: bs) else none
  | _, _, _ => none

/-- Reads a character between two members. -/
def betweenMembers (caseless : Bool) (open_ : List Bracket) (c : Char) : InClass :=
  match c, open_ with
  | '[', _ => .inside open_ (.naming [])
  | ']', [b] => .closed (b.close caseless) b.depth
  | ']', b :: outer :: bs =>
    .inside (outer.insert (b.close caseless) b.depth :: bs) .members
  | '\\', _ => .escape (.member open_)
  | _, _ =>
    if c == '&' || c == '-' || c == '~' then .inside open_ (.doubling c)
    else .inside open_ (.after (.char c))

/-- Reads a character after something that may begin a range. -/
def afterAtom? (caseless : Bool) (open_ : List Bracket) (low : Atom) (c : Char) :
    Option InClass :=
  if c == '-' then some (.inside open_ (.ranging low false false false))
  else (insertAtom? open_ low).map (betweenMembers caseless · c)

/-- Applies an operator to the innermost class. -/
def applyOperator (caseless : Bool) (open_ : List Bracket) (op : SetOp) : InClass :=
  match open_ with
  | b :: bs => .inside (b.operator caseless op :: bs) .members
  | [] => .inside [] .members

/-- Reads the upper end of a range, or the backslash in front of it. -/
def upperEnd? (open_ : List Bracket) (low : Atom) (c : Char) : Option InClass :=
  if c == '\\' then some (.escape (.upper low open_))
  else (insertRange? open_ low (.char c)).map (.inside · .members)

/-- Reads a character behind a hyphen that may make a range. It makes none in front of a
bracket or another hyphen, where the character looked at is the first one that is no blank
and does not begin a comment; a comment itself is not passed over for that. -/
def afterHyphen? (caseless blanks : Bool) (open_ : List Bracket) (low : Atom)
    (spaced hash inComment : Bool) (c : Char) : Option InClass :=
  if blanks && Text.isSpace c then
    some (.inside open_ (.ranging low true hash (inComment && c != '\n')))
  else if blanks && !hash && c == '#' then some (.inside open_ (.ranging low true true true))
  else if c == ']' || c == '-' then
    (insertAtom? open_ low).bind fun open_ =>
      if c == '-' && !spaced then some (applyOperator caseless open_ .diff)
      else if inComment then some (.inside open_ (.after (.char '-')) true)
      else afterAtom? caseless open_ (.char '-') c
  else if inComment || blanks && c == '#' then some (.inside open_ (.upper low) true)
  else upperEnd? open_ low c

/-- Reads a character in a class, names of classes apart. Where blanks and comments may stand,
the flag says so; they are passed over before, except behind a hyphen. -/
def inClass? (caseless blanks : Bool) (open_ : List Bracket) (place : Place) (c : Char) :
    Option InClass :=
  match place with
  | .opening =>
    if c == '^' then
      match open_ with
      | b :: bs => some (.inside ({ b with negated := true } :: bs) .negating)
      | [] => none
    else startMembers
  | .negating => startMembers
  | .hyphens =>
    if c == '-' then (insertAtom? open_ (.char '-')).map (.inside · .hyphens)
    else some (betweenMembers caseless open_ c)
  | .members => some (betweenMembers caseless open_ c)
  | .doubling d =>
    if c == d then
      some (applyOperator caseless open_
        (if d == '&' then .inter else if d == '-' then .diff else .symmDiff))
    else afterAtom? caseless open_ (.char d) c
  | .after low => afterAtom? caseless open_ low c
  | .ranging low spaced hash inComment =>
    afterHyphen? caseless blanks open_ low spaced hash inComment c
  | .upper low => upperEnd? open_ low c
  | .naming _ => none
where
  /-- Hyphens and a bracket are members at the beginning. -/
  startMembers : Option InClass :=
    if c == '-' then (insertAtom? open_ (.char '-')).map (.inside · .hyphens)
    else if c == ']' then (insertAtom? open_ (.char ']')).map (.inside · .members)
    else some (betweenMembers caseless open_ c)

/-- Whether more characters can make these the name of a class. -/
def mayName (read : List Char) : Bool := classSpellings.any fun s => read.isPrefixOf s.1

/-- Reads a character that belongs to the name of a class. -/
def inClassName? (caseless : Bool) (open_ : List Bracket) (read : List Char) (c : Char) :
    Option InClass :=
  let read := read ++ [c]
  match classSpellings.find? fun s => s.1 == read with
  | some (_, negated, set) =>
    (insertAtom? open_ (.set (Bracket.chosen caseless negated set))).map (.inside · .members)
  | none => some (.inside open_ (.naming read))

/-- What characters mean, behind an inner bracket, that were taken for a name and are none. -/
def unnamed (caseless : Bool) (open_ : List Bracket) (read : List Char) : List Bracket × Place :=
  read.foldl
    (fun (open_, place) c =>
      match inClass? caseless false open_ place c with
      | some (.inside open_ place _) => (open_, place)
      | _ => (open_, place))
    (({} : Bracket) :: open_, .opening)

end Highlighter.Regex.Reader
