import Highlighter.Regex.Reader
import Highlighter.Regex.Search

/-!
What can happen next in a scope: an inner rule opens, the scope closes, or, outside all
scopes, something illegal stands there. The patterns of all these are joined into one
choice, each in a group with a name that tells its number. So the leftmost match is found,
and among matches at one place the one declared first.
-/

namespace Highlighter

/-- What a match of a scanner stands for. A rule is given by its place in its scope. -/
inductive Hit
  | rule (index : Nat)
  | closing
  | illegal
  deriving DecidableEq, Repr, Inhabited

/-- Whether a hit can come up where some number of rules are looked for: one of these rules, and
besides the end of a scope inside a scope, and illegal text outside all scopes. -/
def Hit.fits (rules : Nat) (inScope : Bool) : Hit → Bool
  | .rule index => index < rules
  | .closing => inScope
  | .illegal => !inScope

/-- A pattern that a scanner looks for. -/
structure Alternative where
  pattern : String
  caseless : Bool
  hit : Hit
  deriving DecidableEq, Repr, Inhabited

/-- The branches of a scanner, each with what it stands for. -/
structure Scanner where
  branches : List (Option Hit × Regex)
  deriving Repr, Inhabited

namespace Alternative

/-- The group around a pattern, with the flag that says whether case matters. -/
def groupStart (caseless : Bool) : String := if caseless then "(?i:" else "(?:"

/-- What every pattern of a rule is read under: `^` and `$` match at lines, and lines end
before a carriage return, a line feed, or the two together. -/
def lineFlags : String := "(?mR)"

/-- How the names of the numbered groups begin. -/
def slotName : String := "__hl"

/-- The number in the name of a group, if it is a numbered one. -/
def slot? (name : String) : Option Nat :=
  if slotName.toList.isPrefixOf name.toList then
    let digits := name.toList.drop slotName.length
    if !digits.isEmpty && digits.all Char.isDigit then
      some (digits.foldl (fun n c => 10 * n + (c.toNat - '0'.toNat)) 0)
    else none
  else none

/-- One alternative as part of the pattern of a scanner. -/
def render (index : Nat) (a : Alternative) : String :=
  "(?P<" ++ slotName ++ toString index ++ ">" ++ groupStart a.caseless ++ a.pattern ++ "))"

end Alternative

/-- The regular expression of a pattern by itself, as a scanner would read it. -/
def Regex.ofRulePattern? (pattern : String) (caseless : Bool) : Option Regex :=
  Regex.ofPattern?
    (Alternative.lineFlags ++ Alternative.groupStart caseless ++ pattern ++ ")")

namespace Scanner

/-- A scanner that finds nothing. -/
def none : Scanner := ⟨[]⟩

/-- The pattern of some alternatives together. -/
def pattern (alternatives : List Alternative) : String :=
  Alternative.lineFlags
    ++ "|".intercalate (alternatives.mapIdx Alternative.render)

/-- What a branch stands for: the alternative whose number its first numbered group has. -/
def hitOf (alternatives : List Alternative) (branch : Regex) : Option Hit :=
  branch.groupNames.findSome? fun name =>
    (Alternative.slot? name).bind fun n => (alternatives[n]?).map Alternative.hit

theorem mem_of_hitOf {alternatives : List Alternative} {branch : Regex} {hit : Hit}
    (h : hitOf alternatives branch = some hit) : ∃ a ∈ alternatives, a.hit = hit := by
  obtain ⟨name, _, hname⟩ := List.exists_of_findSome?_eq_some h
  obtain ⟨n, _, hn⟩ := Option.bind_eq_some_iff.1 hname
  obtain ⟨a, ha, heq⟩ := Option.map_eq_some_iff.1 hn
  exact ⟨a, List.mem_of_getElem? ha, heq⟩

/-- Everything that the branches stand for. -/
def hits (s : Scanner) : List Hit := s.branches.filterMap Prod.fst

/-- The scanner for some alternatives, if their patterns go together. -/
def build? (alternatives : List Alternative) : Option Scanner :=
  if alternatives.isEmpty then some none
  else (Regex.ofPattern? (pattern alternatives)).map fun r =>
    ⟨r.branches.map fun branch => (hitOf alternatives branch, branch)⟩

/-- A scanner stands for nothing but its alternatives. -/
theorem mem_of_build? {alternatives : List Alternative} {s : Scanner}
    (h : build? alternatives = some s) {hit : Hit} (hm : hit ∈ s.hits) :
    ∃ a ∈ alternatives, a.hit = hit := by
  unfold build? at h
  split at h
  · cases h
    cases hm
  · obtain ⟨r, _, rfl⟩ := Option.map_eq_some_iff.1 h
    obtain ⟨b, hb, hhit⟩ := List.mem_filterMap.1 hm
    obtain ⟨branch, _, rfl⟩ := List.mem_map.1 hb
    exact mem_of_hitOf hhit

/-- The first branch that matches at `p`: what it stands for, and the end of the match. -/
def hitAt? (s : Scanner) (h : Haystack) (p : Nat) : Option (Option Hit × Nat) :=
  s.branches.findSome? fun (hit, branch) => (branch.endAt? h p).map (hit, ·)

/-- The leftmost match at `p` or later, as hit, start and end. -/
def find? (s : Scanner) (h : Haystack) (p : Nat) : Option (Hit × Nat × Nat) :=
  (h.first? (s.hitAt? h) p).bind fun (start, hit, stop) => hit.map (·, start, stop)

theorem hitAt?_eq_some {s : Scanner} {h : Haystack} {p stop : Nat} {hit : Option Hit}
    (hh : s.hitAt? h p = some (hit, stop)) :
    p ≤ stop ∧ stop ≤ max p h.stop ∧ ∀ found, hit = some found → found ∈ s.hits := by
  obtain ⟨⟨hit', branch⟩, hmem, hb⟩ := List.exists_of_findSome?_eq_some hh
  obtain ⟨e, he, heq⟩ := Option.map_eq_some_iff.1 hb
  cases heq
  obtain ⟨hle, hmax⟩ := Regex.endAt?_bounds he
  exact ⟨hle, hmax, fun found hfound => List.mem_filterMap.2 ⟨_, hmem, hfound⟩⟩

/-- A match lies behind where the search began and inside the region, and it stands for one of
the alternatives. -/
theorem find?_eq_some {s : Scanner} {h : Haystack} {p start stop : Nat} {hit : Hit}
    (hf : s.find? h p = some (hit, start, stop)) :
    p ≤ start ∧ start ≤ stop ∧ stop ≤ h.stop ∧ hit ∈ s.hits := by
  obtain ⟨⟨first, hit', last⟩, hfirst, hmap⟩ := Option.bind_eq_some_iff.1 hf
  obtain ⟨hle, hstop, hat, _⟩ := Haystack.first?_eq_some hfirst
  obtain ⟨found, hfound, heq⟩ := Option.map_eq_some_iff.1 hmap
  cases heq
  obtain ⟨hle', hmax, hmem⟩ := hitAt?_eq_some hat
  exact ⟨hle, hle', by omega, hmem _ hfound⟩

end Scanner

end Highlighter
