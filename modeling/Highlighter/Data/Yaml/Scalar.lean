import Highlighter.Data.Doc
import Highlighter.Data.Json.Reader

/-!
What plain words of a YAML source stand for: nothing, truth values, numbers, or themselves.
-/

namespace Highlighter.Yaml

def isNullWord (s : String) : Bool := s == "null" || s == "Null" || s == "NULL" || s == "~"

def bool? (s : String) : Option Bool :=
  if s == "true" || s == "True" || s == "TRUE" then some true
  else if s == "false" || s == "False" || s == "FALSE" then some false
  else none

/-- The value of digits to a base. There is at least one. -/
def digits? (base : Nat) (ds : List Char) : Option Nat :=
  if ds.isEmpty then none
  else ds.foldlM (fun n c =>
    match Json.hexDigit? c with
    | some d => if d < base then some (base * n + d) else none
    | none => none) 0

/-- Whether a word is made of digits that begin with a superfluous zero. -/
def hasLeadingZero (word : List Char) : Bool :=
  let ds := match word with
    | '-' :: rest => rest
    | '+' :: rest => rest
    | ds => ds
  ds.length > 1 && ds.head? == some '0' && ds.all Char.isDigit

/-- The number that digits make, with a base in front of them if it is not ten. -/
def magnitude? (word : List Char) : Option Nat :=
  match word with
  | '0' :: 'x' :: ds => digits? 16 ds
  | '0' :: 'o' :: ds => digits? 8 ds
  | '0' :: 'b' :: ds => digits? 2 ds
  | ds => if hasLeadingZero ds then none else digits? 10 ds

/-- An integer that fits in 128 bits. -/
def int? (s : String) : Option Int :=
  match s.toList with
  | '-' :: ds => (magnitude? ds).bind fun n => if n ≤ 1 <<< 127 then some (-(n : Int)) else none
  | '+' :: ds => (magnitude? ds).bind fun n => if n < 1 <<< 128 then some (n : Int) else none
  | ds => (magnitude? ds).bind fun n => if n < 1 <<< 128 then some (n : Int) else none

/-- A number with digits before or behind the point, and perhaps an exponent. -/
def decimal? (word : List Char) : Option Double := do
  let (whole, rest) := Json.digits word
  let (fraction, rest) := match rest with
    | '.' :: rest => Json.digits rest
    | rest => ([], rest)
  if whole.isEmpty && fraction.isEmpty then none
  let (_, exponent, rest) ← Json.exponent? rest
  if !rest.isEmpty then none
  let x := Double.ofDecimal (Json.valueOf (whole ++ fraction)) (exponent - fraction.length)
  if x.isFinite then return x else none

/-- A number with a fraction or an exponent, an infinity, or none. -/
def float? (s : String) : Option Double :=
  let infinity (s : String) : Bool := s == ".inf" || s == ".Inf" || s == ".INF"
  if s == ".nan" || s == ".NaN" || s == ".NAN" then some .nan
  else if infinity s then some .infinity
  else match s.toList with
    | '-' :: rest =>
      if infinity (String.ofList rest) then some (Double.neg .infinity)
      else (decimal? rest).map .neg
    | '+' :: rest =>
      if infinity (String.ofList rest) then some .infinity else decimal? rest
    | word => decimal? word

/-- What a word without quotes stands for. -/
def ofPlain (s : String) : Scalar :=
  if s.isEmpty || isNullWord s then .null
  else match bool? s, int? s with
    | some b, _ => .bool b
    | none, some n => .int n
    | none, none =>
      match if hasLeadingZero s.toList then none else float? s with
      | some x => .float x
      | none => .string s

/-- A nonnegative integer that fits in 64 bits and is written without a minus sign. -/
def nat64? (s : String) : Option Nat :=
  if s.startsWith "-" then none
  else (int? s).bind fun n => if n < UInt64.size then some n.toNat else none

/-- What a scalar stands for by itself, or what it ought to be by its tag if its text is not
that. -/
def Word.value (w : Word) : Except String Scalar :=
  let orElse (expected : String) : Option Scalar → Except String Scalar
    | some s => .ok s
    | none => .error expected
  match w.tag with
  | some .bool => orElse "a boolean" ((bool? w.text).map .bool)
  | some .int => orElse "an integer" ((int? w.text).map .int)
  | some .float => orElse "a float" ((float? w.text).map .float)
  | some .null => orElse "null" (if isNullWord w.text then some .null else none)
  | some .other => .ok (.string w.text)
  | _ => .ok (if w.style == .plain then ofPlain w.text else .string w.text)

end Highlighter.Yaml
