/-
Tags, which say what kind of value a node has, and the tag that a plain scalar has by the look of
its text.
-/
import StreamTable.Text.Digit

namespace StreamTable
namespace Yaml

inductive Tag where
  | null
  | boolean
  | integer
  | float
  | bytes
  | timestamp
  | orderedMap
  | pairs
  | set
  | text
  | sequence
  | mapping
  /-- The key of entries to take over from other mappings. -/
  | merge
  /-- The key of the entry that stands for the whole mapping. -/
  | value
  | unknown
deriving DecidableEq

namespace Tag

/-- What the names of known tags begin with. -/
def home : String := "tag:yaml.org,2002:"

def known : List (String × Tag) :=
  [("null", .null), ("bool", .boolean), ("int", .integer), ("float", .float), ("binary", .bytes),
    ("timestamp", .timestamp), ("omap", .orderedMap), ("pairs", .pairs), ("set", .set),
    ("str", .text), ("seq", .sequence), ("map", .mapping), ("merge", .merge), ("value", .value)]

def ofName (name : String) : Tag :=
  ((known.find? fun e => home ++ e.1 == name).map (·.2)).getD .unknown

/-! ## The looks of plain scalars -/

def isDigit (c : Char) : Bool := '0' ≤ c && c ≤ '9'

def isDigitOrLine (c : Char) : Bool := isDigit c || c = '_'

def dropSign : List Char → List Char
  | '-' :: rest => rest
  | '+' :: rest => rest
  | cs => cs

/-- A digit, or two that are less than sixty. -/
def isSixtieth : List Char → Bool
  | [a] => isDigit a
  | [a, b] => '0' ≤ a && a ≤ '5' && isDigit b
  | _ => false

def betweenColons : List Char → List (List Char)
  | [] => [[]]
  | ':' :: rest => [] :: betweenColons rest
  | c :: rest =>
    match betweenColons rest with
    | first :: others => (c :: first) :: others
    | [] => [[c]]

/-- Digits, and after colons numbers in base sixty. -/
def isSixtyfold (first : List Char → Bool) (cs : List Char) : Bool :=
  match betweenColons cs with
  | head :: parts => first head && !parts.isEmpty && parts.all isSixtieth
  | [] => false

/-- A digit of a kind, and then digits or lines. -/
def isNumeral (head : Char → Bool) : List Char → Bool
  | c :: rest => head c && rest.all isDigitOrLine
  | [] => false

def isPositiveNumeral : List Char → Bool := isNumeral fun c => '1' ≤ c && c ≤ '9'

/-- An integer: in base two, eight, ten, sixteen or sixty. -/
def looksInteger (cs : List Char) : Bool :=
  let body := dropSign cs
  let inBase := match body with
    | '0' :: 'b' :: rest => !rest.isEmpty && rest.all fun c => c = '0' || c = '1' || c = '_'
    | '0' :: 'x' :: rest => !rest.isEmpty && rest.all fun c => (Text.hexDigit? c).isSome || c = '_'
    | '0' :: rest => rest.all fun c => ('0' ≤ c && c ≤ '7') || c = '_'
    | _ => false
  inBase || isPositiveNumeral body || isSixtyfold isPositiveNumeral body

/-- Nothing, or an exponent with its sign. -/
def isExponent : List Char → Bool
  | [] => true
  | e :: sign :: rest =>
    (e = 'e' || e = 'E') && (sign = '-' || sign = '+') && !rest.isEmpty && rest.all isDigit
  | _ => false

def isFraction (cs : List Char) : Bool := isExponent (cs.dropWhile isDigitOrLine)

/-- A floating point number: with a point, an infinity, or NaN. -/
def looksFloat (cs : List Char) : Bool :=
  let body := dropSign cs
  let whole := body.takeWhile (· ≠ '.')
  let signless := body.length = cs.length
  match body.dropWhile (· ≠ '.') with
  | [] => false
  | _ :: part =>
    if whole.isEmpty then
      ["inf", "Inf", "INF"].contains (String.ofList part) ||
        (signless && ["nan", "NaN", "NAN"].contains (String.ofList part)) ||
        (signless && (part.head?.any isDigit) && isFraction part)
    else
      (isNumeral isDigit whole && isFraction part) ||
        (isSixtyfold (isNumeral isDigit) whole && part.all isDigitOrLine)

def trueWords : List String := ["yes", "Yes", "YES", "true", "True", "TRUE", "on", "On", "ON"]

def falseWords : List String := ["no", "No", "NO", "false", "False", "FALSE", "off", "Off", "OFF"]

def nullWords : List String := ["~", "null", "Null", "NULL", ""]

end Tag
end Yaml
end StreamTable
