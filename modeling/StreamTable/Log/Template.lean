/-
Message templates.  A percent sign and what follows it, up to a letter, stands for an argument and
says how it is written: `%s` as text, `%r` with texts in quotes, `%d` as an integer, `%x` in base
sixteen, `%f` with six digits after the point.  Between the sign and the letter may stand the name
of an argument in parentheses, flags, a width and a precision.
-/
import StreamTable.Number.Rounded
import StreamTable.Value.Equality
import StreamTable.Value.Floating
import StreamTable.Value.Text

namespace StreamTable
namespace Log
namespace Template

/-- What a template is filled with: arguments in order, or one map whose entries go by their
names.  The map itself can be taken once as an argument, or else the last entry that was named. -/
inductive Arguments where
  | ordered (left : List Value)
  | named (entries : List (Value × Value)) (pending : Option Value)

/-- A single map that is not empty gives arguments by name. -/
def Arguments.ofList : List Value → Arguments
  | [.map (e :: es)] => .named (e :: es) (some (.map (e :: es)))
  | vs => .ordered vs

def Arguments.next : Arguments → Except DataFault (Value × Arguments)
  | .ordered (v :: rest) => .ok (v, .ordered rest)
  | .named es (some v) => .ok (v, .named es none)
  | _ => .error .wrongType

def Arguments.choose (name : String) : Arguments → Except DataFault Arguments
  | .ordered _ => .error .wrongType
  | .named es _ =>
    match Value.field? es name with
    | some v => .ok (.named es (some v))
    | none => .error (.missingKey (.str name))

def Arguments.isLeftOver : Arguments → Bool
  | .ordered left => !left.isEmpty
  | .named .. => false

/-- How an argument is written. -/
structure Style where
  left : Bool
  plus : Bool
  blank : Bool
  alternate : Bool
  zeros : Bool
  width : Nat
  precision : Option Nat

def Style.plain : Style := ⟨false, false, false, false, false, 0, none⟩

/-! ## Reading a place for an argument -/

/-- The name in parentheses, which may hold others in pairs, and the rest. -/
def takeName : Nat → List Char → Except DataFault (List Char × List Char)
  | _, [] => .error .wrongValue
  | depth, c :: rest => do
    if c = ')' && depth = 0 then return ([], rest)
    let depth := if c = '(' then depth + 1 else if c = ')' then depth - 1 else depth
    let (name, rest) ← takeName depth rest
    return (c :: name, rest)

def setFlag (c : Char) (s : Style) : Option Style :=
  match c with
  | '-' => some { s with left := true }
  | '+' => some { s with plus := true }
  | ' ' => some { s with blank := true }
  | '#' => some { s with alternate := true }
  | '0' => some { s with zeros := true }
  | _ => none

def takeFlags (s : Style) : List Char → Style × List Char
  | [] => (s, [])
  | c :: rest =>
    match setFlag c s with
    | some s => takeFlags s rest
    | none => (s, c :: rest)

def isDigit (c : Char) : Bool := '0' ≤ c && c ≤ '9'

def numberOf (digits : List Char) : Nat := digits.foldl (fun n c => n * 10 + (c.toNat - 48)) 0

/-- A number of so many bits in the template, or an argument that is one in the place of a star. -/
def takeNumber (bits : Nat) (args : Arguments) :
    List Char → Except DataFault (Int × Arguments × List Char)
  | '*' :: rest => do
    let (v, args) ← args.next
    match v.asInt? with
    | some n =>
      if n.natAbs < Nat.pow 2 bits then return (n, args, rest) else throw .overflow
    | none => throw .wrongType
  | cs =>
    let digits := cs.takeWhile isDigit
    let n := numberOf digits
    if n < Nat.pow 2 bits then .ok (n, args, cs.drop digits.length) else .error .wrongValue

/-- The precision after a point, if there is one. -/
def takePrecision (args : Arguments) :
    List Char → Except DataFault (Option Nat × Arguments × List Char)
  | '.' :: rest => do
    let (n, args, rest) ← takeNumber 31 args rest
    return (some n.toNat, args, rest)
  | cs => .ok (none, args, cs)

/-- A letter for the size of a number says nothing. -/
def dropSize : List Char → List Char
  | 'h' :: rest => rest
  | 'l' :: rest => rest
  | 'L' :: rest => rest
  | cs => cs

/-- The place for an argument after a percent sign: its style, its letter, and the rest. -/
def takePlace (args : Arguments) (cs : List Char) :
    Except DataFault (Style × Char × Arguments × List Char) := do
  let (args, cs) ← match cs with
    | '(' :: rest => do
      let args ← match args with
        | .named .. => pure args
        | .ordered _ => throw .wrongType
      let (name, rest) ← takeName 0 rest
      pure (← args.choose (String.ofList name), rest)
    | cs => pure (args, cs)
  let (style, cs) := takeFlags .plain cs
  let (width, args, cs) ← takeNumber 63 args cs
  let style := { style with width := width.natAbs, left := style.left || width < 0 }
  let (precision, args, cs) ← takePrecision args cs
  match dropSize cs with
  | [] => throw .wrongValue
  | letter :: rest => return ({ style with precision := precision }, letter, args, rest)

/-! ## Writing an argument -/

/-- The parts of what is written: a sign, a mark of the base, and the rest. -/
structure Written where
  negative : Bool
  mark : List Char
  body : List Char

/-- Fill a text up to a width, with a sign and a mark in front.  Zeros go behind them, blanks before
them or at the end. -/
def Style.pad (s : Style) (isNumber : Bool) (w : Written) : List Char :=
  let sign :=
    if w.negative then ['-']
    else if isNumber && s.plus then ['+']
    else if isNumber && s.blank then [' ']
    else []
  let lead := sign ++ w.mark
  let gap := s.width - (lead.length + w.body.length)
  if s.left then lead ++ w.body ++ List.replicate gap ' '
  else if isNumber && s.zeros then lead ++ List.replicate gap '0' ++ w.body
  else List.replicate gap ' ' ++ lead ++ w.body

def Style.padText (s : Style) (text : String) : List Char :=
  let cs := text.toList
  let cs := match s.precision with
    | some n => cs.take n
    | none => cs
  s.pad false ⟨false, [], cs⟩

/-- The integer that a number is cut to. -/
def wholeOf : Value → Except DataFault Int
  | .int n => .ok n
  | .bool b => .ok (if b then 1 else 0)
  | .float x =>
    if x.isNaN then .error .wrongValue
    else if x.isFinite then .ok x.truncate
    else .error .overflow
  | .decimal (.finite negative coefficient exponent) =>
    let n : Int := coefficient * Nat.pow 10 exponent.toNat / Nat.pow 10 (-exponent).toNat
    .ok (if negative then -n else n)
  | .decimal (.infinite _) => .error .overflow
  | .decimal (.nan ..) => .error .wrongValue
  | .uuid u => .ok u.value
  | _ => .error .wrongType

def integerOf (v : Value) : Except DataFault Int :=
  match v.asInt? with
  | some n => .ok n
  | none => .error .wrongType

/-- The floating point number of a number. -/
def realOf (v : Value) : Except DataFault Double :=
  match v with
  | .int _ | .bool _ | .float _ | .decimal _ => v.toDouble
  | _ => .error .wrongType

/-- An integer in a base, with at least as many digits as the precision says. -/
def Style.padInteger (s : Style) (base : Nat) (mark : List Char) (upper : Bool) (n : Int) :
    List Char :=
  let digits := Nat.toDigits base n.natAbs
  let digits := if upper then digits.map Char.toUpper else digits
  let digits := List.replicate (s.precision.getD 0 - digits.length) '0' ++ digits
  s.pad true ⟨n < 0, if s.alternate then mark else [], digits⟩

/-- A floating point number by a letter. -/
def Style.padReal (s : Style) (letter : Char) (x : Double) : List Char :=
  let places := s.precision.getD 6
  let body :=
    if x.isNaN then "nan".toList
    else if !x.isFinite then "inf".toList
    else match letter.toLower with
      | 'f' => x.fixedText places s.alternate
      | 'e' => x.scientificText places s.alternate
      | _ => x.generalText places s.alternate
  let body := if letter.isUpper then body.map Char.toUpper else body
  s.pad true ⟨x.isNegative && !x.isNaN, [], body⟩

/-- One character, given as it is or by its number. -/
def characterOf : Value → Except DataFault Char
  | .str s =>
    match s.toList with
    | [c] => .ok c
    | _ => .error .wrongType
  | v =>
    match v.asInt? with
    | some n => if 0 ≤ n && n < 0x110000 then .ok (Char.ofNat n.toNat) else .error .overflow
    | none => .error .wrongType

def Style.write (s : Style) (letter : Char) (v : Value) : Except DataFault (List Char) :=
  match letter with
  | 's' => .ok (s.padText v.text)
  | 'r' => .ok (s.padText v.shown)
  | 'a' => .ok (s.padText (Text.asciiOnly v.shown))
  | 'd' | 'i' | 'u' => (wholeOf v).map (s.padInteger 10 [] false)
  | 'o' => (integerOf v).map (s.padInteger 8 ['0', 'o'] false)
  | 'x' => (integerOf v).map (s.padInteger 16 ['0', 'x'] false)
  | 'X' => (integerOf v).map (s.padInteger 16 ['0', 'X'] true)
  | 'e' | 'E' | 'f' | 'F' | 'g' | 'G' => (realOf v).map (s.padReal letter)
  | 'c' => (characterOf v).map fun c => s.pad false ⟨false, [], [c]⟩
  | _ => .error .wrongValue

/-! ## Whole templates -/

def fillFrom : Nat → List Char → Arguments → Except DataFault (List Char × Arguments)
  | 0, _, args => .ok ([], args)
  | _, [], args => .ok ([], args)
  | fuel + 1, '%' :: '%' :: rest, args => do
    let (tail, args) ← fillFrom fuel rest args
    return ('%' :: tail, args)
  | fuel + 1, '%' :: rest, args => do
    let (style, letter, args, rest) ← takePlace args rest
    let (v, args) ← args.next
    let written ← style.write letter v
    let (tail, args) ← fillFrom fuel rest args
    return (written ++ tail, args)
  | fuel + 1, c :: rest, args => do
    let (tail, args) ← fillFrom fuel rest args
    return (c :: tail, args)

/-- Fill a template with arguments, none of which may be left over. -/
def fillWith (template : String) (args : Arguments) : Except DataFault String := do
  let cs := template.toList
  let (text, args) ← fillFrom cs.length cs args
  if args.isLeftOver then throw .wrongType
  return String.ofList text

/-- Fill a template with arguments; without any it stands for itself. -/
def fill (template : String) (args : List Value) : Except DataFault String :=
  if args.isEmpty then .ok template else fillWith template (.ofList args)

end Template
end Log
end StreamTable
