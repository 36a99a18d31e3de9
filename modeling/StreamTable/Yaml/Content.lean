/-
What the text of a scalar comes to under each tag.
-/
import StreamTable.Number.Reading
import StreamTable.Value.Floating
import StreamTable.Yaml.Timestamp
import StreamTable.Yaml.Token

namespace StreamTable
namespace Yaml
namespace Content

def tagOf (text : String) : Tag :=
  let cs := Timestamp.dropLineFeed text.toList
  let word := String.ofList cs
  if Tag.trueWords.contains word || Tag.falseWords.contains word then .boolean
  else if Tag.looksFloat cs then .float
  else if Tag.looksInteger cs then .integer
  else if word == "<<" then .merge
  else if Tag.nullWords.contains word && (text.isEmpty || !cs.isEmpty) then .null
  else if Timestamp.looksRight cs then .timestamp
  else if word == "=" then .value
  else if word == "!" || word == "&" || word == "*" then .unknown
  else .text

def withoutLines (cs : List Char) : List Char := cs.filter (· ≠ '_')

/-- The number with a sign, and what is left of the text; the text is not empty. -/
def signed (cs : List Char) : Except DataFault (Bool × List Char) :=
  match cs with
  | [] => .error .badIndex
  | '-' :: rest => .ok (true, rest)
  | '+' :: rest => .ok (false, rest)
  | _ => .ok (false, cs)

/-- Numbers between colons, put together in base sixty. -/
def inBaseSixty (parts : List Int) : Int := parts.foldl (fun n d => n * 60 + d) 0

def magnitude? (cs : List Char) : Option Int :=
  match cs with
  | ['0'] => some 0
  | '0' :: 'b' :: rest => Number.readIntIn? 2 'b' rest
  | '0' :: 'x' :: rest => Number.readIntIn? 16 'x' rest
  | '0' :: _ => Number.readIntIn? 8 'o' cs
  | _ => if cs.contains ':' then ((Tag.betweenColons cs).mapM Number.readInt?).map inBaseSixty
    else Number.readInt? cs

def integer (cs : List Char) : Except DataFault Value := do
  let (negative, body) ← signed (withoutLines cs)
  if body.isEmpty then throw .badIndex
  match magnitude? body with
  | some n => pure (.int (if negative then -n else n))
  | none => throw .wrongValue

/-- Numbers between colons, the last one first, each counting for sixty times the one before. -/
def sumOfSixties (parts : List Double) : Double :=
  let add (acc : Float × Float) (x : Double) : Float × Float :=
    (acc.1 + x.toFloat * acc.2, acc.2 * 60.0)
  .ofFloat (parts.foldl add (0.0, 1.0)).1

def float (cs : List Char) : Except DataFault Value := do
  let (negative, body) ← signed ((withoutLines cs).map Char.toLower)
  let size ←
    if body = ".inf".toList then pure Double.infinity
    else if body = ".nan".toList then pure Double.nan
    else if body.contains ':' then
      let parts ← (Tag.betweenColons body).mapM Value.doubleOfText
      pure (sumOfSixties parts.reverse)
    else Value.doubleOfText body
  pure (.float (if negative then size.neg else size))

def boolean (text : String) : Except DataFault Value :=
  let word := String.ofList (text.toList.map Char.toLower)
  if Tag.trueWords.contains word then .ok (.bool true)
  else if Tag.falseWords.contains word then .ok (.bool false)
  else .error (.missingKey (.str word))

def timestamp (cs : List Char) : Except DataFault Value :=
  match Timestamp.read? cs with
  | none => .error .noSuchAttribute
  | some t =>
    match t.toValue? with
    | some v => .ok v
    | none => .error .wrongValue

/-! ## Bytes -/

def sextet? (c : Char) : Option Nat :=
  if 'A' ≤ c && c ≤ 'Z' then some (c.toNat - 65)
  else if 'a' ≤ c && c ≤ 'z' then some (c.toNat - 71)
  else if '0' ≤ c && c ≤ '9' then some (c.toNat + 4)
  else if c = '+' then some 62
  else if c = '/' then some 63
  else none

/-- The bytes of characters with six bits each.  `held` bits are left over from those before, `pads`
pad characters stand in front, and a group that is full with its pads ends the text. -/
def sextets (left held pads : Nat) : List Char → Option (List UInt8)
  | [] => if held = 0 then some [] else none
  | c :: rest =>
    if c = '=' then
      let place := if held = 4 then 2 else if held = 2 then 3 else 0
      if place ≥ 2 then
        if place + pads + 1 ≥ 4 then some [] else sextets left held (pads + 1) rest
      else sextets left held pads rest
    else
      match sextet? c with
      | none => sextets left held pads rest
      | some n =>
        if held = 0 then sextets n 6 0 rest
        else
          let all := left * 64 + n
          let held := held - 2
          (sextets (all % Nat.pow 2 held) held 0 rest).map
            (UInt8.ofNat (all / Nat.pow 2 held) :: ·)

def bytes? (cs : List Char) : Option (List UInt8) :=
  if cs.all (fun c => c.toNat < 128) then sextets 0 0 0 cs else none

end Content
end Yaml
end StreamTable
