/-
Finding a text inside another one.
-/

namespace StreamTable
namespace Text

/-- The place in a text at which another one occurs first. -/
def indexIn? (s t : List Char) : Option Nat :=
  if s.isPrefixOf t then some 0
  else
    match t with
    | [] => none
    | _ :: rest => (indexIn? s rest).map (· + 1)

def occursIn (s t : List Char) : Bool := (indexIn? s t).isSome

end Text
end StreamTable
