/-
The name of the field that holds a plain value: `message`, unless the settings give another.
-/
import StreamTable.Failure

namespace StreamTable
namespace FieldName

def default : String := "message"

/-- The name that is tested: a text without one line feed at its end. -/
def dropLineEnd (cs : List Char) : List Char :=
  match cs.reverse with
  | '\n' :: rest => rest.reverse
  | _ => cs

def isLetter (c : Char) : Bool :=
  ('a' ≤ c && c ≤ 'z') || ('A' ≤ c && c ≤ 'Z') || c = '_'

def isDigit (c : Char) : Bool := '0' ≤ c && c ≤ '9'

/-- A letter or underscore of ASCII, then letters, digits and underscores. -/
def isName : List Char → Bool
  | [] => false
  | c :: rest => isLetter c && rest.all fun c => isLetter c || isDigit c

/-- Whether a text is accepted as a name; one line feed after a name is overlooked. -/
def isAccepted (s : String) : Bool := isName (dropLineEnd s.toList)

def resolve (setting : Value) : Except Failure String :=
  if !setting.isTruthy then .ok default
  else
    match setting with
    | .str s => if isAccepted s then .ok s else .error (.config (.fieldName setting))
    | _ => .error (.data .wrongType)

end FieldName
end StreamTable
