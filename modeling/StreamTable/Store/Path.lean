/-
Paths of files: the names on the way from the working directory, or from the root of the file
system.
-/

namespace StreamTable
namespace Store

structure Path where
  absolute : Bool
  names : List String
deriving DecidableEq, Inhabited

namespace Path

/-- The parts of a text between slashes. -/
def split : List Char → List (List Char)
  | [] => [[]]
  | '/' :: rest => [] :: split rest
  | c :: rest =>
    match split rest with
    | part :: parts => (c :: part) :: parts
    | [] => [[c]]

/-- A name that leads nowhere else. -/
def isIdle (name : String) : Bool := name.isEmpty || name == "."

def ofText (s : String) : Path where
  absolute := s.toList.head? == some '/'
  names := ((split s.toList).map String.ofList).filter fun name => !isIdle name

def join (p : Path) (s : String) : Path :=
  let q := ofText s
  if q.absolute then q else { p with names := p.names ++ q.names }

def child (p : Path) (name : String) : Path := { p with names := p.names ++ [name] }

/-- Names with each step up undoing the step before it. -/
def straighten (names : List String) : List String :=
  names.foldl (fun done name =>
    if name == ".." && (done.getLast?.map (· != "..")).getD false then done.dropLast
    else done ++ [name]) []

/-- The shortest path to the same place. -/
def normal (p : Path) : Path := { p with names := straighten p.names }

def parent (p : Path) : Path := { p with names := p.names.dropLast }

/-- The last name of a path; the root and the working directory have none. -/
def name (p : Path) : String := p.names.getLast?.getD ""

/-- The paths on the way to a path, from the top down, steps up included. -/
def way (p : Path) : List Path :=
  (List.range p.names.length).map fun n => { p with names := p.names.take (n + 1) }

/-- The names from a path down to another one, if it is below. -/
def below? (base p : Path) : Option (List String) :=
  if base.absolute == p.absolute && base.names.isPrefixOf p.names then
    some (p.names.drop base.names.length)
  else none

def joinNames : List String → String
  | [] => ""
  | [name] => name
  | name :: rest => name ++ "/" ++ joinNames rest

def text (p : Path) : String :=
  if p.absolute then "/" ++ joinNames p.names
  else if p.names.isEmpty then "." else joinNames p.names

end Path
end Store
end StreamTable
