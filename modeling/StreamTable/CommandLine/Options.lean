/-
The options on the command line.  A long name may be cut short as long as it stays the only one
that begins so, and may carry its argument after an equals sign; short names may be written in one
word.  A word that is a negative number, or has a blank in it, is never an option.
-/
import StreamTable.Number.Reading

namespace StreamTable
namespace CommandLine

inductive Flag where
  | help
  | config
  | input
  | table
  | baseDir
  | drainTimeout
  | structuredLogs
  | verbose
deriving DecidableEq

namespace Flag

/-- Whether an argument comes with the flag. -/
def takesArgument : Flag → Bool
  | .help | .structuredLogs | .verbose => false
  | .config | .input | .table | .baseDir | .drainTimeout => true

def names : List (String × Flag) :=
  [("-h", .help), ("--help", .help), ("--config", .config), ("--input", .input),
    ("--table", .table), ("--base-dir", .baseDir), ("--drain-timeout", .drainTimeout),
    ("--structured-logs", .structuredLogs), ("--verbose", .verbose), ("-v", .verbose)]

def ofName? (name : String) : Option Flag := (names.find? (·.1 == name)).map (·.2)

end Flag

/-- Why a command line is refused. -/
inductive Misuse where
  | ambiguous (word : String)
  | argumentMissing (name : String)
  | argumentUnwanted (name : String)
  | notNumber (word : String)
  | inputMissing
  | unrecognized (words : List String)

def Misuse.message : Misuse → String
  | .ambiguous word => "ambiguous option: " ++ word
  | .argumentMissing name => "argument " ++ name ++ ": expected one argument"
  | .argumentUnwanted name => "argument " ++ name ++ ": takes no argument"
  | .notNumber word => "argument --drain-timeout: invalid number: " ++ word
  | .inputMissing => "the following arguments are required: --input"
  | .unrecognized words => "unrecognized arguments: " ++ " ".intercalate words

/-! ## Words -/

inductive Word where
  | plain (text : String)
  | flag (name : String) (flag : Flag) (argument : Option String)
  | unknown (text : String)

/-- A text up to its first equals sign, and what comes after it. -/
def splitAtEquals (cs : List Char) : List Char × Option (List Char) :=
  match cs.dropWhile (· ≠ '=') with
  | [] => (cs, none)
  | _ :: rest => (cs.takeWhile (· ≠ '='), some rest)

def isNegativeNumber : List Char → Bool
  | '-' :: rest =>
    let rest := if rest.getLast? = some '\n' then rest.dropLast else rest
    let isDigit (c : Char) : Bool := (Text.digitValue? c).isSome
    match rest.dropWhile isDigit with
    | [] => !rest.isEmpty
    | '.' :: part => !part.isEmpty && part.all isDigit
    | _ => false
  | _ => false

/-- The flags that a word can stand for although it is none of their names: long ones that begin
with it, or a short one with something after it. -/
def candidates (cs : List Char) : List Word :=
  let text := String.ofList cs
  if cs.take 2 = ['-', '-'] then
    let (stem, argument) := splitAtEquals cs
    Flag.names.filterMap fun (name, flag) =>
      if stem.isPrefixOf name.toList then some (.flag name flag (argument.map String.ofList))
      else none
  else
    Flag.names.filterMap fun (name, flag) =>
      if name.toList = cs.take 2 then some (.flag name flag (some (String.ofList (cs.drop 2))))
      else if name.startsWith text then some (.flag name flag none)
      else none

def Word.ofText (text : String) : Except Misuse Word :=
  let cs := text.toList
  let (stem, argument) := splitAtEquals cs
  if cs.head? ≠ some '-' then .ok (.plain text)
  else match Flag.ofName? text with
    | some f => .ok (.flag text f none)
    | none =>
      if cs.length = 1 then .ok (.plain text)
      else match Flag.ofName? (String.ofList stem), argument with
        | some f, some argument =>
          .ok (.flag (String.ofList stem) f (some (String.ofList argument)))
        | _, _ =>
          match candidates cs with
          | [word] => .ok word
          | [] =>
            if isNegativeNumber cs || cs.contains ' ' then .ok (.plain text)
            else .ok (.unknown text)
          | _ => .error (.ambiguous text)

/-- The words of a command line; after two dashes alone nothing is an option. -/
def words : List String → Except Misuse (List Word)
  | [] => .ok []
  | "--" :: rest => .ok (.unknown "--" :: rest.map .plain)
  | text :: rest => do
    let word ← Word.ofText text
    return word :: (← words rest)

/-! ## Options -/

structure Options where
  config : Option String
  input : String
  /-- The table, if it is not the one that the settings name. -/
  table : Option String
  baseDir : Option String
  /-- Seconds to wait until all records are taken. -/
  drainTimeout : Double
  structuredLogs : Bool
  verbose : Bool

inductive Stop where
  | help
  | misuse (m : Misuse)

/-- The options as far as they are read, and the words that are none. -/
structure Draft where
  config : Option String
  input : Option String
  table : Option String
  baseDir : Option String
  drainTimeout : Double
  structuredLogs : Bool
  verbose : Bool
  others : List String

namespace Draft

def start : Draft := ⟨none, none, none, none, .ofInt 30, false, false, []⟩

/-- Take up a flag without an argument. -/
def set (flag : Flag) (d : Draft) : Except Stop Draft :=
  match flag with
  | .help => .error .help
  | .structuredLogs => .ok { d with structuredLogs := true }
  | .verbose => .ok { d with verbose := true }
  | _ => .ok d

def setTo (flag : Flag) (argument : String) (d : Draft) : Except Stop Draft :=
  match flag with
  | .config => .ok { d with config := some argument }
  | .input => .ok { d with input := some argument }
  | .table => .ok { d with table := some argument }
  | .baseDir => .ok { d with baseDir := some argument }
  | .drainTimeout =>
    match Number.readDouble? argument.toList with
    | some x => .ok { d with drainTimeout := x }
    | none => .error (.misuse (.notNumber argument))
  | _ => .ok d

/-- The flags that are written in one word after a short one. -/
def cluster (name : String) (rest : List Char) : Except Misuse (List Flag) :=
  rest.mapM fun c =>
    match Flag.ofName? (String.ofList ['-', c]) with
    | some flag => .ok flag
    | none => .error (.argumentUnwanted name)

def setAll (flags : List Flag) (d : Draft) : Except Stop Draft :=
  flags.foldlM (fun d flag => d.set flag) d

/-- Take up words, one after another. -/
def read : List Word → Draft → Except Stop Draft
  | [], d => .ok d
  | .plain text :: rest, d => read rest { d with others := d.others ++ [text] }
  | .unknown text :: rest, d => read rest { d with others := d.others ++ [text] }
  | .flag name flag argument :: rest, d =>
    if flag.takesArgument then
      match argument, rest with
      | some text, rest => do read rest (← d.setTo flag text)
      | none, .plain text :: rest => do read rest (← d.setTo flag text)
      | none, _ => .error (.misuse (.argumentMissing name))
    else
      match argument with
      | none => do read rest (← d.set flag)
      | some text => do
        if name.startsWith "--" || text.isEmpty then
          throw (.misuse (.argumentUnwanted name))
        let more ← (cluster name text.toList).mapError Stop.misuse
        read rest (← d.setAll (flag :: more))

end Draft

/-- The options that a command line gives. -/
def Options.ofWords (args : List String) : Except Stop Options := do
  let d ← Draft.read (← (words args).mapError Stop.misuse) .start
  match d.input with
  | none => throw (.misuse .inputMissing)
  | some input =>
    if !d.others.isEmpty then throw (.misuse (.unrecognized d.others))
    return {
      config := d.config, input := input, table := d.table, baseDir := d.baseDir
      drainTimeout := d.drainTimeout, structuredLogs := d.structuredLogs, verbose := d.verbose }

/-- How the program is used. -/
def usage : List String :=
  ["usage: stream-table [-h] [--config CONFIG] --input INPUT [--table TABLE]",
    "                    [--base-dir BASE_DIR] [--drain-timeout DRAIN_TIMEOUT]",
    "                    [--structured-logs] [--verbose]"]

end CommandLine
end StreamTable
