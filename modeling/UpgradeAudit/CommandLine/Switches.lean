/-
# Switches

The form of a command line: switches and words.  A switch has a long name after two dashes
and may have a letter after one dash.  Letters can stand together after one dash.  A switch
that takes a value finds it after `=` behind its long name, in what follows its letter, or
in the next argument.  Two dashes alone say that everything after them is a word.

Where words and switches may not be mixed, the first word ends the switches.  Each round takes
one argument at least, so reading recurs on the arguments.
-/

namespace UpgradeAudit.CommandLine

/-- A switch: what it stands for, and how it is written. -/
structure Switch (κ : Type) where
  key : κ
  letter : Option Char
  name : String
  takesValue : Bool

/-- What is wrong with a command line. -/
inductive Misuse where
  | unknownSwitch (name : String)
  | missingValue (name : String)
  | unexpectedValue (name : String)
  | missingCommand
  | unknownCommand (name : String)
  | missingArgument (name : String)
  | unexpectedArguments (words : List String)
  | badValue (name reason : String)
  deriving DecidableEq, Repr

/-- The wording of a misuse. -/
def Misuse.message : Misuse → String
  | unknownSwitch name => "No such option: " ++ name
  | missingValue name => "Option '" ++ name ++ "' requires an argument."
  | unexpectedValue name => "Option '" ++ name ++ "' does not take a value."
  | missingCommand => "Missing command."
  | unknownCommand name => "No such command '" ++ name ++ "'."
  | missingArgument name => "Missing argument '" ++ name ++ "'."
  | unexpectedArguments words =>
    "Got unexpected extra argument" ++ (if words.length = 1 then "" else "s") ++ " ("
      ++ " ".intercalate words ++ ")"
  | badValue name reason => "Invalid value for '" ++ name ++ "': " ++ reason

/-- What one argument holds: the switches that are complete, and one that still lacks its
value. -/
structure Given (κ : Type) where
  settled : List (κ × String)
  open? : Option (Switch κ)

/-- Switches with their values, in the order in which they were given, and the words. -/
structure Line (κ : Type) where
  switches : List (κ × String)
  words : List String
  deriving DecidableEq, Repr

/-- A line with switches before the others. -/
def Line.after (given : List (κ × String)) (l : Line κ) : Line κ :=
  { l with switches := given ++ l.switches }

/-- A line with a word before the others. -/
def Line.afterWord (word : String) (l : Line κ) : Line κ := { l with words := word :: l.words }

/-- The switches of a run of letters. -/
def ofLetters (known : List (Switch κ)) : List Char → Except Misuse (Given κ)
  | [] => .ok ⟨[], none⟩
  | c :: rest =>
    match known.find? fun s => s.letter = some c with
    | none => .error (.unknownSwitch (String.ofList ['-', c]))
    | some s =>
      if s.takesValue then
        if rest.isEmpty then .ok ⟨[], some s⟩
        else .ok ⟨[(s.key, String.ofList rest)], none⟩
      else do
        let given ← ofLetters known rest
        return { given with settled := (s.key, "") :: given.settled }

/-- The switch of a long name. -/
def ofName (known : List (Switch κ)) (argument : List Char) : Except Misuse (Given κ) :=
  let name := String.ofList (argument.takeWhile (· ≠ '='))
  match known.find? (·.name = name), argument.dropWhile (· ≠ '=') with
  | none, _ => .error (.unknownSwitch name)
  | some s, [] => .ok (if s.takesValue then ⟨[], some s⟩ else ⟨[(s.key, "")], none⟩)
  | some s, _ :: value =>
    if s.takesValue then .ok ⟨[(s.key, String.ofList value)], none⟩
    else .error (.unexpectedValue name)

/-- What an argument that starts with a dash holds. -/
def ofArgument (known : List (Switch κ)) (argument : String) : Except Misuse (Given κ) :=
  match argument.toList with
  | '-' :: '-' :: _ => ofName known argument.toList
  | '-' :: letters => ofLetters known letters
  | _ => .error (.unknownSwitch argument)

/-- Whether an argument holds switches. -/
def holdsSwitches (argument : String) : Bool :=
  match argument.toList with
  | '-' :: _ :: _ => true
  | _ => false

/-- Reads a command line; `mixed` says whether switches may follow words. -/
def Line.read (known : List (Switch κ)) (mixed : Bool) : List String → Except Misuse (Line κ)
  | [] => .ok ⟨[], []⟩
  | argument :: rest =>
    if argument = "--" then .ok ⟨[], rest⟩
    else if holdsSwitches argument then
      match ofArgument known argument, rest with
      | .error e, _ => .error e
      | .ok ⟨settled, none⟩, rest => (Line.read known mixed rest).map (Line.after settled)
      | .ok ⟨_, some s⟩, [] => .error (.missingValue s.name)
      | .ok ⟨settled, some s⟩, value :: rest =>
        (Line.read known mixed rest).map (Line.after (settled ++ [(s.key, value)]))
    else if mixed then (Line.read known mixed rest).map (Line.afterWord argument)
    else .ok ⟨[], argument :: rest⟩

/-- The last value given for a switch. -/
def Line.value? [DecidableEq κ] (l : Line κ) (key : κ) : Option String :=
  (l.switches.filter (·.1 = key)).getLast?.map (·.2)

/-- Whether a switch was given. -/
def Line.has [DecidableEq κ] (l : Line κ) (key : κ) : Bool := l.switches.any (·.1 = key)

end UpgradeAudit.CommandLine
