/-!
# Switches of a command line

Switches are words that start with a dash. A long switch has a name after two dashes, and its
value after an equals sign or in the next word. Short switches of one letter may stand together
after one dash; the first that takes a value takes the rest of the word, or the next word. A
switch is given once, unless it is repeatable, and the value of a path is not empty.
-/

namespace CodeAtlas

/-- The values that a switch takes. -/
inductive ValueKind where
  | path
  | text
deriving DecidableEq, Repr

/-- A switch of a command line. -/
structure Switch where
  long : String
  short : Option Char := none
  value : Option ValueKind := none
  repeatable : Bool := false
  about : String
deriving DecidableEq, Repr

namespace Switch

/-- The switch for help on a command. -/
def help : Switch where
  long := "help"
  short := some 'h'
  about := "Print help"

/-- The switch for the version of the program. -/
def version : Switch where
  long := "version"
  short := some 'V'
  about := "Print version"

end Switch

/-- The switches that were given, in order, with their values. -/
abbrev Given := List (String × String)

namespace Given

/-- Whether a switch was given. -/
def has (given : Given) (s : Switch) : Bool :=
  given.any (·.1 == s.long)

/-- The values that a switch was given. -/
def values (given : Given) (s : Switch) : List String :=
  (given.filter (·.1 == s.long)).map Prod.snd

/-- The value that a switch was given. -/
def value? (given : Given) (s : Switch) : Option String :=
  (given.values s).head?

end Given

/-- Why reading a command line stops early. -/
inductive Halt where
  /-- The command line is wrong. -/
  | misuse
  /-- Help is asked for, the detailed one or a summary. -/
  | help (detailed : Bool)
  /-- The version is asked for. -/
  | version
deriving DecidableEq, Repr

namespace Given

/-- Adds a switch with its value. -/
def add (given : Given) (s : Switch) (value : String) : Except Halt Given :=
  if given.has s && !s.repeatable then .error .misuse
  else if s.value = some .path && value = "" then .error .misuse
  else .ok (given ++ [(s.long, value)])

/-- Adds a switch without a value. Those for help and version stop the reading. -/
def addFlag (given : Given) (s : Switch) (isLong : Bool) : Except Halt Given :=
  if s = Switch.help then .error (.help isLong)
  else if s = Switch.version then .error .version
  else given.add s ""

/-- Adds short switches that stand together. The last may be one whose value comes in the next
word. -/
def addShort (switches : List Switch) (given : Given) :
    List Char → Except Halt (Given × Option Switch)
  | [] => .ok (given, none)
  | c :: rest =>
    match switches.find? (·.short = some c) with
    | none => .error .misuse
    | some s =>
      match s.value, rest with
      | none, rest => do addShort switches (← given.addFlag s false) rest
      | some _, [] => .ok (given, some s)
      | some _, '=' :: value => return (← given.add s (String.ofList value), none)
      | some _, value => return (← given.add s (String.ofList value), none)

/-- Adds a long switch, whose value may stand after an equals sign or come in the next word. -/
def addLong (switches : List Switch) (given : Given) (word : List Char) :
    Except Halt (Given × Option Switch) :=
  let name := word.takeWhile (· ≠ '=')
  let attached := (word.drop name.length).tail?.map String.ofList
  match switches.find? (·.long.toList = name) with
  | none => .error .misuse
  | some s =>
    match s.value, attached with
    | none, none => return (← given.addFlag s true, none)
    | none, some _ => .error .misuse
    | some _, some value => return (← given.add s value, none)
    | some _, none => .ok (given, some s)

/-- Reads words up to the first that is no switch or value of one, and gives the words from
there on. A pair of dashes ends the switches. A value may be a single dash, but else does not
start with one. -/
def read (switches : List Switch) (given : Given) :
    Option Switch → List String → Except Halt (Given × List String)
  | none, [] => .ok (given, [])
  | some _, [] => .error .misuse
  | pending, word :: rest =>
    match pending, word.toList with
    | none, ['-', '-'] => if rest.isEmpty then .ok (given, []) else .error .misuse
    | none, '-' :: '-' :: name => do
      let (given, pending) ← given.addLong switches name
      read switches given pending rest
    | none, '-' :: c :: letters => do
      let (given, pending) ← given.addShort switches (c :: letters)
      read switches given pending rest
    | none, _ => .ok (given, word :: rest)
    | some _, '-' :: _ :: _ => .error .misuse
    | some s, _ => do read switches (← given.add s word) none rest

end Given

end CodeAtlas
