/-!
# Words of a command line

* `Switch`: an option with its long name, perhaps a letter, and perhaps a value.
* `Words.scan`: the options at the start of a list of words, up to the first word that is none
  of them. A long option is written `--name`, its value in the next word or after an equals
  sign. Letters follow one hyphen and may be joined; the value of a letter is the rest of the
  word, perhaps after an equals sign, or the next word. A word that begins with a hyphen is no
  value of the option before it, unless it is a hyphen alone. Two hyphens end the options.
-/

namespace TwinSudoku

/-- An option of the command line. -/
structure Switch where
  name : String
  letter : Option Char
  takesValue : Bool
  ends : Bool

namespace Words

/-- An option that was given, by its name, with its value. -/
abbrev Given := String × String

/-- Where reading ended. -/
inductive Stop
  | done
  /-- A word that is no option, and those after it. -/
  | word (w : String) (rest : List String)
  | ended (name : String)

/-- The outcome of reading some letters. -/
inductive Letters
  | read (given : List Given)
  | wanting (given : List Given) (name : String)
  | ended (given : List Given) (name : String)

/-- Reads joined letters. Options given so far are kept in reverse. -/
def letters? (switches : List Switch) (given : List Given) : List Char → Option Letters
  | [] => some (.read given)
  | c :: rest =>
    match switches.find? fun switch => switch.letter == some c with
    | none => none
    | some switch =>
      if switch.ends then some (.ended given switch.name)
      else if !switch.takesValue then letters? switches ((switch.name, "") :: given) rest
      else if rest = [] then some (.wanting given switch.name)
      else
        let value := if rest.head? = some '=' then rest.tail else rest
        some (.read ((switch.name, String.ofList value) :: given))

/-- Reads a long option without its hyphens. -/
def long? (switches : List Switch) (given : List Given) (cs : List Char) : Option Letters :=
  let name := String.ofList (cs.takeWhile (· != '='))
  let attached := cs.dropWhile (· != '=')
  match switches.find? fun switch => switch.name == name with
  | none => none
  | some switch =>
    if switch.takesValue then
      if attached = [] then some (.wanting given name)
      else some (.read ((name, String.ofList attached.tail) :: given))
    else if attached ≠ [] then none
    else if switch.ends then some (.ended given name)
    else some (.read ((name, "") :: given))

/-- A word that may be the value of the option before it. -/
def isValue (word : String) : Bool := word == "-" || word.toList.head? != some '-'

/-- The options at the start of some words, and where reading ended. Options given so far are
kept in reverse. -/
def scanFrom? (switches : List Switch) (given : List Given) :
    List String → Option (List Given × Stop)
  | [] => some (given.reverse, .done)
  | word :: rest =>
    if word = "--" then if rest = [] then some (given.reverse, .done) else none
    else
      let read? :=
        match word.toList with
        | '-' :: '-' :: cs => some (long? switches given cs)
        | '-' :: c :: cs => some (letters? switches given (c :: cs))
        | _ => none
      match read? with
      | none => some (given.reverse, .word word rest)
      | some none => none
      | some (some (.read given)) => scanFrom? switches given rest
      | some (some (.ended given name)) => some (given.reverse, .ended name)
      | some (some (.wanting given name)) =>
        match rest with
        | [] => none
        | value :: rest =>
          if isValue value then scanFrom? switches ((name, value) :: given) rest else none

/-- The options at the start of some words, and where reading ended. -/
def scan? (switches : List Switch) (words : List String) : Option (List Given × Stop) :=
  scanFrom? switches [] words

/-- The value of an option that is given at most once. -/
def value? (given : List Given) (name : String) : Option (Option String) :=
  match given.filter fun g => g.1 == name with
  | [] => some none
  | [g] => some (some g.2)
  | _ => none

/-- Whether an option is given, at most once. -/
def flag? (given : List Given) (name : String) : Option Bool :=
  (value? given name).map Option.isSome

/-- The value of an option that is given at most once, as the reader takes it. -/
def read? {α : Type} (given : List Given) (name : String) (reader : String → Option α) :
    Option (Option α) :=
  match value? given name with
  | none => none
  | some none => some none
  | some (some value) => (reader value).map some

end Words

end TwinSudoku
