import MultiCluster.CommandLine.Refusal
import MultiCluster.CommandLine.Word
import MultiCluster.Text.Numeral
import MultiCluster.Text.Table

/-! The options of a command, and how words are read with them. An option without a value behind an
equals sign waits for the next word; it is taken for given when something else follows. -/
namespace MultiCluster.CommandLine

inductive Domain where
  | text
  /-- Not empty. -/
  | path
  /-- A number up to a limit, without a minus sign. -/
  | number (limit : Nat)
  /-- A number from zero to a limit, whose sign is read: there is a negative zero. -/
  | integer (limit : Nat)
  deriving DecidableEq, Repr

def Domain.check (d : Domain) (value : String) : Except Refusal Unit :=
  match d with
  | .text => .ok ()
  | .path => if value == "" then .error .missingValue else .ok ()
  | .number limit =>
    if (Text.boundedUnsigned? limit value).isSome then .ok () else .error .malformedValue
  | .integer limit =>
    match Text.integer? value.toList with
    | some n => if 0 ≤ n && n ≤ limit then .ok () else .error .malformedValue
    | none => .error .malformedValue

inductive Taking where
  /-- A switch. -/
  | nothing
  /-- One value, given once. -/
  | one (d : Domain)
  /-- A value each time. -/
  | each
  /-- Values between commas each time. -/
  | list
  deriving DecidableEq, Repr

structure Setting where
  name : String
  synonym : Option String
  taking : Taking
  deriving DecidableEq, Repr

namespace Setting

def switch (name : String) : Setting := ⟨name, none, .nothing⟩
def text (name : String) : Setting := ⟨name, none, .one .text⟩
def path (name : String) : Setting := ⟨name, none, .one .path⟩
def number (name : String) (limit : Nat) : Setting := ⟨name, none, .one (.number limit)⟩
def integer (name : String) (limit : Nat) : Setting := ⟨name, none, .one (.integer limit)⟩
def list (name : String) : Setting := ⟨name, none, .list⟩

def isCalled (s : Setting) (name : String) : Bool := s.name == name || s.synonym == some name

end Setting

/-- What is given: options with their values in order, switches with an empty value. -/
abbrev Given := List (String × String)

namespace Given

def has (g : Given) (name : String) : Bool := g.any fun p => p.1 == name

def values (g : Given) (name : String) : List String :=
  (g.filter fun p => p.1 == name).map (·.2)

def value? (g : Given) (name : String) : Option String := (g.values name).head?

def number? (g : Given) (name : String) : Option Nat :=
  (g.value? name).bind fun s => (Text.integer? s.toList).map Int.toNat

/-- Put down an option with its value. -/
def record (g : Given) (s : Setting) (value : String) : Except Refusal Given :=
  match s.taking with
  | .nothing => if g.has s.name then .error .conflict else .ok (g ++ [(s.name, "")])
  | .one d =>
    if g.has s.name then .error .conflict
    else match d.check value with
      | .error r => .error r
      | .ok () => .ok (g ++ [(s.name, value)])
  | .each => .ok (g ++ [(s.name, value)])
  | .list => .ok (g ++ (Text.splitOn ',' value).map fun piece => (s.name, piece))

end Given

structure Reading where
  given : Given
  /-- The option that was read last, and the value behind it. -/
  last : Option (Setting × Option String)
  deriving DecidableEq, Repr

namespace Reading

def start : Reading := ⟨[], none⟩

/-- Put down the last option, which must have a value. -/
def settle (r : Reading) : Except Refusal Given :=
  match r.last with
  | none => .ok r.given
  | some (_, none) => .error .missingValue
  | some (s, some value) => r.given.record s value

/-- Put down the last option and one with its value. -/
def record (r : Reading) (s : Setting) (value : String) : Except Refusal Reading := do
  let g ← (← r.settle).record s value
  pure ⟨g, none⟩

/-- A long option, with the value behind the equals sign. -/
def takeLong (settings : List Setting) (r : Reading) (name : String) (value : Option String) :
    Except Refusal Reading :=
  match settings.find? fun s => s.isCalled name with
  | none => .error .unknownArgument
  | some s =>
    match s.taking, value with
    | .nothing, some _ => .error .unexpectedValue
    | .nothing, none => r.record s ""
    | _, some v => r.record s v
    | _, none => do pure ⟨← r.settle, some (s, none)⟩

/-- Help is given only if nothing before it is wrong. -/
def takeHelp (r : Reading) : Except Refusal Reading := do
  let _ ← r.settle
  throw .help

/-- Go on with a word. -/
def take (settings : List Setting) (r : Reading) : Word → Except Refusal Reading
  | .separator => .error .unknownArgument
  | .long name value =>
    if name == "help" then
      if value.isSome then .error .unexpectedValue else r.takeHelp
    else r.takeLong settings name value
  | .short letters => if letters.head? == some 'h' then r.takeHelp else .error .unknownArgument
  | .plain text =>
    match r.last with
    | some (s, none) => .ok ⟨r.given, some (s, some text)⟩
    | _ => .error .unknownArgument

def run (settings : List Setting) (r : Reading) : List String → Except Refusal Given
  | [] => r.settle
  | text :: rest =>
    match Word.ofText text, rest with
    | .separator, [] => r.settle
    | word, rest =>
      match r.take settings word with
      | .error e => .error e
      | .ok r => r.run settings rest

end Reading

def Given.ofWords (settings : List Setting) (words : List String) : Except Refusal Given :=
  Reading.start.run settings words

end MultiCluster.CommandLine
