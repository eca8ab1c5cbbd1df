import MultiCluster.CommandLine.Refusal
import MultiCluster.CommandLine.Word

/-! Commands and the commands below them. Every menu of commands also knows `help`, which is
followed by the way to the command in question. -/
namespace MultiCluster.CommandLine

/-- A command is a menu without entries. -/
inductive Menu where
  | entries (commands : List (String × Menu))
  deriving Repr

namespace Menu

def command : Menu := .entries []

def commands : Menu → List (String × Menu)
  | .entries commands => commands

def find? (m : Menu) (name : String) : Option Menu :=
  (m.commands.find? fun c => c.1 == name).map (·.2)

def helpName : String := "help"

/-- The menu that `help` opens: the same commands, and `help` once more. -/
def helpMenu (m : Menu) : Menu := .entries (m.commands ++ [(helpName, command)])

/-- Whether words lead to a command or menu; `help` tells whether menus know `help`. -/
def leads (help : Bool) (m : Menu) : List String → Bool
  | [] => true
  | word :: rest =>
    match m.find? word with
    | some next => next.leads help rest
    | none => help && word == helpName && !m.commands.isEmpty && m.helpMenu.leads false rest

/-- The command that words choose, and the words behind it. `versioned` tells whether the version
may be asked for. -/
def choose (versioned : Bool) (m : Menu) : List String → Except Refusal (String × List String)
  | [] => .error .missingCommand
  | text :: rest =>
    match Word.ofText text with
    | .separator =>
      match rest with
      | [] => .error .missingCommand
      | next :: _ =>
        .error (if next == helpName || (m.find? next).isSome then .unknownArgument
          else .unknownCommand)
    | .long name value =>
      let answer : Option Refusal :=
        if name == "help" then some .help
        else if versioned && name == "version" then some .version
        else none
      match answer, value with
      | none, _ => .error .unknownArgument
      | some _, some _ => .error .unexpectedValue
      | some r, none => .error r
    | .short letters =>
      match letters with
      | 'h' :: _ => .error .help
      | 'V' :: _ => .error (if versioned then .version else .unknownArgument)
      | _ => .error .unknownArgument
    | .plain name =>
      if name == helpName then .error (if m.leads true rest then .help else .unknownCommand)
      else if (m.find? name).isSome then .ok (name, rest)
      else .error .unknownCommand

end Menu
end MultiCluster.CommandLine
