import MultiCluster.Text.Join

/-! The words of a command line. -/
namespace MultiCluster.CommandLine

inductive Word where
  /-- Two dashes alone: what follows is no option. -/
  | separator
  /-- Two dashes and a name, and a value behind an equals sign. -/
  | long (name : String) (value : Option String)
  /-- A dash and letters. -/
  | short (letters : List Char)
  /-- Anything else, a single dash included. -/
  | plain (text : String)
  deriving DecidableEq, Repr

def Word.ofLong (cs : List Char) : Word :=
  match Text.splitAtFirst '=' cs with
  | none => .long (String.ofList cs) none
  | some (name, value) => .long (String.ofList name) (some (String.ofList value))

def Word.ofText (s : String) : Word :=
  match s.toList with
  | ['-', '-'] => .separator
  | '-' :: '-' :: rest => .ofLong rest
  | '-' :: c :: rest => .short (c :: rest)
  | _ => .plain s

end MultiCluster.CommandLine
