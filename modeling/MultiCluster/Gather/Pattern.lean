/-! Text patterns. A pattern applied to a text gives the rests of the text behind its matches, in
order of preference: repetition prefers more, an option prefers presence, and a choice prefers its
first alternative. -/
namespace MultiCluster.Gather

inductive Pattern where
  /-- One character of a class. -/
  | one (accepts : Char → Bool)
  /-- Any number of characters of a class. -/
  | many (accepts : Char → Bool)
  | optional (p : Pattern)
  | append (p q : Pattern)
  | either (p q : Pattern)

namespace Pattern

/-- The rests behind runs of accepted characters, shortest rest first, put before `longer`. -/
def runs (accepts : Char → Bool) (longer : List (List Char)) : List Char → List (List Char)
  | [] => [] :: longer
  | c :: rest =>
    if accepts c then runs accepts ((c :: rest) :: longer) rest else (c :: rest) :: longer

def rests : Pattern → List Char → List (List Char)
  | .one accepts, cs =>
    match cs with
    | [] => []
    | c :: rest => if accepts c then [rest] else []
  | .many accepts, cs => runs accepts [] cs
  | .optional p, cs => p.rests cs ++ [cs]
  | .append p q, cs => (p.rests cs).flatMap q.rests
  | .either p q, cs => p.rests cs ++ q.rests cs

def some (accepts : Char → Bool) : Pattern := .append (.one accepts) (.many accepts)

/-- The only character that this pattern matches. -/
def char (c : Char) : Pattern := .one (· == c)

/-- Whether a character is a given lower-case letter in some case. Beside the capital letter, the
Kelvin sign is a `k` and the long s is an `s`. -/
def isLetter (letter c : Char) : Bool :=
  c.toLower == letter || (letter == 'k' && c == '\u212a') || (letter == 's' && c == '\u017f')

def word : List Char → Pattern
  | [] => .many fun _ => false
  | [c] => .one (isLetter c)
  | c :: rest => .append (.one (isLetter c)) (word rest)

/-- The first alternative that matches; none if there is no alternative. -/
def choice : List Pattern → Pattern
  | [] => .one fun _ => false
  | [p] => p
  | p :: rest => .either p (choice rest)

def sequence : List Pattern → Pattern
  | [] => .many fun _ => false
  | [p] => p
  | p :: rest => .append p (sequence rest)

end Pattern
end MultiCluster.Gather
