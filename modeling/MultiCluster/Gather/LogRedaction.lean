import MultiCluster.Gather.Pattern
import MultiCluster.Text.Blank
import MultiCluster.Text.Word

/-! Masking of credentials in logs. A rule has a mark, which stays, and a value, which is replaced.
Rules are applied from left to right to the text that the last replacement left, one after the
other: first pairs of a credential's name and its value, then bearer tokens. -/
namespace MultiCluster.Gather

/-- What stands in the place of a masked value. -/
def redacted : String := "REDACTED"

structure Rule where
  mark : Pattern
  value : Pattern
  /-- Characters that a mark may begin with before anything else: where there is no match at one of
  them, there is none behind it. -/
  leads : Char → Bool

namespace Rule

/-- The preferred match at the start of a text: the rests behind the mark and behind the value. -/
def match? (r : Rule) (cs : List Char) : Option (List Char × List Char) :=
  (r.mark.rests cs).findSome? fun afterMark =>
    (r.value.rests afterMark).head?.map fun afterValue => (afterMark, afterValue)

/-- The preferred match, known not to exist if `failed`. -/
def matchUnless (r : Rule) (failed : Bool) (cs : List Char) : Option (List Char × List Char) :=
  if failed then none else r.match? cs

/-- Replace the values, having matched `skip` characters from here on already. `failed` tells
whether there was no match at the character before this one, which leads. -/
def mask (r : Rule) : Nat → Bool → List Char → List Char
  | _, _, [] => []
  | skip + 1, _, _ :: rest => mask r skip false rest
  | 0, failed, c :: rest =>
    match r.matchUnless failed (c :: rest) with
    | some (afterMark, afterValue) =>
      (c :: rest).take (rest.length + 1 - afterMark.length) ++ redacted.toList ++
        mask r (rest.length - afterValue.length) false rest
    | none => c :: mask r 0 (r.leads c) rest

def occursIn (r : Rule) : Bool → List Char → Bool
  | _, [] => false
  | failed, c :: rest =>
    (r.matchUnless failed (c :: rest)).isSome || r.occursIn (r.leads c) rest

end Rule

def isKeyChar (c : Char) : Bool := Text.isWord c || c == '.' || c == '-'

def isBareChar (c : Char) : Bool :=
  !(Text.isBlank c || [',', ';', '"', '\'', '\x7d', ']'].contains c)

/-- A character of a bearer token; in any case, so the letters of `isLetter` are in it. -/
def isTokenChar (c : Char) : Bool :=
  c.isAlphanum || ['.', '_', '~', '+', '/', '=', '-', '\u017f', '\u212a'].contains c

/-- What makes a key the name of a credential. -/
def credentialWord : Pattern := .choice [
  .word ['t', 'o', 'k', 'e', 'n'],
  .word ['p', 'a', 's', 's', 'w', 'o', 'r', 'd'],
  .word ['p', 'a', 's', 's', 'w', 'd'],
  .word ['p', 's', 'k'],
  .word ['s', 'e', 'c', 'r', 'e', 't'],
  .word ['c', 'r', 'e', 'd', 'e', 'n', 't', 'i', 'a', 'l'],
  .sequence [
    .word ['p', 'r', 'i', 'v', 'a', 't', 'e'], .optional (.char '_'), .word ['k', 'e', 'y']]]

def quotedBy (quote : Char) : Pattern :=
  .sequence [.char quote, .many (· != quote), .char quote]

def pairRule : Rule where
  mark := .sequence [
    .many isKeyChar, credentialWord, .many isKeyChar,
    .optional (.one fun c => c == '"' || c == '\''), .many Text.isBlank,
    .one (fun c => c == '=' || c == ':'), .many Text.isBlank]
  value := .choice [quotedBy '"', quotedBy '\'', .some isBareChar]
  leads := isKeyChar

def bearerRule : Rule where
  mark := .sequence [.word ['b', 'e', 'a', 'r', 'e', 'r'], .some Text.isBlank]
  value := .some isTokenChar
  leads := fun _ => false

/-- The text of a log without its credentials. -/
def redactLog (text : String) : String :=
  String.ofList (bearerRule.mask 0 false (pairRule.mask 0 false text.toList))

def mentionsCredentials (text : String) : Bool :=
  pairRule.occursIn false text.toList || bearerRule.occursIn false text.toList

end MultiCluster.Gather
