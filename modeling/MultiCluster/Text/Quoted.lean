import MultiCluster.Text.Unprintable

/-! Double-quoted text as error messages show it. A quote and a backslash take a backslash, line
feed, tab, carriage return and NUL have short forms, and every other character that does not
print by itself is written as its lower-case hexadecimal code point in braces. -/
namespace MultiCluster.Text

def hexDigit (n : Nat) : Char :=
  if n < 10 then Char.ofNat (48 + n) else Char.ofNat (87 + n)

def hex (n : Nat) : List Char := (Nat.toDigits 16 n)

def quotedChar (c : Char) : List Char :=
  if c == '"' then ['\\', '"']
  else if c == '\\' then ['\\', '\\']
  else if c == '\n' then ['\\', 'n']
  else if c == '\t' then ['\\', 't']
  else if c == '\r' then ['\\', 'r']
  else if c == '\x00' then ['\\', '0']
  else if isUnprintable c then ['\\', 'u', '\x7b'] ++ hex c.toNat ++ ['\x7d']
  else [c]

def quoted (s : String) : String :=
  String.ofList ('"' :: (s.toList.flatMap quotedChar ++ ['"']))

end MultiCluster.Text
