import Sieve.Json.Value
import Sieve.Text.Ascii

/-! JSON text without spaces. Quotes, backslashes and controls are escaped, all else stands for
itself. -/
namespace Sieve.Json

def escapedChar (c : Char) : List Char :=
  if c = '\x22' then ['\\', c]
  else if c = '\\' then ['\\', c]
  else if c = '\x08' then ['\\', 'b']
  else if c = '\x0c' then ['\\', 'f']
  else if c = '\n' then ['\\', 'n']
  else if c = '\r' then ['\\', 'r']
  else if c = '\t' then ['\\', 't']
  else if c.toNat < 32 then
    ['\\', 'u', '0', '0', Text.hexDigit (c.toNat / 16), Text.hexDigit (c.toNat % 16)]
  else [c]

def writtenString (s : String) : List Char :=
  '\x22' :: s.toList.flatMap escapedChar ++ ['\x22']

mutual

def written : Json → List Char
  | null => ['n', 'u', 'l', 'l']
  | bool true => ['t', 'r', 'u', 'e']
  | bool false => ['f', 'a', 'l', 's', 'e']
  | number n => n.written
  | string s => writtenString s
  | array items => '[' :: writtenItems items ++ [']']
  | object members => '\x7b' :: writtenMembers members ++ ['\x7d']

def writtenItems : List Json → List Char
  | [] => []
  | [item] => written item
  | item :: next :: rest => written item ++ ',' :: writtenItems (next :: rest)

def writtenMembers : List (String × Json) → List Char
  | [] => []
  | [(name, value)] => writtenString name ++ ':' :: written value
  | (name, value) :: next :: rest =>
    writtenString name ++ ':' :: written value ++ ',' :: writtenMembers (next :: rest)

end

def text (j : Json) : String :=
  String.ofList j.written

end Sieve.Json
