import Sieve.Text.Ascii
import Sieve.Text.EscapeTable
import Sieve.Text.Ranges

/-! Texts shown inside a message: between double quotes, with characters that have no shape of
their own written by name or by number. -/
namespace Sieve.Text

def hexDigits (n : Nat) : List Char :=
  (Nat.toDigits 16 n)

def quotedChar (c : Char) : List Char :=
  if c = '\x00' then ['\\', '0']
  else if c = '\t' then ['\\', 't']
  else if c = '\n' then ['\\', 'n']
  else if c = '\r' then ['\\', 'r']
  else if c = '\\' then ['\\', '\\']
  else if c = '\x22' then ['\\', c]
  else if c.toNat < 32 || c.toNat == 127 || inRanges shapelessRanges c then
    ['\\', 'u', '\x7b'] ++ hexDigits c.toNat ++ ['\x7d']
  else [c]

def quoted (s : String) : String :=
  String.ofList ('\x22' :: s.toList.flatMap quotedChar ++ ['\x22'])

end Sieve.Text
