import KeyRegistry.Text.Printable

/-!
# Quoted text

Messages that repeat a caller's text show it between quotation marks, with the
marks themselves, control characters and unprintable characters escaped.
-/

namespace KeyRegistry
namespace Text

def hexDigitChar (n : Nat) : Char :=
  if n < 10 then Char.ofNat (48 + n) else Char.ofNat (87 + n)

def hexNumeral (n : Nat) : List Char :=
  if n < 16 then [hexDigitChar n] else hexNumeral (n / 16) ++ [hexDigitChar (n % 16)]

def escape (mark : Char) (c : Char) : List Char :=
  if c = Char.ofNat 0 then ['\\', '0']
  else if c = '\t' then ['\\', 't']
  else if c = '\r' then ['\\', 'r']
  else if c = '\n' then ['\\', 'n']
  else if c = '\\' || c = mark then ['\\', c]
  else if isUnprintable c then
    ['\\', 'u', '\x7b'] ++ hexNumeral c.toNat ++ ['\x7d']
  else [c]

def quote (s : String) : String :=
  String.ofList ('"' :: s.toList.flatMap (escape '"') ++ ['"'])

def quoteChar (c : Char) : String :=
  String.ofList ('\'' :: escape '\'' c ++ ['\''])

end Text
end KeyRegistry
