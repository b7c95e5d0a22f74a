import Ancestry.Unicode.Recent

/-!
# Quoted text

A text in double quotes on one line. The quote, the backslash and the usual control
characters have two-character forms; a character that would not show, or would
join the one before it, is written by number; all else stands for itself.
-/

namespace Ancestry.Text.Quoted

/-- The digits of a character's number in braces. -/
def numbered (c : Char) : List Char :=
  ['\\', 'u', '\x7b'] ++ Nat.toDigits 16 c.toNat ++ ['\x7d']

/-- The written form of one character. -/
def encodeChar (c : Char) : List Char :=
  if c = '\x00' then ['\\', '0']
  else if c = '\t' then ['\\', 't']
  else if c = '\r' then ['\\', 'r']
  else if c = '\n' then ['\\', 'n']
  else if c = '"' then ['\\', '"']
  else if c = '\\' then ['\\', '\\']
  else if c.toNat < 0x20 || c.toNat = 0x7F then numbered c
  else if c.toNat < 0x7F then [c]
  else if Unicode.Recent.unseen.contains c then numbered c
  else [c]

/-- The written form of a text. -/
def encode (text : String) : String :=
  String.ofList ('"' :: (text.toList.flatMap encodeChar ++ ['"']))

end Ancestry.Text.Quoted
