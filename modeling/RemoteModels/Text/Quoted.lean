import RemoteModels.Text.Hidden

/-!
# Quoted text for messages

A text between quotes as it is shown in messages: quotes and backslashes are escaped, line feeds and
their like by a letter, and characters that are not shown by their code.

* `Text.quoted` — a text between quotes.
* `Text.quotedName` — a file name between quotes, in which apostrophes are escaped too.
-/

set_option autoImplicit false

namespace RemoteModels
namespace Text

/-- One character as it stands between quotes. -/
def quotedChar (c : Char) : List Char :=
  if c = '"' then ['\\', '"']
  else if c = '\\' then ['\\', '\\']
  else if c = '\n' then ['\\', 'n']
  else if c = '\r' then ['\\', 'r']
  else if c = '\t' then ['\\', 't']
  else if c.toNat = 0 then ['\\', '0']
  else if isHidden c then
    '\\' :: 'u' :: '\x7b' :: Nat.toDigits 16 c.toNat ++ ['\x7d']
  else [c]

/-- A text between quotes. -/
def quoted (s : String) : String := String.ofList ('"' :: s.toList.flatMap quotedChar ++ ['"'])

/-- A file name between quotes. -/
def quotedName (s : String) : String :=
  let shown (c : Char) : List Char := if c = '\'' then ['\\', '\''] else quotedChar c
  String.ofList ('"' :: s.toList.flatMap shown ++ ['"'])

end Text
end RemoteModels
