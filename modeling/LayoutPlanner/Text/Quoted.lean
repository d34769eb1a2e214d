import LayoutPlanner.Text.Hidden

/-!
# Quoted text

A text between double quotes, in which quotes, backslashes and hidden characters are escaped, so
that what is printed shows every character.
-/

namespace LayoutPlanner.Text

def escapeHidden (c : Char) : List Char :=
  ['\\', 'u', '{'] ++ Nat.toDigits 16 c.toNat ++ ['}']

def quoteChar (c : Char) : List Char :=
  match c with
  | '\x00' => ['\\', '0']
  | '\t' => ['\\', 't']
  | '\r' => ['\\', 'r']
  | '\n' => ['\\', 'n']
  | '\\' => ['\\', '\\']
  | '"' => ['\\', '"']
  | c => if isHidden c then escapeHidden c else [c]

def quoted (text : String) : String :=
  String.ofList (['"'] ++ text.toList.flatMap quoteChar ++ ['"'])

end LayoutPlanner.Text
