import LayoutPlanner.Json.Basic

/-!
# Writing JSON

Two ways to write a value: `compact`, without any blanks, and `pretty`, with one item per line and
an indentation of two.  In a string only the quote, the backslash and the characters below 0x20
are escaped; everything else stands for itself.
-/

namespace LayoutPlanner.Json

/-- Four hexadecimal digits, in lower case. -/
def hexDigits (n : Nat) : List Char :=
  [Nat.digitChar (n / 4096 % 16), Nat.digitChar (n / 256 % 16), Nat.digitChar (n / 16 % 16),
    Nat.digitChar (n % 16)]

def escapeChar (c : Char) : List Char :=
  match c with
  | '"' => ['\\', '"']
  | '\\' => ['\\', '\\']
  | '\x08' => ['\\', 'b']
  | '\t' => ['\\', 't']
  | '\n' => ['\\', 'n']
  | '\x0c' => ['\\', 'f']
  | '\r' => ['\\', 'r']
  | c => if c.toNat < 0x20 then ['\\', 'u'] ++ hexDigits c.toNat else [c]

/-- A literal without text is written as a lone surrogate, which reads back as such. -/
def writeLiteral : Literal → List Char
  | some content => ['"'] ++ content.toList.flatMap escapeChar ++ ['"']
  | none => ['"', '\\', 'u'] ++ hexDigits 0xd800 ++ ['"']

def writeNat (n : Nat) : List Char :=
  Nat.toDigits 10 n

mutual

/-- The value without blanks. -/
def writeCompact : Json → List Char
  | .null => ['n', 'u', 'l', 'l']
  | .bool true => ['t', 'r', 'u', 'e']
  | .bool false => ['f', 'a', 'l', 's', 'e']
  | .nat n => writeNat n
  | .number lexeme => lexeme
  | .text literal => writeLiteral literal
  | .list items => ['['] ++ writeItems items ++ [']']
  | .record members => ['{'] ++ writeMembers members ++ ['}']

def writeItems : List Json → List Char
  | [] => []
  | [item] => writeCompact item
  | item :: rest => writeCompact item ++ [','] ++ writeItems rest

def writeMembers : List (Literal × Json) → List Char
  | [] => []
  | [(key, value)] => writeLiteral key ++ [':'] ++ writeCompact value
  | (key, value) :: rest =>
    writeLiteral key ++ [':'] ++ writeCompact value ++ [','] ++ writeMembers rest

end

def newline (depth : Nat) : List Char :=
  '\n' :: List.replicate (2 * depth) ' '

mutual

/-- The value spread over lines, for a value that starts at the given depth. -/
def writePretty (depth : Nat) : Json → List Char
  | .list [] => ['[', ']']
  | .record [] => ['{', '}']
  | .list (item :: rest) => ['['] ++ prettyItems depth (item :: rest) ++ newline depth ++ [']']
  | .record (member :: rest) =>
    ['{'] ++ prettyMembers depth (member :: rest) ++ newline depth ++ ['}']
  | .null => writeCompact .null
  | .bool b => writeCompact (.bool b)
  | .nat n => writeCompact (.nat n)
  | .number lexeme => writeCompact (.number lexeme)
  | .text literal => writeCompact (.text literal)

def prettyItems (depth : Nat) : List Json → List Char
  | [] => []
  | [item] => newline (depth + 1) ++ writePretty (depth + 1) item
  | item :: rest =>
    newline (depth + 1) ++ writePretty (depth + 1) item ++ [','] ++ prettyItems depth rest

def prettyMembers (depth : Nat) : List (Literal × Json) → List Char
  | [] => []
  | [(key, value)] =>
    newline (depth + 1) ++ writeLiteral key ++ [':', ' '] ++ writePretty (depth + 1) value
  | (key, value) :: rest =>
    newline (depth + 1) ++ writeLiteral key ++ [':', ' '] ++ writePretty (depth + 1) value ++
      [','] ++ prettyMembers depth rest

end

def compact (value : Json) : String :=
  String.ofList value.writeCompact

def pretty (value : Json) : String :=
  String.ofList (writePretty 0 value)

end LayoutPlanner.Json
