import FleetInventory.Document.Basic

/-!
Documents as compact JSON text: no blanks, fields in their order, and in strings only the quote,
the backslash and the control characters below the blank escaped.
-/
namespace FleetInventory.Document

def hexDigit (n : Nat) : Char := Char.ofNat (if n < 10 then 48 + n else 87 + n)

def escape (c : Char) : List Char :=
  if c = '"' then ['\\', '"']
  else if c = '\\' then ['\\', '\\']
  else if c = '\n' then ['\\', 'n']
  else if c = '\r' then ['\\', 'r']
  else if c = '\t' then ['\\', 't']
  else if c = '\x08' then ['\\', 'b']
  else if c = '\x0c' then ['\\', 'f']
  else if c.toNat < 32 then
    ['\\', 'u', '0', '0', hexDigit (c.toNat / 16), hexDigit (c.toNat % 16)]
  else [c]

def quoted (s : String) : List Char := '"' :: (s.toList.flatMap escape ++ ['"'])

def word (s : String) : List Char := s.toList

mutual

def renderChars : Document → List Char
  | null => word "null"
  | bool true => word "true"
  | bool false => word "false"
  | number n => n.render
  | text s => quoted s
  | array [] => ['[', ']']
  | array (item :: rest) => '[' :: (renderChars item ++ renderItems rest)
  | object [] => ['{', '}']
  | object ((key, value) :: rest) =>
    '{' :: (quoted key ++ ':' :: (renderChars value ++ renderFields rest))

def renderItems : List Document → List Char
  | [] => [']']
  | item :: rest => ',' :: (renderChars item ++ renderItems rest)

def renderFields : List (String × Document) → List Char
  | [] => ['}']
  | (key, value) :: rest =>
    ',' :: (quoted key ++ ':' :: (renderChars value ++ renderFields rest))

end

def render (d : Document) : String := String.ofList (renderChars d)

end FleetInventory.Document
