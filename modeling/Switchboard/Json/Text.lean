import Switchboard.Decimal.Shortest
import Switchboard.Json.Basic

/-!
The compact text of a JSON value: no spaces, fields in the order they are kept.  Strings escape
quotes, backslashes and the controls below U+0020, and nothing else.
-/

namespace Switchboard.Json

def escapedChar (c : Char) : List Char :=
  if c = '"' then ['\\', '"']
  else if c = '\\' then ['\\', '\\']
  else if c.toNat = 8 then ['\\', 'b']
  else if c.toNat = 9 then ['\\', 't']
  else if c.toNat = 10 then ['\\', 'n']
  else if c.toNat = 12 then ['\\', 'f']
  else if c.toNat = 13 then ['\\', 'r']
  else if c.toNat < 0x20 then ['\\', 'u'] ++ Text.padded 4 (Text.hexadecimal c.toNat)
  else [c]

def renderString (s : String) : List Char :=
  '"' :: s.toList.flatMap escapedChar ++ ['"']

def Number.render : Number → List Char
  | .integer n => Text.intDecimal n
  | .float x => x.render

mutual

def render : Json → List Char
  | .null => ['n', 'u', 'l', 'l']
  | .bool true => ['t', 'r', 'u', 'e']
  | .bool false => ['f', 'a', 'l', 's', 'e']
  | .number n => n.render
  | .string s => renderString s
  | .array items => '[' :: renderItems items
  | .object fields => '\x7b' :: renderFields fields

def renderItems : List Json → List Char
  | [] => [']']
  | item :: rest => render item ++ renderMoreItems rest

def renderMoreItems : List Json → List Char
  | [] => [']']
  | item :: rest => ',' :: render item ++ renderMoreItems rest

def renderFields : List (String × Json) → List Char
  | [] => ['\x7d']
  | field :: rest => renderField field ++ renderMoreFields rest

def renderMoreFields : List (String × Json) → List Char
  | [] => ['\x7d']
  | field :: rest => ',' :: renderField field ++ renderMoreFields rest

def renderField : String × Json → List Char
  | (key, value) => renderString key ++ ':' :: render value

end

def text (value : Json) : String := String.ofList value.render

/-- The text of an object whose fields are written in the order given. -/
def recordText (fields : List (String × Json)) : String :=
  (Json.object fields).text

end Switchboard.Json
