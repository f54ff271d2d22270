import Sieve.Json.Written

/-! Values of filters as they come in, before anything is known about the field. -/
namespace Sieve

inductive RawValue where
  | text (s : String)
  | number (n : Json.Number)
  | bool (b : Bool)
  | list (items : List RawValue)

namespace RawValue

mutual

def display : RawValue → String
  | text s => s
  | number n => n.text
  | bool true => "true"
  | bool false => "false"
  | list items => displayItems items

def displayItems : List RawValue → String
  | [] => ""
  | [item] => display item
  | item :: next :: rest => display item ++ "," ++ displayItems (next :: rest)

end

mutual

def toJson : RawValue → Json
  | text s => .string s
  | number n => .number n
  | bool b => .bool b
  | list items => .array (itemsToJson items)

def itemsToJson : List RawValue → List Json
  | [] => []
  | item :: rest => toJson item :: itemsToJson rest

end

def isList : RawValue → Bool
  | list _ => true
  | _ => false

end RawValue
end Sieve
