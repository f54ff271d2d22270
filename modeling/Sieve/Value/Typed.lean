import Sieve.Time.Instant
import Sieve.Uuid
import Sieve.Value.Raw

/-! Values of filters after they have been given the type of their field. -/
namespace Sieve

inductive TypedValue where
  | text (s : String)
  | integer (i : Int)
  | real (x : Real64)
  | boolean (b : Bool)
  | uuid (u : Uuid)
  | timestamp (t : Time.Instant)
  | list (items : List TypedValue)

namespace TypedValue

mutual

def toRaw : TypedValue → RawValue
  | text s => .text s
  | integer i => .number (.whole i)
  | real (.finite x) => .number (.real x)
  | real x => .text (String.ofList x.written)
  | boolean b => .bool b
  | uuid u => .text u.text
  | timestamp t => .text t.text
  | list items => .list (itemsToRaw items)

def itemsToRaw : List TypedValue → List RawValue
  | [] => []
  | item :: rest => toRaw item :: itemsToRaw rest

end

def display (v : TypedValue) : String :=
  v.toRaw.display

mutual

/-- JSON has no name for a datum that is no finite number, so it is null there. -/
def toJson : TypedValue → Json
  | text s => .string s
  | integer i => .number (.whole i)
  | real (.finite x) => .number (.real x)
  | real _ => .null
  | boolean b => .bool b
  | uuid u => .string u.text
  | timestamp t => .string t.text
  | list items => .array (itemsToJson items)

def itemsToJson : List TypedValue → List Json
  | [] => []
  | item :: rest => toJson item :: itemsToJson rest

end

/-- The items of a list; any other value is its own only item. -/
def elements : TypedValue → List TypedValue
  | list items => items
  | v => [v]

end TypedValue
end Sieve
