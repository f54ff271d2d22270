import Sieve.Number.Reading
import Sieve.Number.Written

/-! JSON values. Members of an object stand in the order of the text, each name once. -/
namespace Sieve.Json

/-- A number is whole, as written without point and exponent, or a binary64 number. -/
inductive Number where
  | whole (i : Int)
  | real (x : Binary64)
  deriving DecidableEq

namespace Number

def int64? : Number → Option Int
  | whole i => if fitsInt64 i then some i else none
  | real _ => none

def toReal : Number → Real64
  | whole i => .ofOption (decide (i < 0)) (Binary64.ofInt? i)
  | real x => .finite x

def written : Number → List Char
  | whole i => decimalOfInt i
  | real x => x.written

def text (n : Number) : String :=
  String.ofList n.written

end Number
end Sieve.Json

namespace Sieve

inductive Json where
  | null
  | bool (b : Bool)
  | number (n : Json.Number)
  | string (s : String)
  | array (items : List Json)
  | object (members : List (String × Json))

namespace Json

def member? (members : List (String × Json)) (name : String) : Option Json :=
  (members.find? fun m => m.1 == name).map Prod.snd

/-- Gives a member its value: a name that is there keeps its place, a new one goes to the end. -/
def setMember (name : String) (value : Json) : List (String × Json) → List (String × Json)
  | [] => [(name, value)]
  | m :: rest => if m.1 = name then (name, value) :: rest else m :: setMember name value rest

theorem member?_setMember (name other : String) (value : Json) (members : List (String × Json)) :
    member? (setMember name value members) other =
      if other = name then some value else member? members other := by
  induction members with
  | nil =>
    by_cases same : other = name
    · simp [setMember, member?, same]
    · simp [setMember, member?, same, Ne.symm same]
  | cons m rest ih =>
    rw [setMember]
    split
    next hit =>
      subst hit
      by_cases same : other = m.1
      · simp [member?, same]
      · simp [member?, same, Ne.symm same]
    next miss =>
      simp only [member?, List.find?_cons] at ih ⊢
      by_cases here : m.1 = other
      · have differs : other ≠ name := here ▸ miss
        simp [here, differs]
      · simp only [beq_eq_false_iff_ne.mpr here]
        exact ih

def isNull : Json → Bool
  | null => true
  | _ => false

end Json
end Sieve
