import Sieve.Proofs.Document.Parts

/-! Documents are refused for one class of errors only. -/
namespace Sieve

/-- A property of computations that single results have, and that sequences keep, holds of walks over
lists. -/
theorem mapM_closed {m : Type → Type} [Monad m] [LawfulMonad m] (property : {α : Type} → m α → Prop)
    (ofPure : ∀ {α : Type} {a : α}, property (pure a))
    (ofBind : ∀ {α β : Type} {first : m α} {next : α → m β}, property first →
      (∀ a, property (next a)) → property (first >>= next))
    {α β : Type} {action : α → m β} (each : ∀ a, property (action a)) (ls : List α) :
    property (ls.mapM action) := by
  induction ls with
  | nil =>
    rw [List.mapM_nil]
    exact ofPure
  | cons a ls ih =>
    rw [List.mapM_cons]
    exact ofBind (each a) fun _ => ofBind ih fun _ => ofPure

namespace Document

variable {α β : Type}

def MalformedOnly (x : Except FilterError α) : Prop :=
  ∀ e, x = .error e → e.kind = .invalidFormat

namespace MalformedOnly

theorem ok {a : α} : MalformedOnly (.ok a) :=
  nofun

theorem malformed {cause : Malformation} :
    MalformedOnly (.error (.malformed cause) : Except FilterError α) := by
  rintro _ ⟨⟩
  rfl

theorem malformedField {field : String} {cause : FieldMalformation} :
    MalformedOnly (.error (.malformedField field cause) : Except FilterError α) := by
  rintro _ ⟨⟩
  rfl

theorem of_error {x : Except FilterError α} {e : FilterError} (only : MalformedOnly x)
    (failed : x = .error e) : MalformedOnly (.error e : Except FilterError β) := by
  rintro _ ⟨⟩
  exact only e failed

theorem bind {first : Except FilterError α} {next : α → Except FilterError β}
    (ofFirst : MalformedOnly first) (ofNext : ∀ a, MalformedOnly (next a)) :
    MalformedOnly (first >>= next) := by
  intro e failed
  rcases bind_eq_error.mp failed with failed | ⟨a, _, failed⟩
  · exact ofFirst e failed
  · exact ofNext a e failed

theorem map {x : Except FilterError α} (f : α → β) (only : MalformedOnly x) :
    MalformedOnly (x.map f) :=
  fun e failed => only e (map_eq_error.mp failed)

end MalformedOnly

def WalkMalformedOnly (walk : Walk α) : Prop :=
  ∀ count, MalformedOnly (walk count)

namespace WalkMalformedOnly

theorem pure {a : α} : WalkMalformedOnly (pure a) :=
  fun _ => .ok

theorem bind {first : Walk α} {next : α → Walk β} (ofFirst : WalkMalformedOnly first)
    (ofNext : ∀ a, WalkMalformedOnly (next a)) : WalkMalformedOnly (first >>= next) :=
  fun count => (ofFirst count).bind fun step => ofNext step.1 step.2

theorem lift {x : Except FilterError α} (only : MalformedOnly x) :
    WalkMalformedOnly (liftM x : Walk α) :=
  fun _ => only.bind fun _ => .ok

theorem mapM {action : α → Walk β} (each : ∀ a, WalkMalformedOnly (action a)) (ls : List α) :
    WalkMalformedOnly (ls.mapM action) :=
  mapM_closed WalkMalformedOnly pure bind each ls

end WalkMalformedOnly

mutual

theorem operand_malformedOnly (field : String) : (item : Json) → MalformedOnly (operand field item)
  | .null | .bool _ | .number _ | .string _ => .ok
  | .object _ => .malformedField
  | .array items => by
    rw [operand]
    split
    next failed => exact (elements_malformedOnly field items).of_error failed
    next => exact .ok

theorem elements_malformedOnly (field : String) :
    (items : List Json) → MalformedOnly (elements field items)
  | [] => .ok
  | item :: rest => by
    rw [elements]
    split
    next failed => exact (operand_malformedOnly field item).of_error failed
    next => exact .malformedField
    next => exact .malformedField
    next =>
      split
      next failed => exact (elements_malformedOnly field rest).of_error failed
      next => exact .ok

end

theorem checkKeys_malformedOnly (known : List String) (part : DocumentPart)
    (members : List (String × Json)) : MalformedOnly (checkKeys known part members) := by
  unfold checkKeys
  split
  next => exact .malformed
  next => exact .ok

theorem connective_malformedOnly (members : List (String × Json)) :
    MalformedOnly (connective members) := by
  unfold connective
  split
  next => exact .ok
  next => exact .ok
  next s _ =>
    split
    next => exact .ok
    next =>
      split
      next => exact .ok
      next => exact .malformed
  next => exact .malformed

theorem fieldOf_malformedOnly (members : List (String × Json)) : MalformedOnly (fieldOf members) := by
  unfold fieldOf
  split
  next => exact .ok
  next => exact .malformed

theorem operatorOf_malformedOnly (field : String) (members : List (String × Json)) :
    MalformedOnly (operatorOf field members) := by
  unfold operatorOf
  split
  next => exact .ok
  next value _ =>
    split
    next => exact .ok
    next => exact .malformedField

theorem filter_malformedOnly (members : List (String × Json)) : MalformedOnly (filter members) := by
  rw [filter_eq]
  refine (checkKeys_malformedOnly filterKeys .filter members).bind fun _ => ?_
  refine (fieldOf_malformedOnly members).bind fun field => ?_
  refine (operatorOf_malformedOnly field members).bind fun _ => ?_
  refine MalformedOnly.bind ?_ fun _ => .ok
  cases Json.member? members "value" with
  | none => exact .ok
  | some item => exact operand_malformedOnly field item

theorem asObject_malformedOnly (key : String) (item : Json) : MalformedOnly (asObject key item) := by
  unfold asObject
  split
  next => exact .ok
  next => exact .malformed

theorem objectsUnder_malformedOnly (key : String) (members : List (String × Json)) :
    MalformedOnly (objectsUnder key members) := by
  unfold objectsUnder
  split
  next => exact .ok
  next => exact .ok
  next items _ => exact mapM_closed MalformedOnly .ok .bind (asObject_malformedOnly key) items
  next => exact .malformed

section
variable (limits : Limits)

theorem countFilter_malformedOnly : WalkMalformedOnly (countFilter limits) := by
  intro count
  unfold countFilter
  split
  next => exact .malformed
  next => exact .ok

theorem treeFilter_malformedOnly (members : List (String × Json)) :
    WalkMalformedOnly (treeFilter limits members) :=
  (countFilter_malformedOnly limits).bind fun _ => .lift (filter_malformedOnly members)

theorem flatFilter_malformedOnly (field operator : String) (value : Json) :
    WalkMalformedOnly (flatFilter limits field operator value) :=
  (countFilter_malformedOnly limits).bind fun _ =>
    (WalkMalformedOnly.lift (operand_malformedOnly field value)).bind fun _ => .pure

theorem flatMember_malformedOnly (member : String × Json) :
    WalkMalformedOnly (flatMember limits member) := by
  unfold flatMember
  split
  next => exact fun _ => .malformedField
  next field operators _ =>
    exact .mapM (fun operator => flatFilter_malformedOnly limits field operator.1 operator.2) operators
  next => exact (countFilter_malformedOnly limits).bind fun _ => .pure
  next field value _ _ _ =>
    exact (flatFilter_malformedOnly limits field Operator.eq.name value).bind fun _ => .pure

theorem flat_malformedOnly (members : List (String × Json)) :
    WalkMalformedOnly (flat limits members) :=
  (WalkMalformedOnly.mapM (flatMember_malformedOnly limits) members).bind fun _ => .pure

theorem group_malformedOnly (levels : Nat) (members : List (String × Json)) :
    WalkMalformedOnly (group limits levels members) := by
  induction levels generalizing members with
  | zero => exact fun _ => .malformed
  | succ levels ih =>
    rw [group]
    refine (WalkMalformedOnly.lift (checkKeys_malformedOnly groupKeys .group members)).bind fun _ => ?_
    refine (WalkMalformedOnly.lift (connective_malformedOnly members)).bind fun _ => ?_
    refine (WalkMalformedOnly.lift (objectsUnder_malformedOnly "filters" members)).bind fun entries => ?_
    refine (WalkMalformedOnly.mapM (treeFilter_malformedOnly limits) entries).bind fun _ => ?_
    refine (WalkMalformedOnly.lift (objectsUnder_malformedOnly "groups" members)).bind fun objects => ?_
    refine (WalkMalformedOnly.mapM ih objects).bind fun _ => .pure

theorem ofJson_malformedOnly (document : Json) : MalformedOnly (ofJson limits document) := by
  unfold ofJson
  split
  next members =>
    split
    next => exact (group_malformedOnly limits limits.maxDepth members 0).map Prod.fst
    next => exact (flat_malformedOnly limits members 0).map Prod.fst
  next => exact .malformed

/-- Every text that is refused is refused as malformed. -/
theorem parse_malformedOnly (text : String) : MalformedOnly (parse limits text) := by
  unfold parse
  split
  next => exact .malformed
  next =>
    split
    next => exact .malformed
    next document _ => exact ofJson_malformedOnly limits document

end

end Document
end Sieve
