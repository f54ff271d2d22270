import Sieve.Proofs.Document.Refusal
import Sieve.Proofs.Expression.Reading

/-! Expressions are refused for the same class of errors as documents, and are refused where a name
between the colons is blank. -/
namespace Sieve.Expression

open Document (MalformedOnly)

variable {limits : Limits} {expression : String} {field operator : List Char}
  {value : Option (List Char)}

theorem listElements_malformedOnly (field : String) (written : List Char) :
    MalformedOnly (listElements field written) := by
  refine mapM_closed MalformedOnly .ok .bind (fun piece => ?_) _
  dsimp only
  split
  next => exact .malformedField
  next => exact .ok

theorem valueOf_malformedOnly (field operator : String) (written : List Char) :
    MalformedOnly (valueOf field operator written) := by
  unfold valueOf
  split
  next => exact .ok
  next =>
    split
    next => exact (listElements_malformedOnly field written).map _
    next => exact .ok

theorem parseUnlimited_malformedOnly (expression : String) :
    MalformedOnly (parseUnlimited expression) := by
  unfold parseUnlimited
  split
  next => exact .malformed
  next field rest _ =>
    dsimp only
    split
    next => exact .malformed
    next => exact (valueOf_malformedOnly _ _ _).map _

theorem parse_malformedOnly (limits : Limits) (expression : String) :
    MalformedOnly (parse limits expression) := by
  unfold parse
  split
  next => exact .malformed
  next => exact parseUnlimited_malformedOnly expression

theorem parseAll_malformedOnly (limits : Limits) (expressions : List String) :
    MalformedOnly (parseAll limits expressions) := by
  unfold parseAll
  split
  next => exact .malformed
  next => exact (mapM_closed MalformedOnly .ok .bind (parse_malformedOnly limits) expressions).map _

theorem Parts.visible_of_parse {f : Filter} (parts : Parts expression field operator value)
    (read : parse limits expression = .ok f) :
    Text.trim field ≠ [] ∧ Text.trim operator ≠ [] := by
  obtain ⟨otherField, otherOperator, otherValue, others, fieldVisible, operatorVisible, _⟩ :=
    parseUnlimited_eq_ok_iff.mp (parse_eq_ok_iff.mp read).2
  obtain ⟨rfl, rfl, rfl⟩ := parts.unique others
  exact ⟨fieldVisible, operatorVisible⟩

/-- A list of expressions is not accepted if a name is blank in one of them. -/
theorem parseAll_ne_ok {expressions : List String} (member : expression ∈ expressions)
    (parts : Parts expression field operator value)
    (blank : (∀ c ∈ field, Text.isBlank c = true) ∨ ∀ c ∈ operator, Text.isBlank c = true)
    (tree : Tree Filter) : parseAll limits expressions ≠ .ok tree := by
  intro read
  obtain ⟨_, filters, each, _⟩ := parseAll_eq_ok_iff.mp read
  obtain ⟨f, _, one⟩ := Tree.exists_of_mem_left each member
  obtain ⟨fieldVisible, operatorVisible⟩ := parts.visible_of_parse one
  rw [← Text.trim_eq_nil_iff, ← Text.trim_eq_nil_iff] at blank
  exact blank.elim fieldVisible operatorVisible

end Sieve.Expression
