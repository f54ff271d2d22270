import Sieve.Engine
import Sieve.Schema.Document
import Sieve.Settings.Document

/-! Sessions: schemas and trees kept under names, and fragments of SQL that are joined and share
one list of parameters. -/
namespace Sieve

structure Session where
  settings : Settings
  schemas : List (String × Schema)
  trees : List (String × Tree Filter)
  fragments : List String
  params : List TypedValue
  next : Nat

inductive Step where
  | configure (text : String)
  | schema (name text : String)
  | parse (name : String) (source : Source)
  | combine (name : String) (connective : Connective) (trees : List String)
  | add (tree : String) (leaf : Filter)
  | validate (tree schema : String)
  | compile (tree schema : String)
  | select (tree schema : String) (records : List Record)
  | reset (start : Nat)

inductive Outcome where
  | settings (settings : Settings)
  | fields (names : List String)
  | size (leafCount depth : Nat)
  | tree (tree : Tree Filter)
  | valid
  | fragment (fragment : Sql.Fragment)
  | selection (selection : Selection)
  | done

inductive Failure where
  | settings (fault : Json.Fault)
  | schema (error : SchemaError)
  | report (report : Report)
  | noSchema
  | noTree

namespace Session

def start : Session :=
  ⟨.standard, [], [], [], [], 1⟩

def lookup? {α : Type} (entries : List (String × α)) (name : String) : Option α :=
  (entries.find? fun e => e.1 == name).map Prod.snd

def orFail {ε α : Type} (failure : ε → Failure) : Except ε α → Except Failure α
  | .ok x => .ok x
  | .error e => .error (failure e)

def schema? (s : Session) (name : String) : Except Failure Schema :=
  match lookup? s.schemas name with
  | some schema => .ok schema
  | none => .error .noSchema

def tree? (s : Session) (name : String) : Except Failure (Tree Filter) :=
  match lookup? s.trees name with
  | some tree => .ok tree
  | none => .error .noTree

def keep (s : Session) (name : String) (tree : Tree Filter) : Session :=
  { s with trees := (name, tree) :: s.trees }

def append (s : Session) (f : Sql.Fragment) : Session :=
  { s with
    fragments := if f.isEmpty then s.fragments else s.fragments ++ [f.parenthesized]
    params := s.params ++ f.params
    next := f.next }

def sql (s : Session) : String :=
  Text.joined " AND " s.fragments

/-- Takes a step. What a step refers to is looked up first, schemas before trees. -/
def take (s : Session) : Step → Except Failure (Session × Outcome)
  | .configure text => do
    let settings ← orFail .settings (Settings.parse text)
    return ({ s with settings := settings }, .settings settings)
  | .schema name text => do
    let schema ← orFail .schema (Schema.parse text)
    return ({ s with schemas := (name, schema) :: s.schemas },
      .fields (schema.fields.map Prod.fst))
  | .parse name source => do
    let tree ← orFail .report (s.settings.readSource source)
    return (s.keep name tree, .size tree.leafCount tree.depth)
  | .combine name connective names => do
    let tree := Tree.group connective [] (← names.mapM s.tree?)
    return (s.keep name tree, .tree tree)
  | .add name leaf => do
    let tree := (← s.tree? name).addLeaf leaf
    return (s.keep name tree, .tree tree)
  | .validate tree schema => do
    let schema ← s.schema? schema
    let tree ← s.tree? tree
    orFail .report (s.settings.validate schema tree)
    return (s, .valid)
  | .compile tree schema => do
    let schema ← s.schema? schema
    let tree ← s.tree? tree
    let fragment ← orFail .report (s.settings.compile schema tree s.next)
    return (s.append fragment, .fragment fragment)
  | .select tree schema records => do
    let schema ← s.schema? schema
    let tree ← s.tree? tree
    let typed ← orFail .report (s.settings.prepare schema tree)
    return (s, .selection (typed.selection records))
  | .reset start => return ({ s with fragments := [], params := [], next := start }, .done)

def advance (s : Session) (step : Step) : Session × Except Failure Outcome :=
  match s.take step with
  | .ok (after, outcome) => (after, .ok outcome)
  | .error failure => (s, .error failure)

end Session
end Sieve
