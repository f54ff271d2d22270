import Sieve.Proofs.Sql.Written

/-! SQL text read as a condition. Tests on columns are joined by AND and OR, of which AND binds
tighter, and parentheses may stand around any condition. What the tests give is one of three truth
values. A word at the front of a test is its column, whatever word it is. -/
namespace Sieve.Sql

inductive Truth where
  | no
  | unknown
  | yes
  deriving DecidableEq

def Truth.join : Connective → Truth → Truth → Truth
  | .and, .no, _ | .and, _, .no => .no
  | .and, .yes, .yes => .yes
  | .and, _, _ => .unknown
  | .or, .yes, _ | .or, _, .yes => .yes
  | .or, .no, .no => .no
  | .or, _, _ => .unknown

theorem Truth.join_and_eq_yes (a b : Truth) : join .and a b = .yes ↔ a = .yes ∧ b = .yes := by
  cases a <;> cases b <;> decide

theorem Truth.join_or_eq_yes (a b : Truth) : join .or a b = .yes ↔ a = .yes ∨ b = .yes := by
  cases a <;> cases b <;> decide

structure Test where
  column : String
  keyword : String
  place : Option Nat
  deriving DecidableEq

inductive Formula where
  | always
  | test (t : Test)
  | join (c : Connective) (left right : Formula)
  deriving DecidableEq

namespace Formula

def tests : Formula → List Test
  | always => []
  | test t => [t]
  | join _ left right => left.tests ++ right.tests

/-- The truth value of a condition, where the values of its tests are given from left to right. -/
def value : Formula → List Truth → Truth
  | always, _ => .yes
  | test _, values => values.headD .unknown
  | join c left right, values =>
    Truth.join c (left.value values) (right.value (values.drop left.tests.length))

end Formula

abbrev Reader :=
  List Token → Option (Formula × List Token)

namespace Reader

def comparisons : List String :=
  ["=", "!=", ">", ">=", "<", "<=", "LIKE", "ILIKE"]

def predicate (column : String) : Reader
  | .word "IS" :: .word "NULL" :: rest => some (.test ⟨column, "IS NULL", none⟩, rest)
  | .word "IS" :: .word "NOT" :: .word "NULL" :: rest =>
    some (.test ⟨column, "IS NOT NULL", none⟩, rest)
  | .word "=" :: .word "ANY" :: .opening :: .place n :: .closing :: rest =>
    some (.test ⟨column, "= ANY", some n⟩, rest)
  | .word "!=" :: .word "ALL" :: .opening :: .place n :: .closing :: rest =>
    some (.test ⟨column, "!= ALL", some n⟩, rest)
  | .word sign :: .place n :: rest =>
    if sign ∈ comparisons then some (.test ⟨column, sign, some n⟩, rest) else none
  | _ => none

def test : Reader
  | .word column :: rest => if isColumn column then predicate column rest else none
  | _ => none

def chain (c : Connective) (operand : Reader) : Nat → Reader
  | 0, _ => none
  | count + 1, ts =>
    match operand ts with
    | some (left, .word w :: rest) =>
      if w = c.keyword then
        (chain c operand count rest).map fun (right, rest) => (.join c left right, rest)
      else some (left, .word w :: rest)
    | other => other

def condition (operand : Reader) : Reader := fun ts =>
  chain .or (chain .and operand ts.length) ts.length ts

def operand : Nat → Reader
  | depth + 1, .opening :: ts =>
    match condition (operand depth) ts with
    | some (f, .closing :: rest) => some (f, rest)
    | _ => none
  | _, ts => test ts

end Reader

def read? (text : String) : Option Formula :=
  match tokens text with
  | [] => some .always
  | ts =>
    match Reader.condition (Reader.operand ts.length) ts with
    | some (f, []) => some f
    | _ => none

example : (read? "a = $1 OR b = ANY($2) AND (c IS NOT NULL OR t.d ILIKE $10)") =
    some (.join .or (.test ⟨"a", "=", some 1⟩) (.join .and (.test ⟨"b", "= ANY", some 2⟩)
      (.join .or (.test ⟨"c", "IS NOT NULL", none⟩) (.test ⟨"t.d", "ILIKE", some 10⟩)))) := by
  decide +kernel

def Condition.test (c : Condition) : Test :=
  ⟨c.column, keyword c.operator, c.place⟩

def Formula.joined (c : Connective) : List Formula → Formula
  | [] => always
  | [f] => f
  | f :: next :: others => join c f (joined c (next :: others))

mutual

def formulaOf : Tree Condition → Formula
  | .group c conditions groups =>
    Formula.joined c (conditions.map (fun condition => .test condition.test) ++
      nestedFormulas groups)

def nestedFormulas : List (Tree Condition) → List Formula
  | [] => []
  | g :: gs => if g.isEmpty then nestedFormulas gs else formulaOf g :: nestedFormulas gs

end

theorem Formula.tests_joined (c : Connective) :
    (fs : List Formula) → (joined c fs).tests = fs.flatMap tests
  | [] => rfl
  | [f] => by simp [joined]
  | f :: next :: others => by
    rw [joined, tests, tests_joined, ← List.flatMap_cons]

mutual

theorem tests_formulaOf : (t : Tree Condition) → (formulaOf t).tests = t.leaves.map Condition.test
  | .group c conditions groups => by
    rw [formulaOf, Formula.tests_joined, List.flatMap_append, tests_nestedFormulas groups,
      List.flatMap_map, Tree.leaves, List.map_append, List.map_eq_flatMap (l := conditions)]
    rfl

theorem tests_nestedFormulas :
    (gs : List (Tree Condition)) →
      (nestedFormulas gs).flatMap Formula.tests = (Tree.leavesOfAll gs).map Condition.test
  | [] => rfl
  | g :: gs => by
    rw [nestedFormulas, Tree.leavesOfAll, List.map_append, ← tests_nestedFormulas gs]
    split
    next empty => rw [(Tree.isEmpty_iff g).mp empty, List.map_nil, List.nil_append]
    next => rw [List.flatMap_cons, tests_formulaOf g]

end

namespace Reader

/-- Reads these tokens as this condition, whatever follows within `stop`. -/
def Reads (reader : Reader) (stop : List Token → Prop) (ts : List Token) (f : Formula) : Prop :=
  ∀ rest, stop rest → reader (ts ++ rest) = some (f, rest)

def Apart (c : Connective) (rest : List Token) : Prop :=
  rest.head? ≠ some (.word c.keyword)

theorem chain_last {c : Connective} {operand : Reader} {count : Nat} {ts rest : List Token}
    {f : Formula} (reads : operand ts = some (f, rest)) (apart : Apart c rest) :
    chain c operand (count + 1) ts = some (f, rest) := by
  rw [chain, reads]
  cases rest with
  | nil => rfl
  | cons t rest =>
    cases t with
    | word w =>
      have other : w ≠ c.keyword := by
        rintro rfl
        exact apart rfl
      simp only [other, if_false]
    | _ => rfl

theorem chain_reads {c : Connective} {operand : Reader} {stop : List Token → Prop}
    (goesOn : ∀ ts, stop (.word c.keyword :: ts)) {parts : List (List Token)} {fs : List Formula}
    (reads : List.Forall₂ (Reads operand stop) parts fs) (nonempty : parts ≠ []) {count : Nat}
    (enough : parts.length ≤ count) {rest : List Token} (stops : stop rest)
    (apart : Apart c rest) :
    chain c operand count ([.word c.keyword].intercalate parts ++ rest) =
      some (.joined c fs, rest) := by
  induction reads generalizing count with
  | nil => exact absurd rfl nonempty
  | @cons part f others fs first reads ih =>
    obtain ⟨count, rfl⟩ : ∃ smaller, count = smaller + 1 :=
      ⟨count - 1, by simp only [List.length_cons] at enough; omega⟩
    cases reads with
    | nil =>
      rw [List.intercalate_singleton, Formula.joined]
      exact chain_last (first rest stops) apart
    | @cons next g others fs second reads =>
      have later := ih (by simp) (Nat.le_of_succ_le_succ enough)
      rw [List.intercalate_cons_cons, List.append_assoc, List.append_assoc,
        List.singleton_append, chain, first _ (goesOn _)]
      simp only [if_true, later, Option.map_some, Formula.joined]

theorem length_le_intercalate (separator : List Token) {parts : List (List Token)}
    (nonempty : ∀ part ∈ parts, part ≠ []) :
    parts.length ≤ (separator.intercalate parts).length ∧
      ∀ part ∈ parts, part.length ≤ (separator.intercalate parts).length := by
  induction parts with
  | nil => simp
  | cons part others ih =>
    have first := List.length_pos_iff.mpr (nonempty part List.mem_cons_self)
    obtain ⟨count, longest⟩ := ih fun other member => nonempty other (.tail _ member)
    cases others with
    | nil =>
      simp only [List.intercalate_singleton, List.length_singleton, List.mem_singleton, forall_eq]
      omega
    | cons next others =>
      simp only [List.intercalate_cons_cons, List.length_append]
      constructor
      · simp only [List.length_cons] at count ⊢
        omega
      · intro other member
        rcases List.mem_cons.mp member with rfl | later
        · omega
        · have short := longest other later
          omega

theorem condition_reads {c : Connective} {operand : Reader} {parts : List (List Token)}
    {fs : List Formula} (reads : List.Forall₂ (Reads operand fun _ => True) parts fs)
    (nonempty : parts ≠ []) (filled : ∀ part ∈ parts, part ≠ []) {rest : List Token}
    (apart : ∀ c, Apart c rest) :
    condition operand ([.word c.keyword].intercalate parts ++ rest) =
      some (.joined c fs, rest) := by
  have count := (length_le_intercalate [.word c.keyword] filled).1
  have some_part := List.length_pos_iff.mpr nonempty
  rw [condition]
  generalize bound : ([Token.word c.keyword].intercalate parts ++ rest).length = n
  have enough : parts.length ≤ n := by
    rw [← bound, List.length_append]
    omega
  obtain ⟨m, rfl⟩ : ∃ m, n = m + 1 := ⟨n - 1, by omega⟩
  cases c with
  | and =>
    apply chain_last _ (apart .or)
    exact chain_reads (fun _ => trivial) reads nonempty enough trivial (apart .and)
  | or =>
    have goesOn : ∀ ts, Apart .and (.word Connective.or.keyword :: ts) := by
      simp [Apart, Connective.keyword]
    apply chain_reads goesOn _ nonempty enough (apart .and) (apart .or)
    apply reads.imp
    intro part f reads rest apart
    exact chain_last (reads rest trivial) apart

theorem predicate_reads {c : Condition} (wellFormed : c.IsWellFormed) (rest : List Token) :
    predicate c.column (tokens (keyword c.operator) ++ c.placeTokens ++ rest) =
      some (.test c.test, rest) := by
  obtain ⟨column, op, place⟩ := c
  have given := wellFormed.2
  rw [tokens_keyword]
  cases place with
  | none =>
    cases op with
    | isNull => rfl
    | isNotNull => rfl
    | _ => cases given
  | some n =>
    cases op with
    | isNull => cases given
    | isNotNull => cases given
    | _ => rfl

theorem operand_reads_test {c : Condition} (wellFormed : c.IsWellFormed) (depth : Nat) :
    Reads (operand depth) (fun _ => True) c.tokens (.test c.test) := by
  intro rest _
  have read := predicate_reads wellFormed rest
  rw [Condition.tokens, List.cons_append, List.cons_append]
  cases depth <;> rw [operand, test, if_pos wellFormed.1, read] <;> simp

theorem nestedTokens_ne_nil (gs : List (Tree Condition)) :
    ∀ part ∈ nestedTokens gs, part ≠ [] := by
  induction gs with
  | nil => simp [nestedTokens]
  | cons g gs ih =>
    rw [nestedTokens]
    split
    · exact ih
    · simpa using ih

theorem areEmpty_of_nestedTokens {gs : List (Tree Condition)} (none : nestedTokens gs = []) :
    Tree.areEmpty gs = true := by
  induction gs with
  | nil => rfl
  | cons g gs ih =>
    rw [nestedTokens] at none
    split at none
    next empty => rw [Tree.areEmpty, empty, ih none, Bool.and_self]
    next => cases none

mutual

/-- A tree with a leaf is read back from its tokens by a reader that goes deep enough. -/
theorem condition_reads_tokensOf :
    (t : Tree Condition) → (∀ c ∈ t.leaves, c.IsWellFormed) → t.isEmpty = false → (depth : Nat) →
      (tokensOf t).length ≤ depth → (rest : List Token) → (∀ c, Apart c rest) →
      condition (operand depth) (tokensOf t ++ rest) = some (formulaOf t, rest)
  | .group c conditions groups, wellFormed, filled, depth, deep, rest, apart => by
    obtain ⟨ownWellFormed, nestedWellFormed⟩ := Tree.forall_leaves_group.mp wellFormed
    have parts : ∀ part ∈ conditions.map Condition.tokens ++ nestedTokens groups, part ≠ [] := by
      intro part member
      rcases List.mem_append.mp member with own | nested
      · obtain ⟨condition, _, rfl⟩ := List.mem_map.mp own
        exact List.cons_ne_nil _ _
      · exact nestedTokens_ne_nil groups part nested
    have own : List.Forall₂ (Reads (operand depth) fun _ => True)
        (conditions.map Condition.tokens) (conditions.map fun c => .test c.test) := by
      rw [List.forall₂_map_left_iff, List.forall₂_map_right_iff, List.forall₂_same]
      intro condition member
      exact operand_reads_test (ownWellFormed condition member) depth
    have short : ∀ part ∈ nestedTokens groups, part.length ≤ depth := by
      intro part member
      have within := (length_le_intercalate [.word c.keyword] parts).2 part
        (List.mem_append_right _ member)
      exact within.trans deep
    have nested := operand_reads_nestedTokens groups nestedWellFormed depth short
    refine condition_reads (List.rel_append own nested) ?_ parts apart
    intro none
    obtain ⟨noneOwn, noneNested⟩ := List.append_eq_nil_iff.mp none
    rw [Tree.isEmpty, List.map_eq_nil_iff.mp noneOwn, areEmpty_of_nestedTokens noneNested] at filled
    cases filled

theorem operand_reads_nestedTokens :
    (gs : List (Tree Condition)) → (∀ c ∈ Tree.leavesOfAll gs, c.IsWellFormed) → (depth : Nat) →
      (∀ part ∈ nestedTokens gs, part.length ≤ depth) →
      List.Forall₂ (Reads (operand depth) fun _ => True) (nestedTokens gs) (nestedFormulas gs)
  | [], _, _, _ => .nil
  | g :: gs, wellFormed, depth, deep => by
    obtain ⟨firstWellFormed, restWellFormed⟩ := Tree.forall_leavesOfAll_cons.mp wellFormed
    have ofFirst := condition_reads_tokensOf g firstWellFormed
    have ofRest := operand_reads_nestedTokens gs restWellFormed depth
    rw [nestedTokens] at deep
    rw [nestedTokens, nestedFormulas]
    split at deep
    next empty =>
      rw [if_pos empty, if_pos empty]
      exact ofRest deep
    next filled =>
      obtain ⟨long, deepRest⟩ := List.forall_mem_cons.mp deep
      simp only [List.length_append, List.length_singleton] at long
      rw [if_neg filled, if_neg filled]
      apply List.Forall₂.cons
      · intro rest _
        -- The parentheses use up one level, and their two tokens pay for it.
        obtain ⟨inner, rfl⟩ : ∃ inner, depth = inner + 1 := ⟨depth - 1, by omega⟩
        have enough : (tokensOf g).length ≤ inner := by omega
        have apart : ∀ c, Apart c (.closing :: rest) := by simp [Apart]
        have read := ofFirst (Bool.eq_false_iff.mpr filled) inner enough (.closing :: rest) apart
        rw [List.append_assoc, List.append_assoc, List.singleton_append, List.singleton_append,
          operand, read]
      · exact ofRest deepRest

end

end Reader

theorem nestedFormulas_of_areEmpty {gs : List (Tree Condition)} (empty : Tree.areEmpty gs = true) :
    nestedFormulas gs = [] := by
  induction gs with
  | nil => rfl
  | cons g gs ih =>
    rw [Tree.areEmpty, Bool.and_eq_true] at empty
    rw [nestedFormulas, if_pos empty.1, ih empty.2]

theorem formulaOf_of_isEmpty {t : Tree Condition} (empty : t.isEmpty = true) :
    formulaOf t = .always := by
  obtain ⟨c, conditions, groups⟩ := t
  rw [Tree.isEmpty, Bool.and_eq_true, List.isEmpty_iff] at empty
  rw [formulaOf, empty.1, nestedFormulas_of_areEmpty empty.2]
  rfl

/-- The text of conditions is read as these conditions. -/
theorem read?_textOf {t : Tree Condition} (wellFormed : ∀ c ∈ t.leaves, c.IsWellFormed) :
    read? (textOf t) = some (formulaOf t) := by
  by_cases empty : t.isEmpty
  · rw [(textOf_eq_empty t).mpr empty, formulaOf_of_isEmpty empty]
    rfl
  · have read := Reader.condition_reads_tokensOf t wellFormed (Bool.eq_false_iff.mpr empty) _
      le_rfl [] (by simp [Reader.Apart])
    rw [List.append_nil] at read
    rw [read?, tokens_textOf t fun c member => (wellFormed c member).1]
    cases ts : tokensOf t with
    | nil =>
      rw [ts] at read
      cases read
    | cons first rest =>
      rw [ts] at read
      dsimp only
      rw [read]

end Sieve.Sql
