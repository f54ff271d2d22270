import Sieve.Proofs.Sql.Numbering

/-! What the text of a compiled tree can depend on. It is made of the compiler's own words, the
columns of the schema and numbered places; the values of the filters have no part in it. -/
namespace Sieve

/-- Filters that ask the same of the same field, of whatever values. -/
def Filter.AsksSame (f g : Filter) : Prop :=
  f.field = g.field ∧ Text.sameIgnoringCase f.operator g.operator = true

structure TypedFilter.AsksSame (f g : TypedFilter) : Prop where
  column : f.column = g.column
  operator : f.operator = g.operator
  filled : f.IsFilled
  filled' : g.IsFilled

theorem Filter.AsksSame.typed {schema : Schema} {f g : Filter} {t u : TypedFilter}
    (same : f.AsksSame g) (first : f.Becomes schema t) (second : g.Becomes schema u) :
    t.AsksSame u := by
  obtain ⟨d, found, column⟩ := first.definition
  obtain ⟨d', found', column'⟩ := second.definition
  have definition : some d = some d' := by rw [← found, ← found', same.1]
  have operator : some t.operator = some u.operator := by
    rw [← first.operator, ← second.operator]
    exact Operator.ofName?_congr same.2
  constructor
  · rw [column, column', Option.some.inj definition]
  · exact Option.some.inj operator
  · exact first.filled
  · exact second.filled

/-- Prepared trees ask the same where the trees they are made of do. -/
theorem related_asksSame {settings : Settings} {schema : Schema} {tree other : Tree Filter}
    {typed typed' : Tree TypedFilter} (same : tree.Related Filter.AsksSame other)
    (prepared : settings.prepare schema tree = .ok typed)
    (prepared' : settings.prepare schema other = .ok typed') :
    typed.Related TypedFilter.AsksSame typed' := by
  have first := (Settings.related_of_prepare prepared).flip
  have second := Settings.related_of_prepare prepared'
  apply (first.comp (same.comp second)).imp
  rintro t u ⟨f, becomes, g, asks, becomes'⟩
  exact asks.typed becomes becomes'

namespace Sql

theorem Binding.number_eq {b b' : Binding} (column : b.column = b'.column)
    (operator : b.operator = b'.operator)
    (parameter : b.parameter.isSome = b'.parameter.isSome) : b.number = b'.number := by
  funext next
  unfold number
  rw [column, operator]
  cases given : b.parameter <;> cases given' : b'.parameter
  · rfl
  · simp [given, given'] at parameter
  · simp [given, given'] at parameter
  · rfl

theorem number_bindingOf_eq {f g : TypedFilter} (same : f.AsksSame g) :
    (bindingOf f).number = (bindingOf g).number := by
  apply Binding.number_eq same.column same.operator
  rw [bindingOf, bindingOf, TypedFilter.isSome_parameter? same.filled,
    TypedFilter.isSome_parameter? same.filled', same.operator]

theorem numbered_eq {tree other : Tree TypedFilter} (same : tree.Related TypedFilter.AsksSame other)
    (first : Nat) : numbered tree first = numbered other first := by
  rw [numbered, numbered, Tree.mapM_map, Tree.mapM_map]
  exact congrArg (·.run first) (Tree.Related.mapM_eq (same.imp fun _ _ => number_bindingOf_eq))

def isPlain (c : Char) : Bool :=
  c.isAlphanum || ['_', '.', '$', ' ', '(', ')', '=', '!', '<', '>'].contains c

def PlainText (s : String) : Prop :=
  ∀ c ∈ s.toList, isPlain c = true

theorem plainText_of_all {s : String} (plain : s.toList.all isPlain = true) : PlainText s :=
  List.all_eq_true.mp plain

theorem PlainText.append {s t : String} (first : PlainText s) (second : PlainText t) :
    PlainText (s ++ t) := by
  intro c member
  rw [String.toList_append] at member
  rcases List.mem_append.mp member with inFirst | inSecond
  · exact first c inFirst
  · exact second c inSecond

theorem isPlain_of_isWordChar {c : Char} (word : isWordChar c = true) : isPlain c = true := by
  simp only [isWordChar, isColumnChar, Bool.or_eq_true, beq_iff_eq] at word
  rcases word with ((letter | rfl) | rfl) | rfl
  · unfold isPlain
    rw [letter, Bool.true_or]
  · decide
  · decide
  · decide

theorem plainText_keyword (op : Operator) : PlainText (keyword op) := by
  apply plainText_of_all
  cases op <;> decide

theorem plainText_blank : PlainText " " :=
  plainText_of_all (by decide)

theorem plainText_opening : PlainText "(" :=
  plainText_of_all (by decide)

theorem plainText_closing : PlainText ")" :=
  plainText_of_all (by decide)

theorem plainText_separator (c : Connective) : PlainText (separator c) := by
  apply plainText_of_all
  cases c <;> decide

theorem PlainText.parenthesized {s : String} (plain : PlainText s) : PlainText ("(" ++ s ++ ")") :=
  (plainText_opening.append plain).append plainText_closing

theorem plainText_placeholder (n : Nat) : PlainText (placeholder n) := by
  intro c member
  apply isPlain_of_isWordChar
  exact isWordChar_of_mem_placeholder member

theorem plainText_column {column : String} (sound : isColumn column = true) : PlainText column := by
  intro c member
  apply isPlain_of_isWordChar
  exact isWordChar_of_isColumn sound member

theorem Condition.plainText_text {c : Condition} (sound : isColumn c.column = true) :
    PlainText c.text := by
  have test : PlainText (c.column ++ " " ++ keyword c.operator) :=
    ((plainText_column sound).append plainText_blank).append (plainText_keyword c.operator)
  unfold text
  cases c.place with
  | none => exact test
  | some n =>
    dsimp only
    split
    · have opened := (test.append plainText_opening).append (plainText_placeholder n)
      exact opened.append plainText_closing
    · exact (test.append plainText_blank).append (plainText_placeholder n)

theorem plainText_joined {separator : String} (between : PlainText separator) :
    {parts : List String} → (∀ part ∈ parts, PlainText part) →
      PlainText (Text.joined separator parts)
  | [], _ => by simp [Text.joined, PlainText]
  | [part], plain => plain part List.mem_cons_self
  | part :: next :: others, plain => by
    have first := plain part List.mem_cons_self
    have rest := plainText_joined between fun other member => plain other (.tail part member)
    exact (first.append between).append rest

mutual

theorem plainText_textOf : (t : Tree Condition) → SoundColumns t.leaves → PlainText (textOf t)
  | .group c conditions groups, sound => by
    obtain ⟨ownSound, nestedSound⟩ := Tree.forall_leaves_group.mp sound
    apply plainText_joined (plainText_separator c)
    intro part member
    rcases List.mem_append.mp member with own | nested
    · obtain ⟨condition, inGroup, rfl⟩ := List.mem_map.mp own
      exact Condition.plainText_text (ownSound condition inGroup)
    · exact plainText_nestedTexts groups nestedSound part nested

theorem plainText_nestedTexts :
    (gs : List (Tree Condition)) → SoundColumns (Tree.leavesOfAll gs) →
      ∀ part ∈ nestedTexts gs, PlainText part
  | [], _ => by simp [nestedTexts]
  | g :: gs, sound => by
    obtain ⟨firstSound, restSound⟩ := Tree.forall_leavesOfAll_cons.mp sound
    have first := plainText_textOf g firstSound
    have rest := plainText_nestedTexts gs restSound
    rw [nestedTexts_cons]
    split
    · exact rest
    · rw [List.forall_mem_cons]
      exact ⟨first.parenthesized, rest⟩

end

def ownWords : List String :=
  ["=", "!=", ">", ">=", "<", "<=", "ANY", "ALL", "LIKE", "ILIKE", "IS", "NOT", "NULL", "AND", "OR"]

/-- The words of a list of tokens are the compiler's own or columns of these conditions. -/
def KnownWords (conditions : List Condition) (ts : List Token) : Prop :=
  ∀ w, Token.word w ∈ ts → w ∈ ownWords ∨ ∃ c ∈ conditions, c.column = w

namespace KnownWords

theorem mono {conditions others : List Condition} {ts : List Token}
    (known : KnownWords conditions ts) (within : ∀ c ∈ conditions, c ∈ others) :
    KnownWords others ts := by
  intro w member
  rcases known w member with own | ⟨c, inConditions, column⟩
  · exact .inl own
  · exact .inr ⟨c, within c inConditions, column⟩

theorem append {conditions : List Condition} {ts us : List Token}
    (first : KnownWords conditions ts) (second : KnownWords conditions us) :
    KnownWords conditions (ts ++ us) := by
  intro w member
  rcases List.mem_append.mp member with inFirst | inSecond
  · exact first w inFirst
  · exact second w inSecond

theorem of_subset {ts : List Token} (conditions : List Condition)
    (own : ∀ w, Token.word w ∈ ts → w ∈ ownWords) : KnownWords conditions ts :=
  fun w member => .inl (own w member)

theorem intercalate {conditions : List Condition} (c : Connective) : {parts : List (List Token)} →
    (∀ part ∈ parts, KnownWords conditions part) →
      KnownWords conditions ([Token.word c.keyword].intercalate parts)
  | [], _ => of_subset conditions (by simp)
  | [part], known => by
    rw [List.intercalate_singleton]
    exact known part List.mem_cons_self
  | part :: next :: others, known => by
    have first := known part List.mem_cons_self
    have rest := intercalate c fun other member => known other (.tail part member)
    have between : KnownWords conditions [.word c.keyword] :=
      of_subset conditions (by cases c <;> simp [Connective.keyword, ownWords])
    rw [List.intercalate_cons_cons]
    exact (first.append between).append rest

end KnownWords

theorem Condition.knownWords_tokens (c : Condition) : KnownWords [c] c.tokens := by
  have ofKeyword : KnownWords [c] (Sql.tokens (keyword c.operator)) := by
    apply KnownWords.of_subset
    rw [tokens_keyword]
    cases c.operator <;> simp [ownWords]
  have ofPlace : KnownWords [c] c.placeTokens := by
    apply KnownWords.of_subset
    rw [placeTokens]
    split
    · simp
    · split <;> simp
  rw [tokens]
  apply KnownWords.append _ ofPlace
  intro w member
  rcases List.mem_cons.mp member with column | later
  · cases column
    exact .inr ⟨c, List.mem_cons_self, rfl⟩
  · exact ofKeyword w later

mutual

theorem knownWords_tokensOf : (t : Tree Condition) → KnownWords t.leaves (tokensOf t)
  | .group c conditions groups => by
    rw [tokensOf]
    apply KnownWords.intercalate
    intro part member
    rcases List.mem_append.mp member with own | nested
    · obtain ⟨condition, inGroup, rfl⟩ := List.mem_map.mp own
      apply condition.knownWords_tokens.mono
      simpa [Tree.leaves] using .inl inGroup
    · apply (knownWords_nestedTokens groups part nested).mono
      exact fun _ => List.mem_append_right _

theorem knownWords_nestedTokens : (gs : List (Tree Condition)) →
    ∀ part ∈ nestedTokens gs, KnownWords (Tree.leavesOfAll gs) part
  | [] => by simp [nestedTokens]
  | g :: gs => by
    have rest : ∀ part ∈ nestedTokens gs, KnownWords (Tree.leavesOfAll (g :: gs)) part :=
      fun part member => (knownWords_nestedTokens gs part member).mono
        fun _ => List.mem_append_right _
    rw [nestedTokens]
    split
    · exact rest
    · rw [List.forall_mem_cons]
      refine ⟨?_, rest⟩
      have first : KnownWords (Tree.leavesOfAll (g :: gs)) (tokensOf g) :=
        (knownWords_tokensOf g).mono fun _ => List.mem_append_left _
      exact ((KnownWords.of_subset _ (by simp)).append first).append (.of_subset _ (by simp))

end

section Compiled

variable {settings : Settings} {schema : Schema} {tree : Tree Filter} {typed : Tree TypedFilter}

theorem plainText_of_prepare (prepared : settings.prepare schema tree = .ok typed) (first : Nat) :
    PlainText (fragmentOf typed first).sql := by
  apply plainText_textOf
  exact soundColumns_numbered (columns_of_prepare prepared) first

/-- Words in the text of a prepared tree are the compiler's own or columns of fields that the tree
names. -/
theorem knownWords_of_prepare (prepared : settings.prepare schema tree = .ok typed) (first : Nat)
    {w : String} (member : Token.word w ∈ tokens (fragmentOf typed first).sql) :
    w ∈ ownWords ∨ ∃ f ∈ tree.leaves, ∃ d, schema.field? f.field = some d ∧ d.column = w := by
  have sound := soundColumns_numbered (columns_of_prepare prepared) first
  rw [fragmentOf, tokens_textOf _ sound] at member
  rcases knownWords_tokensOf _ w member with own | ⟨c, inText, rfl⟩
  · exact .inl own
  · obtain ⟨t, inTyped, column, _⟩ := (related_numbered typed first).exists_leaf inText
    obtain ⟨f, inTree, made⟩ := (Settings.related_of_prepare prepared).exists_leaf inTyped
    obtain ⟨d, found, column'⟩ := made.definition
    exact .inr ⟨f, inTree, d, found, by rw [column, column']⟩

theorem sql_eq_of_asksSame {other : Tree Filter} {typed' : Tree TypedFilter}
    (same : tree.Related Filter.AsksSame other)
    (prepared : settings.prepare schema tree = .ok typed)
    (prepared' : settings.prepare schema other = .ok typed') (first : Nat) :
    (fragmentOf typed' first).sql = (fragmentOf typed first).sql ∧
      (fragmentOf typed' first).next = (fragmentOf typed first).next ∧
      (fragmentOf typed' first).params.length = (fragmentOf typed first).params.length := by
  have numbers := numbered_eq (related_asksSame same prepared prepared') first
  have next : (fragmentOf typed' first).next = (fragmentOf typed first).next := by
    rw [fragmentOf, fragmentOf, numbers]
  have ending := (aligned_of_prepare prepared first).next
  have ending' := (aligned_of_prepare prepared' first).next
  refine ⟨?_, next, ?_⟩
  · rw [fragmentOf, fragmentOf, numbers]
  · omega

/-- No value of a filter has a part in the text: trees that ask the same compile to the same text,
whose characters are plain and whose words are known from the schema. -/
theorem compile_independent {start : Nat} {fragment : Fragment}
    (compiled : settings.compile schema tree start = .ok fragment) :
    (∀ other otherFragment, tree.Related Filter.AsksSame other →
        settings.compile schema other start = .ok otherFragment →
        otherFragment.sql = fragment.sql ∧ otherFragment.next = fragment.next ∧
          otherFragment.params.length = fragment.params.length) ∧
      PlainText fragment.sql ∧
      ∀ w, Token.word w ∈ tokens fragment.sql →
        w ∈ ownWords ∨ ∃ f ∈ tree.leaves, ∃ d, schema.field? f.field = some d ∧ d.column = w := by
  obtain ⟨typed, prepared, compiled⟩ := prepare_of_compile compiled
  rw [eq_fragmentOf_of_compile compiled]
  refine ⟨fun other otherFragment same otherCompiled => ?_, plainText_of_prepare prepared _,
    fun w => knownWords_of_prepare prepared _⟩
  obtain ⟨typed', prepared', otherCompiled⟩ := prepare_of_compile otherCompiled
  rw [eq_fragmentOf_of_compile otherCompiled]
  exact sql_eq_of_asksSame same prepared prepared' _

end Compiled

/-- A value that is itself a condition in SQL goes to a place as any other does. -/
theorem compile_independent_hostile :
    let fields : List (String × FieldDefinition) := [("kind", .new "f.kind" .string)]
    let treeOf (one two : String) : Tree Filter :=
      .group .or [⟨"kind", one, some (.text two)⟩]
        [.all [⟨"kind", "in", some (.list [.text two, .bool true])⟩]]
    let fragmentOf (two : String) : Fragment :=
      ⟨"f.kind = $1 OR (f.kind = ANY($2))", [.text two, .list [.text two, .text "true"]], 3⟩
    let tree := treeOf "eq" "' OR $1 = (1); --"
    let other := treeOf "EQ" "short"
    let fragment := fragmentOf "' OR $1 = (1); --"
    let otherFragment := fragmentOf "short"
    ∃ schema, Schema.build "films" fields = .ok schema ∧
      Settings.standard.compile schema tree 0 = .ok fragment ∧
      tree.Related Filter.AsksSame other ∧
      Settings.standard.compile schema other 0 = .ok otherFragment ∧
      (otherFragment.sql = fragment.sql ∧ otherFragment.next = fragment.next ∧
        otherFragment.params.length = fragment.params.length) ∧
      PlainText fragment.sql ∧
      ∀ w, Token.word w ∈ tokens fragment.sql →
        w ∈ ownWords ∨ ∃ f ∈ tree.leaves, ∃ d, schema.field? f.field = some d ∧ d.column = w := by
  intro fields treeOf fragmentOf tree other fragment otherFragment
  obtain ⟨schema, built, compiled, otherCompiled⟩ :
      ∃ schema, Schema.build "films" fields = .ok schema ∧
        Settings.standard.compile schema tree 0 = .ok fragment ∧
        Settings.standard.compile schema other 0 = .ok otherFragment := by
    subst otherFragment fragment other tree fragmentOf treeOf fields
    exact ⟨_, rfl, rfl, rfl⟩
  have same : tree.Related Filter.AsksSame other :=
    ⟨rfl, .cons ⟨rfl, by decide +kernel⟩ .nil,
      ⟨rfl, .cons ⟨rfl, by decide +kernel⟩ .nil, trivial⟩, trivial⟩
  obtain ⟨independent, plain, known⟩ := compile_independent compiled
  exact ⟨schema, built, compiled, same, otherCompiled,
    independent other otherFragment same otherCompiled, plain, known⟩

end Sql
end Sieve
