import Mathlib.Data.List.SplitBy
import Sieve.Proofs.Schema.Column
import Sieve.Sql.Fragment

/-! SQL text as a sequence of tokens. A scan cuts a text into lexemes, the longest runs of
characters that belong together, and collects what each of them stands for. -/
namespace Sieve.Sql

def isWordChar (c : Char) : Bool :=
  isColumnChar c || c == '$'

theorem isWordChar_of_isColumn {column : String} (sound : isColumn column = true) {c : Char}
    (member : c ∈ column.toList) : isWordChar c = true := by
  unfold isWordChar
  rw [isColumnChar_of_isColumn sound member, Bool.true_or]

def isSignChar (c : Char) : Bool :=
  c == '=' || c == '!' || c == '<' || c == '>'

/-- Whether neighbours belong to one lexeme. Any other character is a lexeme by itself. -/
def joins (c d : Char) : Bool :=
  isWordChar c && isWordChar d || isSignChar c && isSignChar d

def lexemes (s : List Char) : List (List Char) :=
  s.splitBy joins

def placeNumber? : List Char → Option Nat
  | '$' :: digits =>
    if digits.isEmpty || !digits.all Char.isDigit then none else some (Text.ofDigits digits)
  | _ => none

inductive Token where
  | opening
  | closing
  | place (n : Nat)
  | word (s : String)
  deriving DecidableEq

namespace Token

def ofLexeme (lexeme : List Char) : List Token :=
  match placeNumber? lexeme with
  | some n => [place n]
  | none =>
    if lexeme = [' '] then []
    else if lexeme = ['('] then [opening]
    else if lexeme = [')'] then [closing]
    else [word (String.ofList lexeme)]

def place? : Token → Option Nat
  | place n => some n
  | _ => none

end Token

def scan {α : Type} (meaning : List Char → List α) (text : String) : List α :=
  (lexemes text.toList).flatMap meaning

def tokens (text : String) : List Token :=
  scan Token.ofLexeme text

def places (text : String) : List Nat :=
  (tokens text).filterMap Token.place?

def raisedLexeme (amount : Nat) (lexeme : List Char) : List Char :=
  match placeNumber? lexeme with
  | some n => (placeholder (n + amount)).toList
  | none => lexeme

def raised (amount : Nat) (text : String) : String :=
  String.ofList (scan (raisedLexeme amount) text)

def isDelimiter (c : Char) : Bool :=
  !isWordChar c && !isSignChar c

theorem joins_left {c : Char} (delimiter : isDelimiter c = true) (d : Char) : joins c d = false := by
  simp only [isDelimiter, Bool.and_eq_true, Bool.not_eq_true'] at delimiter
  simp only [joins, delimiter, Bool.false_and, Bool.or_self]

theorem joins_right {d : Char} (delimiter : isDelimiter d = true) (c : Char) :
    joins c d = false := by
  simp only [isDelimiter, Bool.and_eq_true, Bool.not_eq_true'] at delimiter
  simp only [joins, delimiter, Bool.and_false, Bool.or_self]

section Scan

variable {α : Type} (meaning : List Char → List α)

theorem scan_append {s t : String}
    (apart : ∀ c ∈ s.toList.getLast?, ∀ d ∈ t.toList.head?, joins c d = false) :
    scan meaning (s ++ t) = scan meaning s ++ scan meaning t := by
  rw [scan, String.toList_append, lexemes, List.splitBy_append apart, List.flatMap_append]
  rfl

/-- A text that ends in a delimiter is scanned apart from what follows. -/
theorem scan_append_left {s : String} (t : String)
    (ended : s.toList.getLast?.any isDelimiter = true) :
    scan meaning (s ++ t) = scan meaning s ++ scan meaning t := by
  apply scan_append
  intro c last d _
  rw [Option.mem_def.mp last] at ended
  exact joins_left ended d

theorem scan_append_right (s : String) {t : String}
    (begun : t.toList.head?.any isDelimiter = true) :
    scan meaning (s ++ t) = scan meaning s ++ scan meaning t := by
  apply scan_append
  intro c _ d first
  rw [Option.mem_def.mp first] at begun
  exact joins_right begun c

theorem scan_between (s : String) {d : String} (t : String)
    (begun : d.toList.head?.any isDelimiter = true)
    (ended : d.toList.getLast?.any isDelimiter = true) :
    scan meaning (s ++ d ++ t) = scan meaning s ++ scan meaning d ++ scan meaning t := by
  rw [scan_append_left, scan_append_right meaning s begun]
  rw [String.toList_append, List.getLast?_append]
  cases last : d.toList.getLast? with
  | none => simp [last] at ended
  | some c =>
    rw [last] at ended
    exact ended

/-- A run of characters that belong together is one lexeme. -/
theorem scan_word {s : String} (nonempty : s.toList ≠ [])
    (word : ∀ c ∈ s.toList, isWordChar c = true) : scan meaning s = meaning s.toList := by
  have chain : s.toList.IsChain fun c d => joins c d = true := by
    apply List.Pairwise.isChain
    apply List.pairwise_of_forall_mem_list
    intro c inText d inText'
    simp only [joins, word c inText, word d inText', Bool.and_self, Bool.true_or]
  rw [scan, lexemes, List.splitBy_of_isChain nonempty chain, List.flatMap_singleton]

end Scan
end Sieve.Sql
