import Sieve.Text.Lowercase

/-! Text patterns: a percent sign stands for any run of characters, an underscore for any one
character, and a backslash makes the next character stand for itself. -/
namespace Sieve.Pattern

inductive Token where
  | literal (c : Char)
  | anyOne
  | anyMany
  deriving DecidableEq

/-- The places of a pattern; a backslash at its end stands for itself. -/
def tokens : List Char → List Token
  | [] => []
  | '\\' :: c :: rest => .literal c :: tokens rest
  | c :: rest =>
    (if c = '%' then .anyMany else if c = '_' then .anyOne else .literal c) :: tokens rest

def fromMarked (seen : Bool) : List Bool → List Bool
  | [] => []
  | mark :: rest => (seen || mark) :: fromMarked (seen || mark) rest

/-- Moves the marks of the positions that a pattern can reach in a text past one more place. The
positions are those before each character and the one at the end. -/
def advance (text : List Char) (marks : List Bool) : Token → List Bool
  | .anyMany => fromMarked false marks
  | .anyOne => false :: marks.take text.length
  | .literal c => false :: List.zipWith (fun mark d => mark && d == c) marks text

def startMarks (text : List Char) : List Bool :=
  true :: List.replicate text.length false

def accepts (pattern : List Token) (text : List Char) : Bool :=
  ((pattern.foldl (advance text) (startMarks text)).getLast?).getD false

def matchesText (pattern text : List Char) : Bool :=
  accepts (tokens pattern) text

def matchesLower (pattern text : List Char) : Bool :=
  matchesText (Text.lower pattern) (Text.lower text)

def occursIn (needle : List Char) : List Char → Bool
  | [] => needle.isEmpty
  | c :: rest => needle.isPrefixOf (c :: rest) || occursIn needle rest

def occursInLower (needle text : List Char) : Bool :=
  occursIn (Text.lower needle) (Text.lower text)

def isSpecial (c : Char) : Bool :=
  c == '\\' || c == '%' || c == '_'

def escape : List Char → List Char
  | [] => []
  | c :: rest => if isSpecial c then '\\' :: c :: escape rest else c :: escape rest

def containing (s : List Char) : List Char :=
  '%' :: escape s ++ ['%']

def escapeText (s : String) : String :=
  String.ofList (escape s.toList)

def containingText (s : String) : String :=
  String.ofList (containing s.toList)

end Sieve.Pattern
