import Sieve.Text.CaseTable
import Sieve.Text.Ranges

/-! Lower case of whole texts. A character may become two, and a capital sigma takes its final
form where it ends a word. -/
namespace Sieve.Text

def lowerChar (c : Char) : List Char :=
  if c.toNat < 65 then [c]
  else if c.toNat = 0x130 then ['i', Char.ofNat 0x307]
  else match lowerRuns.find? fun run =>
      run.first ≤ c.toNat && c.toNat ≤ run.last && (c.toNat - run.first) % run.step == 0 with
    | some run => [Char.ofNat (c.toNat + run.shift).toNat]
    | none => [c]

def isCased (c : Char) : Bool :=
  inRanges casedRanges c

def isCaseIgnorable (c : Char) : Bool :=
  inRanges caseIgnorableRanges c

/-- Whether the first character that is not ignorable is cased: said of what follows a position,
or of what precedes it read backwards. -/
def meetsCased (s : List Char) : Bool :=
  match s.dropWhile isCaseIgnorable with
  | [] => false
  | c :: _ => isCased c

def capitalSigma : Char :=
  Char.ofNat 0x3A3

/-- A sigma is final when a cased letter precedes it and none follows, case-ignorable characters
passed over on both sides. -/
def lowerSigma (before after : List Char) : Char :=
  if meetsCased before && !meetsCased after then Char.ofNat 0x3C2 else Char.ofNat 0x3C3

def lowerAfter (before : List Char) : List Char → List Char
  | [] => []
  | c :: rest =>
    (if c = capitalSigma then [lowerSigma before rest] else lowerChar c) ++
      lowerAfter (c :: before) rest

def lower (s : List Char) : List Char :=
  lowerAfter [] s

end Sieve.Text
