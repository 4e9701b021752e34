import Mathlib.Data.Nat.Basic

set_option autoImplicit false

/-!
# Text methods

Whitespace and line boundaries of Unicode text, and the methods of texts that
split and trim by them.
-/
namespace Shapeflow.Unicode

instance charsLawfulBEq : LawfulBEq (List Char) := inferInstance

/-- `c.isspace()` -/
def isSpaceCode (n : ℕ) : Bool :=
  (9 ≤ n ∧ n ≤ 13) ∨ (28 ≤ n ∧ n ≤ 32) ∨ (8192 ≤ n ∧ n ≤ 8202) ∨
    n ∈ [133, 160, 5760, 8232, 8233, 8239, 8287, 12288]

def isSpace (c : Char) : Bool := isSpaceCode c.toNat

/-- The characters `splitlines` ends a line at. -/
def isLineBreak (c : Char) : Bool := c.toNat ∈ [10, 11, 12, 13, 28, 29, 30, 133, 8232, 8233]

/-- `text.strip()` -/
def strip (cs : List Char) : List Char := ((cs.dropWhile isSpace).reverse.dropWhile isSpace).reverse

/-- `text.splitlines()`, the line read so far reversed. -/
def linesFrom : List Char → List Char → List (List Char)
  | line, [] => if line = [] then [] else [line.reverse]
  | line, '\r' :: '\n' :: r => line.reverse :: linesFrom [] r
  | line, c :: r => if isLineBreak c then line.reverse :: linesFrom [] r else linesFrom (c :: line) r

def splitLines (cs : List Char) : List (List Char) := linesFrom [] cs

/-- `text.split()`, the word read so far reversed. -/
def wordsFrom : List Char → List Char → List (List Char)
  | word, [] => if word = [] then [] else [word.reverse]
  | word, c :: r =>
    if isSpace c then if word = [] then wordsFrom [] r else word.reverse :: wordsFrom [] r
    else wordsFrom (c :: word) r

def words (cs : List Char) : List (List Char) := wordsFrom [] cs

/-- `" ".join(words)` -/
def joinWords (ws : List (List Char)) : List Char := [' '].intercalate ws

/-- The text after the first occurrence of a separator. -/
def afterFirst (separator : List Char) : List Char → Option (List Char)
  | [] => none
  | c :: r => if separator.isPrefixOf (c :: r) then some ((c :: r).drop separator.length) else afterFirst separator r

end Shapeflow.Unicode
