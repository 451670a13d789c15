import AtTemplate.Name
import AtTemplate.Text.Blank

/-!
# AtTemplate.Directive.Keyword

The keywords of the clauses that have a block of code: which of them begin a statement, which
continue one, and when the word after a block is meant as a clause rather than as prose.
-/

namespace AtTemplate

open Text

/-- The keywords of clauses. -/
inductive Keyword where
  | ifKeyword
  | elseKeyword
  | forKeyword
  | whileKeyword
  | tryKeyword
  | catchKeyword
  | finallyKeyword
  | functionKeyword
  deriving DecidableEq, Repr

namespace Keyword

/-- All keywords. -/
def all : List Keyword :=
  [.ifKeyword, .elseKeyword, .forKeyword, .whileKeyword, .tryKeyword, .catchKeyword,
    .finallyKeyword, .functionKeyword]

/-- The letters of a keyword. -/
def letters : Keyword → List Char
  | .ifKeyword => ['i', 'f']
  | .elseKeyword => ['e', 'l', 's', 'e']
  | .forKeyword => ['f', 'o', 'r']
  | .whileKeyword => ['w', 'h', 'i', 'l', 'e']
  | .tryKeyword => ['t', 'r', 'y']
  | .catchKeyword => ['c', 'a', 't', 'c', 'h']
  | .finallyKeyword => ['f', 'i', 'n', 'a', 'l', 'l', 'y']
  | .functionKeyword => ['f', 'u', 'n', 'c', 't', 'i', 'o', 'n']

/-- The keyword with these letters. -/
def ofLetters? (word : List Char) : Option Keyword :=
  all.find? (·.letters = word)

theorem mem_all (k : Keyword) : k ∈ all := by
  cases k <;> decide

@[simp] theorem ofLetters?_letters (k : Keyword) : ofLetters? k.letters = some k := by
  cases k <;> decide

theorem letters_ne_nil (k : Keyword) : k.letters ≠ [] := by
  cases k <;> nofun

/-- A word is a keyword exactly when it has the letters of one. -/
theorem ofLetters?_eq_some_iff {word : List Char} {k : Keyword} :
    ofLetters? word = some k ↔ k.letters = word := by
  constructor
  · intro h
    simpa using List.find?_some h
  · rintro rfl
    simp

/-- Whether the keyword begins a statement; the others continue one. -/
def startsBlock : Keyword → Bool
  | .ifKeyword | .forKeyword | .whileKeyword | .tryKeyword | .functionKeyword => true
  | .elseKeyword | .catchKeyword | .finallyKeyword => false

/-- Whether a block of the first keyword may be followed by a clause of the second. -/
def continuedBy : Keyword → Keyword → Bool
  | .ifKeyword, .elseKeyword => true
  | .elseKeyword, .elseKeyword => true
  | .tryKeyword, .catchKeyword => true
  | .tryKeyword, .finallyKeyword => true
  | .catchKeyword, .finallyKeyword => true
  | _, _ => false

/-- Whether the text after a keyword reads as the head of its clause, and not as prose that
happens to begin with the word. -/
def headsClause (k : Keyword) (after : List Char) : Bool :=
  let after := trimStart after
  match k with
  | .elseKeyword => after.head? = some '{' ∨ takeName after = letters .ifKeyword
  | .catchKeyword => after.head? = some '(' ∨ after.head? = some '{'
  | .finallyKeyword => after.head? = some '{'
  | _ => true

end Keyword

end AtTemplate
