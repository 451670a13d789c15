import AtTemplate.Code.Group
import AtTemplate.Scan.State
import AtTemplate.Text.Blank

/-!
# AtTemplate.Scan.Clause

Opening and closing blocks of code.  A clause is copied through the brace that opens its
body.  When a block is closed, a word that continues its statement opens the next clause at
once.
-/

namespace AtTemplate.Scan

open Code Text

namespace State

/-- Copies a clause through the brace that opens its body, and enters its block. -/
def enterClause (keyword : Keyword) (brace : Cursor) (s : State) : Move :=
  let body := brace.advance 1
  ⟨[.header (s.cursor.textTo body)],
    ⟨body, s.stack.push (.block (.opened s.cursor.offset (some keyword)))⟩⟩

@[simp] theorem frames_enterClause (keyword : Keyword) (brace : Cursor) (s : State) :
    (s.enterClause keyword brace).state.frames =
      .block (.opened s.cursor.offset (some keyword)) :: s.frames := rfl

@[simp] theorem cursor_enterClause (keyword : Keyword) (brace : Cursor) (s : State) :
    (s.enterClause keyword brace).state.cursor = brace.advance 1 := rfl

/-- The brace that opens the body of the clause whose keyword stands at the cursor. -/
def clauseBody (keyword : Keyword) (s : State) : Except TemplateError Cursor :=
  let header := s.cursor.advance keyword.letters.length
  findBody (s.cursor.spanTo header) header

/-- The brace that opens the body of a clause lies behind its keyword. -/
theorem reaches_of_clauseBody {s : State} {keyword : Keyword} {brace : Cursor}
    (h : s.clauseBody keyword = .ok brace) :
    (s.cursor.advance keyword.letters.length).Reaches brace ∧ StandsAt .braceOpen brace :=
  reaches_of_findBody h

/-- A clause that is entered is left behind, with the brace of its body. -/
theorem reaches_enterClause {s : State} {keyword : Keyword} {brace : Cursor}
    (h : s.clauseBody keyword = .ok brace) :
    s.cursor.Reaches (s.enterClause keyword brace).state.cursor :=
  ((Cursor.reaches_advance _ _).trans (reaches_of_clauseBody h).1).trans
    (Cursor.reaches_advance _ _)

/-- The text of a clause, from its keyword through the brace that opens its body. -/
theorem textTo_of_clauseBody {s : State} {keyword : Keyword} {brace : Cursor}
    (hk : takeName s.rest = keyword.letters) (h : s.clauseBody keyword = .ok brace) :
    s.cursor.textTo (brace.advance 1) =
      keyword.letters ++ ((s.cursor.advance keyword.letters.length).textTo brace ++ ['{']) := by
  obtain ⟨hreach, hstands⟩ := reaches_of_clauseBody h
  obtain ⟨rest, hr⟩ := rest_of_standsAt (x := '{') rfl hstands
  have hkeyword : s.cursor.rest.take keyword.letters.length = keyword.letters := by
    rw [← hk]
    exact (List.prefix_iff_eq_take.1 ⟨_, takeName_append_drop s.rest⟩).symm
  rw [← (Cursor.reaches_advance _ _).textTo_append (hreach.trans (Cursor.reaches_advance 1 brace)),
    ← hreach.textTo_append (Cursor.reaches_advance 1 brace), Cursor.textTo_advance, hkeyword]
  simp [hr]

/-- Opens the block of the clause whose keyword stands at the cursor. -/
def openClause (keyword : Keyword) (s : State) : Outcome :=
  match s.clauseBody keyword with
  | .error e => .error e
  | .ok brace => .ok (s.enterClause keyword brace)

/-- Goes on with the statement of a clause that has just been closed, when the next word
continues it and heads a clause of its own. -/
def continueClause (keyword : Keyword) (s : State) : Outcome :=
  let blanks := leadingBlanks s.rest
  let word := takeName (trimStart s.rest)
  match Keyword.ofLetters? word with
  | none => .ok (.stay s)
  | some next =>
    if keyword.continuedBy next && next.headsClause ((trimStart s.rest).drop word.length) then
      ((s.skip blanks.length).openClause next).precede [.blanks blanks]
    else .ok (.stay s)

/-- Goes on after a block that has just been closed. -/
def afterBlock (block : BlockFrame) (s : State) : Outcome :=
  match block.clause? with
  | none => .ok (.stay s)
  | some keyword => s.continueClause keyword

/-- Closes the innermost frame, a block whose last brace has just been read. -/
def closeBlock (recover : Recovery) (s : State) : Outcome :=
  match s.frames with
  | .block block :: below => (s.within below).afterBlock block
  | _ => recover (.ok (.stay s.dropFrame))

/-- Closes the innermost block, whatever is open in it, with the braces that it lacks.  What
lies in the block has to be finished.  Outside of any block nothing is closed, and the two
characters are text. -/
def closeInnermost (s : State) : Outcome :=
  match FrameStack.splitAtBlock? s.frames with
  | none => .ok ⟨[.text ['@', '}']], s.skip 2⟩
  | some (above, block, below) =>
    match above.findSome? Frame.unclosed? with
    | some e => .error e
    | none =>
      .ok ⟨[.closing (max 1 block.balance.braces.toNat)], (s.skip 2).within below⟩

end State

end AtTemplate.Scan
