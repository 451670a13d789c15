/-!
# AtTemplate.Segment

What a template consists of: literal text, expressions and code, in the order of the source.
Neighbouring texts are one segment, and so is neighbouring code; an expression always stands
alone.
-/

namespace AtTemplate

/-- One part of a template. -/
inductive Segment where
  /-- Text that is written as it is. -/
  | literal (text : String)
  /-- An expression whose value is written. -/
  | expression (text : String)
  /-- Statements that are carried out. -/
  | code (text : String)
  deriving DecidableEq, Repr

/-- The source text of a segment. -/
def Segment.text : Segment → String
  | .literal text | .expression text | .code text => text

/-- The segments written so far, the last one first. -/
structure Segments where
  newestFirst : List Segment
  deriving DecidableEq, Repr

namespace Segments

/-- Nothing is written. -/
def empty : Segments :=
  ⟨[]⟩

/-- Writes literal text, at the end of the last segment if that is literal text too. -/
def addLiteral (s : Segments) (text : String) : Segments :=
  if text.isEmpty then s
  else
    match s with
    | ⟨.literal last :: segments⟩ => ⟨.literal (last ++ text) :: segments⟩
    | ⟨segments⟩ => ⟨.literal text :: segments⟩

/-- Writes code, at the end of the last segment if that is code too. -/
def addCode (s : Segments) (text : String) : Segments :=
  if text.isEmpty then s
  else
    match s with
    | ⟨.code last :: segments⟩ => ⟨.code (last ++ text) :: segments⟩
    | ⟨segments⟩ => ⟨.code text :: segments⟩

/-- Writes an expression. -/
def addExpression (s : Segments) (text : String) : Segments :=
  ⟨.expression text :: s.newestFirst⟩

/-- Writes a segment behind the others. -/
def add (s : Segments) : Segment → Segments
  | .literal text => s.addLiteral text
  | .expression text => s.addExpression text
  | .code text => s.addCode text

/-- Writes several segments in order. -/
def addAll (s : Segments) (pieces : List Segment) : Segments :=
  pieces.foldl add s

/-- The number of segments. -/
def size (s : Segments) : Nat :=
  s.newestFirst.length

/-- Whether nothing is written. -/
def isEmpty (s : Segments) : Bool :=
  s.newestFirst.isEmpty

/-- The segments in the order of the source. -/
def toList (s : Segments) : List Segment :=
  s.newestFirst.reverse

/-- Pieces of a template joined to segments. -/
def ofPieces (pieces : List Segment) : List Segment :=
  (empty.addAll pieces).toList

@[simp] theorem addAll_nil (s : Segments) : s.addAll [] = s := rfl

@[simp] theorem addAll_cons (s : Segments) (piece : Segment) (pieces : List Segment) :
    s.addAll (piece :: pieces) = (s.add piece).addAll pieces := rfl

theorem addAll_append (s : Segments) (p q : List Segment) :
    s.addAll (p ++ q) = (s.addAll p).addAll q :=
  List.foldl_append

/-! ## joined segments -/

/-- Text is joined to the last segment or becomes a segment of its own. -/
theorem addLiteral_cases {text : String} (segments : List Segment) (ht : text ≠ "") :
    (∃ last rest, segments = .literal last :: rest ∧
      addLiteral ⟨segments⟩ text = ⟨.literal (last ++ text) :: rest⟩) ∨
    addLiteral ⟨segments⟩ text = ⟨.literal text :: segments⟩ := by
  cases segments with
  | nil => simp [addLiteral, ht]
  | cons last segments => cases last <;> simp [addLiteral, ht]

/-- Code is joined to the last segment or becomes a segment of its own. -/
theorem addCode_cases {text : String} (segments : List Segment) (ht : text ≠ "") :
    (∃ last rest, segments = .code last :: rest ∧
      addCode ⟨segments⟩ text = ⟨.code (last ++ text) :: rest⟩) ∨
    addCode ⟨segments⟩ text = ⟨.code text :: segments⟩ := by
  cases segments with
  | nil => simp [addCode, ht]
  | cons last segments => cases last <;> simp [addCode, ht]

/-- Texts that are written one after the other are written as one. -/
theorem addLiteral_addLiteral (s : Segments) (a b : String) :
    (s.addLiteral a).addLiteral b = s.addLiteral (a ++ b) := by
  obtain ⟨segments⟩ := s
  by_cases ha : a = ""
  · simp [addLiteral, ha]
  · by_cases hb : b = ""
    · simp [addLiteral, hb]
    · cases segments with
      | nil => simp [addLiteral, ha, hb]
      | cons last segments =>
        cases last <;> simp [addLiteral, ha, hb, String.append_assoc]

/-- Code that is written piece by piece is written as one. -/
theorem addCode_addCode (s : Segments) (a b : String) :
    (s.addCode a).addCode b = s.addCode (a ++ b) := by
  obtain ⟨segments⟩ := s
  by_cases ha : a = ""
  · simp [addCode, ha]
  · by_cases hb : b = ""
    · simp [addCode, hb]
    · cases segments with
      | nil => simp [addCode, ha, hb]
      | cons last segments =>
        cases last <;> simp [addCode, ha, hb, String.append_assoc]

@[simp] theorem addAll_toList_cons (s : Segments) (last : Segment) (segments : List Segment) :
    s.addAll (toList ⟨last :: segments⟩) = (s.addAll (toList ⟨segments⟩)).add last := by
  simp [toList, addAll_append]

/-- Segments that another piece is joined to may be written first. -/
theorem addAll_toList_add (s t : Segments) (piece : Segment) :
    s.addAll (t.add piece).toList = (s.addAll t.toList).add piece := by
  obtain ⟨segments⟩ := t
  cases piece with
  | literal text =>
    by_cases ht : text = ""
    · simp [add, addLiteral, ht]
    · obtain ⟨last, rest, rfl, h⟩ | h := addLiteral_cases segments ht
      · simp only [add, h, addAll_toList_cons, addLiteral_addLiteral]
      · simp only [add, h, addAll_toList_cons]
  | expression text => simp [add, addExpression]
  | code text =>
    by_cases ht : text = ""
    · simp [add, addCode, ht]
    · obtain ⟨last, rest, rfl, h⟩ | h := addCode_cases segments ht
      · simp only [add, h, addAll_toList_cons, addCode_addCode]
      · simp only [add, h, addAll_toList_cons]

/-- **Pieces that are joined already are written like the pieces themselves.** -/
theorem addAll_toList_addAll (s t : Segments) (pieces : List Segment) :
    s.addAll (t.addAll pieces).toList = (s.addAll t.toList).addAll pieces := by
  induction pieces generalizing t with
  | nil => rfl
  | cons piece pieces ih => rw [addAll_cons, ih, addAll_toList_add, addAll_cons]

/-- Segments are added as the pieces that they are made of. -/
theorem addAll_ofPieces (s : Segments) (pieces : List Segment) :
    s.addAll (ofPieces pieces) = s.addAll pieces :=
  addAll_toList_addAll s empty pieces

/-- Segments that are put together again are the same. -/
@[simp] theorem ofPieces_ofPieces (pieces : List Segment) :
    ofPieces (ofPieces pieces) = ofPieces pieces :=
  congrArg toList (addAll_ofPieces empty pieces)

end Segments

end AtTemplate
