import AtTemplate.Scan.Piece
import Mathlib.Data.List.SplitBy

/-!
# AtTemplate.Proofs.Parts

Which pieces make up a segment.  Segments are joined piece by piece as a scan writes them; `parts`
divides the pieces of a whole scan at once.

* `ofPieces_eq` — the segments are the parts, each joined;
* `flatMap_chars_ofPieces`, `filterMap_expression?_ofPieces` — no text and no expression is lost
  as pieces are joined;
* `ofPieces_append_expression` — an expression stands between what is written before and behind it.
-/

namespace AtTemplate

/-- The characters of a segment. -/
def Segment.chars (g : Segment) : List Char :=
  g.text.toList

/-- The expression that a segment is. -/
def Segment.expression? : Segment → Option (List Char)
  | .expression text => some text.toList
  | _ => none

/-! ## expressions among segments -/

namespace Segments

variable {below before after : List Segment} {text : String}

/-- Nothing that is written later is joined to what lies before an expression. -/
theorem add_above_expression (above : List Segment) (p : Segment) :
    add ⟨above ++ .expression text :: below⟩ p =
      ⟨(add ⟨above⟩ p).newestFirst ++ .expression text :: below⟩ := by
  cases p with
  | expression => rfl
  | literal =>
    unfold add addLiteral
    simp only
    split
    · rfl
    · cases above with
      | nil => rfl
      | cons last above => cases last <;> rfl
  | code =>
    unfold add addCode
    simp only
    split
    · rfl
    · cases above with
      | nil => rfl
      | cons last above => cases last <;> rfl

/-- What stands before an expression is not touched by what is added behind it. -/
theorem addAll_above_expression (above pieces : List Segment) :
    addAll ⟨above ++ .expression text :: below⟩ pieces =
      ⟨(addAll ⟨above⟩ pieces).newestFirst ++ .expression text :: below⟩ := by
  induction pieces generalizing above with
  | nil => rfl
  | cons p pieces ih =>
    rw [addAll_cons, add_above_expression, ih]
    rfl

/-- **An expression stands alone**: what is written before it and what is written behind it are
joined each on its own. -/
theorem ofPieces_append_expression :
    ofPieces (before ++ .expression text :: after) =
      ofPieces before ++ .expression text :: ofPieces after := by
  have hafter : addAll ⟨.expression text :: (empty.addAll before).newestFirst⟩ after =
      ⟨(empty.addAll after).newestFirst ++
        .expression text :: (empty.addAll before).newestFirst⟩ :=
    addAll_above_expression [] after
  unfold ofPieces
  rw [addAll_append, addAll_cons]
  show toList (addAll ⟨.expression text :: _⟩ after) = _
  rw [hafter]
  simp [toList]

end Segments

namespace Scan

namespace Piece

/-- Whether a piece is text. -/
def isText : Piece → Bool
  | .text _ => true
  | _ => false

/-- Whether a piece is an expression. -/
def isExpression : Piece → Bool
  | .expression _ => true
  | _ => false

/-- The expression that a piece is. -/
def expression? : Piece → Option (List Char)
  | .expression chars => some chars
  | _ => none

/-- Whether a piece is code. -/
def isCode (p : Piece) : Bool :=
  !p.isText && !p.isExpression

/-- Whether two neighbouring pieces are in one segment. -/
def joins (p q : Piece) : Bool :=
  p.isText && q.isText || p.isCode && q.isCode

/-- Whether a piece leaves no trace: it is empty, and no expression. -/
def isVoid (p : Piece) : Bool :=
  p.chars.isEmpty && !p.isExpression

/-- A piece that leaves no trace is empty. -/
theorem chars_of_isVoid {p : Piece} (h : p.isVoid = true) : p.chars = [] := by
  simp only [isVoid, Bool.and_eq_true, List.isEmpty_iff] at h
  exact h.1

/-- Only pieces of text or pieces of code are in one segment. -/
theorem kind_of_joins {p q : Piece} (h : p.joins q = true) :
    p.isText = true ∧ q.isText = true ∨ p.isCode = true ∧ q.isCode = true := by
  simpa [joins] using h

theorem expression?_of_isText {p : Piece} (h : p.isText = true) : p.expression? = none := by
  cases p <;> first | rfl | cases h

theorem expression?_of_isCode {p : Piece} (h : p.isCode = true) : p.expression? = none := by
  cases p <;> first | rfl | cases h

end Piece

/-- The pieces that leave a trace, divided into those of one segment each. -/
def parts (pieces : List Piece) : List (List Piece) :=
  (pieces.filter (!·.isVoid)).splitBy Piece.joins

/-- The segment that the pieces of a part make up.  Any of them says of which kind it is. -/
def join (part : List Piece) : Segment :=
  let text := String.ofList (part.flatMap Piece.chars)
  match part.getLast? with
  | some (.text _) => .literal text
  | some (.expression _) => .expression text
  | _ => .code text

variable {part : List Piece}

/-- A part has the characters of its pieces. -/
theorem chars_join (part : List Piece) : (join part).chars = part.flatMap Piece.chars := by
  unfold join
  simp only
  split <;> simp [Segment.chars, Segment.text]

/-! ## the parts of a scan -/

/-- A piece that leaves no trace adds nothing. -/
theorem add_of_isVoid {p : Piece} (w : Segments) (h : p.isVoid = true) :
    w.add p.segment = w := by
  have hc := Piece.chars_of_isVoid h
  cases p with
  | expression => simp [Piece.isVoid, Piece.isExpression] at h
  | _ => simp [Piece.segment, hc, Segments.add, Segments.addLiteral, Segments.addCode]

/-- A piece is joined to the pieces before it, or it begins a segment. -/
theorem add_segment {q : Piece} (g : List Piece) (p : Piece) (segments : List Segment)
    (hq : q.isVoid = false) :
    Segments.add ⟨join (p :: g).reverse :: segments⟩ q.segment =
      if p.joins q then ⟨join (q :: p :: g).reverse :: segments⟩
      else ⟨join [q] :: join (p :: g).reverse :: segments⟩ := by
  have hne (he : q.isExpression = false) : q.chars ≠ [] := by simpa [Piece.isVoid, he] using hq
  cases q with
  | expression chars =>
    cases p <;> simp [Segments.add, Segments.addExpression, Piece.segment, Piece.joins,
      Piece.isText, Piece.isCode, Piece.isExpression, join]
  | text chars =>
    have hc := hne rfl
    cases p <;> simp [Segments.add, Segments.addLiteral, Piece.segment, Piece.joins,
      Piece.isText, Piece.isCode, Piece.isExpression, join, hc, String.ofList_append,
      String.append_assoc]
  | _ =>
    have hc := hne rfl
    cases p <;> simp [Segments.add, Segments.addCode, Piece.segment, Piece.joins,
      Piece.isText, Piece.isCode, Piece.isExpression, join, hc, String.ofList_append,
      String.append_assoc]

/-- The first piece is a segment of its own. -/
theorem add_empty_segment {p : Piece} (hp : p.isVoid = false) :
    Segments.empty.add p.segment = ⟨[join [p]]⟩ := by
  cases p <;> simp_all [Segments.empty, Segments.add, Segments.addLiteral, Segments.addCode,
    Segments.addExpression, Piece.segment, Piece.isVoid, Piece.isExpression, join]

/-- The segments are the parts that the pieces divide into, by induction on the pieces; the newest
part is still open. -/
theorem addAll_segment (pieces : List Piece) (p : Piece) (g : List Piece) (gs : List (List Piece)) :
    (Segments.addAll ⟨join (p :: g).reverse :: gs.map join⟩ (pieces.map Piece.segment)).toList =
      (List.splitBy.loop Piece.joins (pieces.filter (!·.isVoid)) p g gs).map join := by
  induction pieces generalizing p g gs with
  | nil => simp [Segments.toList, List.splitBy.loop]
  | cons q pieces ih =>
    rw [List.map_cons, Segments.addAll_cons]
    by_cases hq : q.isVoid = true
    · rw [add_of_isVoid _ hq, List.filter_cons_of_neg (by simp [hq])]
      exact ih p g gs
    · have hq : q.isVoid = false := by simpa using hq
      rw [add_segment g p _ hq, List.filter_cons_of_pos (by simp [hq]), List.splitBy.loop]
      split
      · next h => rw [h]; exact ih q (p :: g) gs
      · next h =>
        rw [Bool.eq_false_iff.2 h]
        exact ih q [] ((p :: g).reverse :: gs)

/-- **The segments of a scan are the parts of its pieces, each joined.** -/
theorem ofPieces_eq (pieces : List Piece) :
    Segments.ofPieces (pieces.map Piece.segment) = (parts pieces).map join := by
  induction pieces with
  | nil => rfl
  | cons p pieces ih =>
    unfold Segments.ofPieces parts at ih ⊢
    rw [List.map_cons, Segments.addAll_cons]
    by_cases hp : p.isVoid = true
    · rw [add_of_isVoid _ hp, List.filter_cons_of_neg (by simp [hp])]
      exact ih
    · have hp : p.isVoid = false := by simpa using hp
      rw [add_empty_segment hp, List.filter_cons_of_pos (by simp [hp])]
      exact addAll_segment pieces p [] []

/-! ## what is in a part -/

/-- Neighbours that are in one segment are all text or all code. -/
theorem kind_of_isChain {p : Piece} (h : (p :: part).IsChain (Piece.joins · ·)) :
    part = [] ∨ (∀ q ∈ p :: part, q.isText = true) ∨ ∀ q ∈ p :: part, q.isCode = true := by
  induction part generalizing p with
  | nil => exact .inl rfl
  | cons q part ih =>
    obtain ⟨hpq, hrest⟩ := List.isChain_cons_cons.1 h
    have hkind := Piece.kind_of_joins hpq
    obtain rfl | ht | hc := ih hrest
    · obtain ⟨hp, hq⟩ | ⟨hp, hq⟩ := hkind
      · exact .inr (.inl (by simp [hp, hq]))
      · exact .inr (.inr (by simp [hp, hq]))
    · refine .inr (.inl (List.forall_mem_cons.2 ⟨?_, ht⟩))
      have hq := ht q List.mem_cons_self
      obtain ⟨hp, -⟩ | ⟨-, hqc⟩ := hkind
      · exact hp
      · simp [Piece.isCode, hq] at hqc
    · refine .inr (.inr (List.forall_mem_cons.2 ⟨?_, hc⟩))
      have hq := hc q List.mem_cons_self
      obtain ⟨-, hqt⟩ | ⟨hp, -⟩ := hkind
      · simp [Piece.isCode, hqt] at hq
      · exact hp

/-- A part is one expression, or it is text, or it is code. -/
theorem kind_of_mem_parts {pieces : List Piece} (h : part ∈ parts pieces) :
    (∃ chars, part = [.expression chars]) ∨ (∀ p ∈ part, p.isText = true) ∨
      ∀ p ∈ part, p.isCode = true := by
  obtain ⟨p, rest, rfl⟩ := List.exists_cons_of_ne_nil (List.ne_nil_of_mem_splitBy h)
  obtain rfl | hkind := kind_of_isChain (List.isChain_of_mem_splitBy h)
  · cases p with
    | expression chars => exact .inl ⟨chars, rfl⟩
    | text => exact .inr (.inl (by simp [Piece.isText]))
    | _ => exact .inr (.inr (by simp [Piece.isCode, Piece.isText, Piece.isExpression]))
  · exact .inr hkind

/-- The parts are the pieces that leave a trace. -/
theorem flatten_parts (pieces : List Piece) :
    (parts pieces).flatten = pieces.filter (!·.isVoid) :=
  List.flatten_splitBy _ _

/-- A part without an expression is none. -/
theorem expression?_join_of_forall (h : ∀ p ∈ part, p.expression? = none) :
    (join part).expression? = none := by
  unfold join
  simp only
  split
  · rfl
  · next hl => cases h _ (List.mem_of_getLast? hl)
  · rfl

/-- Joining a part keeps its expression. -/
theorem expression?_join {pieces : List Piece} (h : part ∈ parts pieces) :
    (join part).expression?.toList = part.filterMap Piece.expression? := by
  have hnone (hn : ∀ p ∈ part, p.expression? = none) :
      (join part).expression?.toList = part.filterMap Piece.expression? := by
    rw [expression?_join_of_forall hn, List.filterMap_eq_nil_iff.2 hn]
    rfl
  obtain ⟨chars, rfl⟩ | ht | hc := kind_of_mem_parts h
  · simp [join, Segment.expression?, Piece.expression?, Piece.chars]
  · exact hnone fun p hp => Piece.expression?_of_isText (ht p hp)
  · exact hnone fun p hp => Piece.expression?_of_isCode (hc p hp)

/-- **No text is lost as pieces are joined.** -/
theorem flatMap_chars_ofPieces (pieces : List Piece) :
    (Segments.ofPieces (pieces.map Piece.segment)).flatMap Segment.chars =
      pieces.flatMap Piece.chars := by
  have hvoid : (pieces.filter (!·.isVoid)).flatMap Piece.chars = pieces.flatMap Piece.chars := by
    induction pieces with
    | nil => rfl
    | cons p pieces ih =>
      by_cases hp : p.isVoid = true
      · rw [List.filter_cons_of_neg (by simp [hp]), ih, List.flatMap_cons, Piece.chars_of_isVoid hp]
        rfl
      · rw [List.filter_cons_of_pos (by simp [hp]), List.flatMap_cons, List.flatMap_cons, ih]
  calc (Segments.ofPieces (pieces.map Piece.segment)).flatMap Segment.chars
      = (parts pieces).flatMap fun part => part.flatMap Piece.chars := by
        rw [ofPieces_eq, List.flatMap_map]
        simp only [chars_join]
    _ = (parts pieces).flatten.flatMap Piece.chars := by
        rw [← List.flatMap_id, List.flatMap_assoc]
        rfl
    _ = pieces.flatMap Piece.chars := by rw [flatten_parts, hvoid]

/-- **No expression is lost as pieces are joined**, and each is a segment of its own. -/
theorem filterMap_expression?_ofPieces (pieces : List Piece) :
    (Segments.ofPieces (pieces.map Piece.segment)).filterMap Segment.expression? =
      pieces.filterMap Piece.expression? := by
  have hvoid (p : Piece) : (if !p.isVoid then p.expression? else none) = p.expression? := by
    cases p <;> simp [Piece.isVoid, Piece.isExpression, Piece.expression?]
  calc (Segments.ofPieces (pieces.map Piece.segment)).filterMap Segment.expression?
      = (parts pieces).flatMap fun part => (join part).expression?.toList := by
        rw [ofPieces_eq, List.filterMap_map, List.filterMap_eq_flatMap_toList]
        rfl
    _ = (parts pieces).flatMap fun part => part.filterMap Piece.expression? :=
        List.flatMap_congr fun part hp => expression?_join hp
    _ = (parts pieces).flatten.filterMap Piece.expression? := by
        rw [List.filterMap_flatten, List.flatMap_def]
    _ = pieces.filterMap Piece.expression? := by
        rw [flatten_parts, List.filterMap_filter]
        simp only [hvoid]

/-- The pieces of a part are among those that are divided. -/
theorem mem_of_mem_parts {pieces : List Piece} {p : Piece} (h : part ∈ parts pieces)
    (hp : p ∈ part) : p ∈ pieces := by
  have hmem : p ∈ (parts pieces).flatten := List.mem_flatten.2 ⟨part, h, hp⟩
  rw [flatten_parts] at hmem
  exact (List.mem_filter.1 hmem).1

/-- A segment of code is made up of code. -/
theorem isCode_of_join {pieces : List Piece} {text : String} (h : part ∈ parts pieces)
    (hj : join part = .code text) :
    (∀ p ∈ part, p.isCode = true) ∧ text.toList = part.flatMap Piece.chars := by
  constructor
  · obtain ⟨chars, rfl⟩ | ht | hc := kind_of_mem_parts h
    · cases hj
    · unfold join at hj
      simp only at hj
      split at hj
      · cases hj
      · cases hj
      · next hno _ =>
        have hne := List.ne_nil_of_mem_splitBy h
        have hlast := List.getLast?_eq_some_getLast hne
        have hp := ht _ (List.getLast_mem hne)
        cases hk : part.getLast hne with
        | text chars => exact absurd (hk ▸ hlast) (hno chars)
        | _ => rw [hk] at hp; cases hp
    · exact hc
  · rw [← chars_join, hj]
    rfl

end Scan

end AtTemplate
