import AtTemplate.Proofs.ErrorSpans
import AtTemplate.Proofs.Labels
import AtTemplate.Proofs.ReportLines
import Mathlib.Algebra.GroupWithZero.Nat

/-!
# AtTemplate.Proofs.Reports

Where the report of an error points.  The error counts bytes and the report counts characters, so
the report points at the error in a source that is ASCII up to the end of the error, and at a place
behind it when a character of more bytes stands before the error.

* `underlined_frameRows` — the rows of a label within one line mark the columns of its text;
* `HeadedBy.unique` — a header names one line and one column;
* `report_of_scan_error` — **the place of an error in its report.**
-/

namespace AtTemplate

open Text

namespace Text

/-- A text takes as many bytes as characters exactly when it is ASCII. -/
theorem byteLength_eq_length_iff {text : List Char} :
    byteLength text = text.length ↔ ∀ c ∈ text, c.toNat < 128 := by
  induction text with
  | nil => simp
  | cons c text ih =>
    have hone : c.utf8Size = 1 ↔ c.toNat < 128 := by
      rw [Char.utf8Size_eq_one_iff, UInt32.le_iff_toNat_le, Char.toNat_val]
      exact Nat.lt_succ_iff.symm
    have hpos := c.utf8Size_pos
    have hle := length_le_byteLength text
    rw [byteLength_cons, List.length_cons, List.forall_mem_cons, ← ih, ← hone]
    omega

end Text

namespace Report

variable {text before inside after front back : List Char} {filename : String} {rows : List String}
  {line : Line} {label : Label}

/-! ## characters in columns -/

/-- The characters of a line from index `i` on, as they are shown. -/
def shownFrom (i : Nat) (text : List Char) : List Char :=
  (text.zipIdx i).flatMap fun (c, i) =>
    if isBlank c then List.replicate (cellWidth c i) ' ' else [c]

/-- The columns of the characters of a line from index `i` on. -/
def widthsFrom (i : Nat) (text : List Char) : List Nat :=
  (text.zipIdx i).map fun (c, i) => cellWidth c i

/-- The marks for the characters of a line from index `i` on. -/
def drawFrom (i : Nat) (widths : List Nat) (mark : Nat → Mark) : List Char :=
  (widths.zipIdx i).flatMap fun (width, i) =>
    (List.replicate width (mark i).others).set 0 (mark i).first

theorem shownFrom_append (i : Nat) (text after : List Char) :
    shownFrom i (text ++ after) = shownFrom i text ++ shownFrom (i + text.length) after := by
  rw [shownFrom, List.zipIdx_append, List.flatMap_append, shownFrom, shownFrom]

theorem widthsFrom_append (i : Nat) (text after : List Char) :
    widthsFrom i (text ++ after) = widthsFrom i text ++ widthsFrom (i + text.length) after := by
  rw [widthsFrom, List.zipIdx_append, List.map_append, widthsFrom, widthsFrom]

theorem drawFrom_append (i : Nat) (widths more : List Nat) (mark : Nat → Mark) :
    drawFrom i (widths ++ more) mark =
      drawFrom i widths mark ++ drawFrom (i + widths.length) more mark := by
  rw [drawFrom, List.zipIdx_append, List.flatMap_append, drawFrom, drawFrom]

@[simp] theorem length_widthsFrom (i : Nat) (text : List Char) :
    (widthsFrom i text).length = text.length := by
  simp [widthsFrom]

/-- Characters of ASCII are shown in as many columns as the marks below them take. -/
theorem length_shownFrom (h : ∀ c ∈ text, c.toNat < 128) (i : Nat) :
    (shownFrom i text).length = (widthsFrom i text).sum := by
  induction text generalizing i with
  | nil => rfl
  | cons c text ih =>
    obtain ⟨hc, htext⟩ := List.forall_mem_cons.1 h
    have hcell : (if isBlank c then List.replicate (cellWidth c i) ' ' else [c]).length =
        cellWidth c i := by
      split
      · exact List.length_replicate
      · next hblank =>
        have htab : c ≠ '\t' := by
          rintro rfl
          exact hblank (by decide)
        rw [cellWidth, if_neg htab, if_neg hblank, columns_of_ascii hc]
        rfl
    rw [shownFrom, List.zipIdx_cons, List.flatMap_cons, List.length_append, hcell, widthsFrom,
      List.zipIdx_cons, List.map_cons, List.sum_cons]
    exact congrArg (cellWidth c i + ·) (ih htext (i + 1))

/-- A row of marks is as wide as the characters that it stands below. -/
theorem length_drawFrom (i : Nat) (widths : List Nat) (mark : Nat → Mark) :
    (drawFrom i widths mark).length = widths.sum := by
  induction widths generalizing i with
  | nil => rfl
  | cons width widths ih =>
    rw [drawFrom, List.zipIdx_cons, List.flatMap_cons, List.length_append, List.length_set,
      List.length_replicate, List.sum_cons]
    exact congrArg (width + ·) (ih (i + 1))

/-- What is drawn are the marks of the characters that it is drawn for. -/
theorem mem_drawFrom {i : Nat} {widths : List Nat} {mark : Nat → Mark} {x : Char}
    (h : x ∈ drawFrom i widths mark) :
    ∃ j, i ≤ j ∧ j < i + widths.length ∧ (x = (mark j).first ∨ x = (mark j).others) := by
  obtain ⟨⟨width, j⟩, hmem, hx⟩ := List.mem_flatMap.1 h
  obtain ⟨hle, hlt, -⟩ := List.mem_zipIdx hmem
  refine ⟨j, hle, hlt, ?_⟩
  obtain hx | hx := List.mem_or_eq_of_mem_set hx
  · exact .inr (List.eq_of_mem_replicate hx)
  · exact .inl hx

/-- Where there are no marks, spaces are drawn. -/
theorem drawFrom_eq_replicate {i : Nat} {widths : List Nat} {mark : Nat → Mark}
    (h : ∀ j, i ≤ j → j < i + widths.length → mark j = .uniform ' ') :
    drawFrom i widths mark = List.replicate widths.sum ' ' := by
  rw [List.eq_replicate_iff, length_drawFrom]
  refine ⟨rfl, fun x hx => ?_⟩
  obtain ⟨j, hle, hlt, hx⟩ := mem_drawFrom hx
  rw [h j hle hlt] at hx
  exact hx.elim id id

/-- Blanks behind a visible character are trimmed as they are alone. -/
theorem trimEnd_append_of_endsVisibly (h : EndsVisibly text) (after : List Char) :
    trimEnd (text ++ after) = text ++ trimEnd after := by
  obtain ⟨stem, last, rfl, hlast⟩ := h
  have hself : ((stem ++ [last]).reverse).dropWhile isBlank = (stem ++ [last]).reverse := by
    simp [hlast]
  rw [trimEnd, List.reverse_append, List.dropWhile_append, hself]
  split
  · next hnil =>
    simp [trimEnd, List.isEmpty_iff.1 hnil]
  · rw [List.reverse_append, List.reverse_reverse, trimEnd]

/-- A line is shown in the columns of its characters through a visible one, and those of what is
behind that. -/
theorem exists_cellWidths_eq (h : EndsVisibly text) (after : List Char) {n : Nat}
    (hn : text.length ≤ n) : ∃ more, cellWidths (text ++ after) n = widthsFrom 0 text ++ more := by
  have htrim : ((trimEnd (text ++ after)).zipIdx.map fun (c, i) => cellWidth c i) =
      widthsFrom 0 text ++ widthsFrom (0 + text.length) (trimEnd after) := by
    rw [trimEnd_append_of_endsVisibly h, ← widthsFrom_append]
    rfl
  rw [cellWidths, htrim, List.append_assoc, List.take_append, List.take_of_length_le]
  · exact ⟨_, rfl⟩
  · rwa [length_widthsFrom]

/-! ## the underline of a label within one line -/

/-- The mark of a label for the character at index `i` of a line: a line below the characters of the
label, with an arm to the note. -/
def underline (offset : Nat) (label : Label) (i : Nat) : Mark :=
  let arm := (label.start + label.stop) / 2 - offset
  let isUnder : Bool := label.start ≤ offset + i ∧ offset + i < label.stop
  if i = arm then if isUnder then ⟨'┬', '─'⟩ else ⟨'│', ' '⟩
  else if isUnder then .uniform '─'
  else .uniform ' '

/-- Only the characters of a label are underlined, and all of them are. -/
theorem underline_eq {offset : Nat} (hstart : offset ≤ label.start)
    (hlt : label.start < label.stop) (i : Nat) :
    (offset + i < label.start ∨ label.stop ≤ offset + i → underline offset label i = .uniform ' ') ∧
      (label.start ≤ offset + i → offset + i < label.stop →
        underline offset label i = ⟨'┬', '─'⟩ ∨ underline offset label i = .uniform '─') := by
  constructor
  · intro h
    have harm : i ≠ (label.start + label.stop) / 2 - offset := by omega
    have hunder : ¬ (label.start ≤ offset + i ∧ offset + i < label.stop) := by omega
    simp [underline, harm, hunder]
  · intro hle hgt
    have hunder : label.start ≤ offset + i ∧ offset + i < label.stop := ⟨hle, hgt⟩
    unfold underline
    by_cases harm : i = (label.start + label.stop) / 2 - offset
    · exact .inl (by simp [← harm, hunder])
    · exact .inr (by simp [harm, hunder])

/-- Among the rows, one shows a line with a text in it, and the row below has marks in the columns
of the text and in no others. -/
def Underlined (rows : List String) (number : Nat) (before inside : List Char) : Prop :=
  ∃ width above shown marks blanks below,
    rows = above ++
      (numberedMargin width number ++
        String.ofList (shownFrom 0 before ++ (shownFrom before.length inside ++ shown))) ::
      (plainMargin width "│" ++
        String.ofList (List.replicate (shownFrom 0 before).length ' ' ++
          (marks ++ List.replicate blanks ' '))) :: below ∧
    (plainMargin width "│").length = (numberedMargin width number).length ∧
    marks.length = (shownFrom before.length inside).length ∧ ∀ m ∈ marks, m = '─' ∨ m = '┬'

/-- Both margins are of one width. -/
theorem length_numberedMargin (number : Nat) :
    (plainMargin (toString number).length "│").length =
      (numberedMargin (toString number).length number).length := by
  have hbar : "│".length = 1 ∧ " ".length = 1 ∧ " │ ".length = 3 := ⟨rfl, rfl, rfl⟩
  simp only [plainMargin, numberedMargin, String.length_append, String.length_ofList, hbar,
    List.length_replicate, Nat.sub_self]
  omega

/-- The label of one line has three rows: the line, its underline, and the arrow with what is said
of it. -/
theorem exists_inlineRows_eq (width : Nat) (line : Line) (number : Nat) (label : Label) :
    ∃ arrow, inlineRows width line number label =
      [numberedMargin width number ++ String.ofList (shownLine line.text),
        plainMargin width "│" ++ String.ofList
          (drawMarks (cellWidths line.text (label.stop - line.offset + 2))
            (underline line.offset label)), arrow] :=
  ⟨_, rfl⟩

/-- A line is shown character by character, through a visible one and on. -/
theorem shownLine_append (hv : EndsVisibly (before ++ inside)) (after : List Char) :
    shownLine (before ++ inside ++ after) = shownFrom 0 before ++
      (shownFrom before.length inside ++
        shownFrom (before.length + inside.length) (trimEnd after)) := by
  change shownFrom 0 (trimEnd _) = _
  rw [trimEnd_append_of_endsVisibly hv, List.append_assoc, shownFrom_append, shownFrom_append,
    Nat.zero_add]

/-- What is drawn below a line: spaces, the marks of the label, and spaces. -/
theorem exists_drawMarks_eq {offset n : Nat} (hv : EndsVisibly (before ++ inside))
    (after : List Char) (hne : inside ≠ []) (hstart : label.start = offset + before.length)
    (hstop : label.stop = label.start + inside.length) (hn : (before ++ inside).length ≤ n) :
    ∃ blanks, drawMarks (cellWidths (before ++ inside ++ after) n) (underline offset label) =
        List.replicate (widthsFrom 0 before).sum ' ' ++
          (drawFrom before.length (widthsFrom before.length inside) (underline offset label) ++
            List.replicate blanks ' ') ∧
      ∀ m ∈ drawFrom before.length (widthsFrom before.length inside) (underline offset label),
        m = '─' ∨ m = '┬' := by
  have hoffset : offset ≤ label.start := hstart ▸ Nat.le_add_right _ _
  have hpos : label.start < label.stop := by
    have := List.length_pos_iff.2 hne
    omega
  obtain ⟨more, hwidths⟩ := exists_cellWidths_eq hv after hn
  have hbehind : drawFrom 0 (widthsFrom 0 before) (underline offset label) =
      List.replicate (widthsFrom 0 before).sum ' ' := by
    refine drawFrom_eq_replicate fun j _ hlt => (underline_eq hoffset hpos j).1 (.inl ?_)
    rw [length_widthsFrom] at hlt
    omega
  have hahead : drawFrom (before.length + inside.length) more (underline offset label) =
      List.replicate more.sum ' ' :=
    drawFrom_eq_replicate fun j hle _ => (underline_eq hoffset hpos j).1 (.inr (by omega))
  refine ⟨more.sum, ?_, fun m hm => ?_⟩
  · change drawFrom 0 _ _ = _
    rw [hwidths, widthsFrom_append, List.append_assoc, drawFrom_append, drawFrom_append,
      Nat.zero_add, length_widthsFrom, Nat.zero_add, length_widthsFrom, hbehind, hahead]
  · obtain ⟨j, hle, hlt, hmark⟩ := mem_drawFrom hm
    rw [length_widthsFrom] at hlt
    obtain h | h := (underline_eq hoffset hpos j).2 (by omega) (by omega)
    · rw [h] at hmark
      exact hmark.symm
    · rw [h] at hmark
      exact .inl (hmark.elim id id)

/-- **The rows of a label within one line underline its characters.** -/
theorem underlined_inlineRows (htext : line.text = before ++ (inside ++ after))
    (hv : EndsVisibly inside) (hascii : ∀ c ∈ before ++ inside, c.toNat < 128)
    (hstart : label.start = line.offset + before.length)
    (hstop : label.stop = label.start + inside.length) (number : Nat) :
    Underlined (inlineRows (toString number).length line number label) number before inside := by
  have hn : (before ++ inside).length ≤ label.stop - line.offset + 2 := by
    rw [List.length_append]
    omega
  obtain ⟨arrow, hrows⟩ := exists_inlineRows_eq (toString number).length line number label
  obtain ⟨blanks, hdrawn, hmarks⟩ :=
    exists_drawMarks_eq (hv.append before) after hv.ne_nil hstart hstop hn
  rw [htext, ← List.append_assoc, shownLine_append (hv.append before), hdrawn,
    ← length_shownFrom fun c hc => hascii c (List.mem_append_left inside hc)] at hrows
  refine ⟨_, [], _, _, blanks, [arrow], hrows, length_numberedMargin number, ?_, hmarks⟩
  rw [length_drawFrom, length_shownFrom fun c hc => hascii c (List.mem_append_right before hc)]

/-- Rows around a label leave it where it is. -/
theorem Underlined.within {number : Nat} (h : Underlined rows number before inside)
    (above below : List String) : Underlined (above ++ rows ++ below) number before inside := by
  obtain ⟨width, above', shown, marks, blanks, below', rfl, hrest⟩ := h
  refine ⟨width, above ++ above', shown, marks, blanks, below' ++ below, ?_, hrest⟩
  simp only [List.append_assoc, List.cons_append]

/-! ## the header of a frame -/

/-- The first of the rows names a file, a line and a column. -/
def HeadedBy (filename : String) (number column : Nat) (rows : List String) : Prop :=
  ∃ pad, rows.head? = some (String.ofList (List.replicate pad ' ') ++ "╭─[" ++ filename ++ ":" ++
    toString number ++ ":" ++ toString column ++ "]")

/-- What stands before a character is known, if the character is not in it. -/
theorem append_cons_inj {x : Char} {u u' v v' : List Char} (hu : x ∉ u) (hu' : x ∉ u')
    (h : u ++ x :: v = u' ++ x :: v') : u = u' ∧ v = v' := by
  have hwhile (w v : List Char) (hw : x ∉ w) : (w ++ x :: v).takeWhile (· != x) = w := by
    rw [List.takeWhile_append_of_pos, List.takeWhile_cons_of_neg (by simp), List.append_nil]
    exact fun y hy => bne_iff_ne.2 (ne_of_mem_of_not_mem hy hw)
  have hfront : u = u' := by rw [← hwhile u v hu, h, hwhile u' v' hu']
  subst hfront
  exact ⟨rfl, (List.cons.inj (List.append_cancel_left h)).2⟩

/-- A number has no colon. -/
theorem colon_not_mem_toString (n : Nat) : ':' ∉ (toString n).toList := by
  intro h
  rw [Nat.toString_eq_repr, Nat.toList_repr] at h
  exact absurd (Nat.isDigit_of_mem_toDigits (by decide) (by decide) h) (by decide)

/-- Different numbers are written differently. -/
theorem toList_toString_inj {m n : Nat} (h : (toString m).toList = (toString n).toList) :
    m = n := by
  rw [Nat.toString_eq_repr, Nat.toString_eq_repr, Nat.toList_repr, Nat.toList_repr] at h
  have hread (k : Nat) : Nat.ofDigitChars 10 (Nat.toDigits 10 k) 0 = k :=
    Nat.ofDigitChars_toDigits (by decide) (by decide)
  rw [← hread m, h, hread]

/-- **A header names one line and one column.** -/
theorem HeadedBy.unique {number number' column column' : Nat}
    (h : HeadedBy filename number column rows) (h' : HeadedBy filename number' column' rows) :
    number = number' ∧ column = column' := by
  obtain ⟨pad, hrow⟩ := h
  obtain ⟨pad', hrow'⟩ := h'
  have heq := congrArg String.toList (Option.some.inj (hrow.symm.trans hrow'))
  have hcorner : "╭─[".toList = '╭' :: "─[".toList := rfl
  have hcolon : ":".toList = [':'] := rfl
  simp only [String.toList_append, String.toList_ofList, List.append_assoc, hcorner, hcolon,
    List.cons_append, List.nil_append] at heq
  have hpad (n : Nat) : '╭' ∉ List.replicate n ' ' := by simp
  obtain ⟨-, hrest⟩ := append_cons_inj (hpad pad) (hpad pad') heq
  have hcolons := (List.cons.inj (List.append_cancel_left (List.append_cancel_left hrest))).2
  obtain ⟨hnumber, hcolumn⟩ := append_cons_inj (colon_not_mem_toString _)
    (colon_not_mem_toString _) hcolons
  exact ⟨toList_toString_inj hnumber, toList_toString_inj (List.append_cancel_right hcolumn)⟩

/-! ## the rows of a frame -/

variable {source : List Char} {first last : Line × Nat}

/-- The head of a frame names the line and the column in which its label begins. -/
theorem headedBy_frameRows (hfirst : lineAt? (splitLines source) label.start = some first)
    (hlast : lineAt? (splitLines source) label.last = some last) :
    HeadedBy filename (first.2 + 1) (label.start - first.1.offset + 1)
      (frameRows filename source label) := by
  simp only [frameRows, hfirst, hlast]
  exact ⟨_, rfl⟩

/-- A frame has a line at both ends of its label. -/
theorem exists_lineAt?_of_frameRows (h : frameRows filename source label ≠ []) :
    ∃ first last, lineAt? (splitLines source) label.start = some first ∧
      lineAt? (splitLines source) label.last = some last := by
  dsimp only [frameRows] at h
  split at h
  · next first last hfirst hlast => exact ⟨first, last, hfirst, hlast⟩
  · exact absurd rfl h

/-- **The header of a frame names the place behind as many characters as the label begins with.** -/
theorem headedBy_of_length {text : List Char} (hlines : NewlinesOnly (front ++ text))
    (hne : text ≠ []) (hstart : label.start = front.length)
    (hrows : frameRows filename (front ++ text) label ≠ []) :
    HeadedBy filename (lineNumber front) (columnNumber front)
      (frameRows filename (front ++ text) label) := by
  obtain ⟨above, hfront, hline⟩ := lineAt?_splitLines hlines hne
  obtain ⟨first, last, hfirst, hlast⟩ := exists_lineAt?_of_frameRows hrows
  have hcolumn : front.length - above.length = (lastLine front).length := by
    have hlength := congrArg List.length hfront
    rw [List.length_append] at hlength
    omega
  have hheader : HeadedBy filename _ _ (frameRows filename (front ++ text) label) :=
    headedBy_frameRows hfirst hlast
  rw [hstart, hline] at hfirst
  cases hfirst
  rwa [hstart, hcolumn] at hheader

/-- **Only there does a label begin, if the header of its frame names that place.** -/
theorem length_of_headedBy {text : List Char} (hlines : NewlinesOnly (front ++ text))
    (hne : text ≠ [])
    (h : HeadedBy filename (lineNumber front) (columnNumber front)
      (frameRows filename (front ++ text) label)) : label.start = front.length := by
  obtain ⟨above, hfront, hline⟩ := lineAt?_splitLines hlines hne
  have hrows : frameRows filename (front ++ text) label ≠ [] := by
    obtain ⟨pad, hhead⟩ := h
    exact fun hnil => by simp [hnil] at hhead
  obtain ⟨⟨first, index⟩, last, hfirst, hlast⟩ := exists_lineAt?_of_frameRows hrows
  obtain ⟨hnumber, hcolumn⟩ := h.unique (headedBy_frameRows hfirst hlast)
  obtain rfl : front.count '\n' = index := Nat.succ.inj hnumber
  have hlength := congrArg List.length hfront
  rw [List.length_append] at hlength
  refine place_eq_of_lineAt? hfirst hline ?_
  simp only [columnNumber] at hcolumn
  simp only
  omega

/-- The lines at both ends of a label, which are the same if no line ends in it. -/
theorem exists_lines_of_label (hlines : NewlinesOnly (front ++ (inside ++ back)))
    (hne : inside ≠ []) (note : String) :
    ∃ above last, front = above ++ lastLine front ∧
      lineAt? (splitLines (front ++ (inside ++ back))) front.length =
        some (⟨above.length, lastLine front ++ firstLine (inside ++ back)⟩, front.count '\n') ∧
      lineAt? (splitLines (front ++ (inside ++ back)))
        (⟨front.length, (front ++ inside).length, note⟩ : Label).last = some last ∧
      ('\n' ∉ inside → last.2 = front.count '\n') := by
  obtain ⟨above, hfront, hfirst⟩ :=
    lineAt?_splitLines hlines (List.append_ne_nil_of_left_ne_nil hne back)
  -- the label ends behind a character, which stands in the last line
  obtain ⟨stem, x, rfl⟩ : ∃ stem x, inside = stem ++ [x] :=
    ⟨_, _, (List.dropLast_append_getLast hne).symm⟩
  have hsource : front ++ (stem ++ [x] ++ back) = front ++ stem ++ ([x] ++ back) := by simp
  obtain ⟨_, -, hlast⟩ := lineAt?_splitLines (hsource ▸ hlines)
    (List.append_ne_nil_of_left_ne_nil (List.cons_ne_nil x []) back)
  have hplace : (⟨front.length, (front ++ (stem ++ [x])).length, note⟩ : Label).last =
      (front ++ stem).length := by
    simp [Label.last]
  rw [← hsource, ← hplace] at hlast
  refine ⟨above, _, hfront, hfirst, hlast, fun hline => ?_⟩
  have hstem : '\n' ∉ stem := fun hmem => hline (List.mem_append_left _ hmem)
  rw [List.count_append, List.count_eq_zero.2 hstem, Nat.add_zero]

/-- **A label of as many characters as it has bytes is underlined where it stands.** -/
theorem underlined_frameRows {note : String} (hlines : NewlinesOnly (front ++ (inside ++ back)))
    (hv : EndsVisibly inside) (hascii : ∀ c ∈ front ++ inside, c.toNat < 128) :
    HeadedBy filename (lineNumber front) (columnNumber front)
      (frameRows filename (front ++ (inside ++ back))
        ⟨front.length, (front ++ inside).length, note⟩) ∧
    ('\n' ∉ inside → Underlined (frameRows filename (front ++ (inside ++ back))
        ⟨front.length, (front ++ inside).length, note⟩) (lineNumber front) (lastLine front)
      inside) := by
  obtain ⟨above, last, hfront, hfirst, hlast, hsame⟩ := exists_lines_of_label hlines hv.ne_nil note
  have hrows : frameRows filename (front ++ (inside ++ back))
      ⟨front.length, (front ++ inside).length, note⟩ ≠ [] := by
    simp only [frameRows, hfirst, hlast]
    exact List.cons_ne_nil _ _
  refine ⟨headedBy_of_length hlines (List.append_ne_nil_of_left_ne_nil hv.ne_nil back) rfl hrows,
    fun hline => ?_⟩
  have hlength := congrArg List.length hfront
  rw [List.length_append] at hlength
  have htext : (⟨above.length, lastLine front ++ firstLine (inside ++ back)⟩ : Line).text =
      lastLine front ++ (inside ++ firstLine back) := by
    rw [firstLine_append_of_not_mem hline]
  have hfits : (front ++ inside).length ≤
      (⟨above.length, lastLine front ++ firstLine (inside ++ back)⟩ : Line).stop := by
    rw [Line.stop, Line.length, htext]
    simp only [List.length_append]
    omega
  simp only [frameRows, hfirst, hlast, labelRows, hsame hline, if_true, if_pos hfits]
  refine Underlined.within (underlined_inlineRows htext hv ?_ hlength ?_ _) [_, _] _
  · intro c hc
    refine hascii c ?_
    rw [hfront, List.append_assoc]
    exact List.mem_append_right above hc
  · exact List.length_append

end Report

/-! ## reports of scans -/

namespace Scan

open Report

/-- **Where the report of an error points.**  The header of its frame names the place behind as many
characters as the source has bytes before the error.  If the source is ASCII up to the end of the
error, this is where the error begins, and an error within one line is underlined.  If any character
before the error takes more bytes, the header names another place. -/
theorem report_of_scan_error (source : String) (e : TemplateError) (h : scan source = .error e)
    (hlines : NewlinesOnly source.toList) :
    ∃ front inside back, source.toList = front ++ (inside ++ back) ∧ inside ≠ [] ∧
      e.span? = some ⟨byteLength front, byteLength (front ++ inside)⟩ ∧
      ∀ filename rows, rows = frameRows filename source.toList
          ⟨byteLength front, byteLength (front ++ inside), e.note⟩ →
        e.report source filename =
          String.join ((("Error: " ++ e.message) :: rows).map (· ++ "\n")) ∧
        (∀ before text, source.toList = before ++ text → text ≠ [] → rows ≠ [] →
          before.length = byteLength front →
          HeadedBy filename (lineNumber before) (columnNumber before) rows) ∧
        ((∀ c ∈ front ++ inside, c.toNat < 128) →
          HeadedBy filename (lineNumber front) (columnNumber front) rows ∧
          ('\n' ∉ inside → Underlined rows (lineNumber front) (lastLine front) inside)) ∧
        (HeadedBy filename (lineNumber front) (columnNumber front) rows →
          ∀ c ∈ front, c.toNat < 128) := by
  obtain ⟨⟨start, stop⟩, inside, hspan, ⟨front, back, hsource, rfl, rfl⟩, hv⟩ := labelled_of_scan h
  have hbytes := byteLength_toList source
  rw [hsource, byteLength_append, byteLength_append] at hbytes
  have hne := List.append_ne_nil_of_left_ne_nil hv.ne_nil back
  refine ⟨front, inside, back, hsource, hv.ne_nil, hspan, ?_⟩
  rintro filename _ rfl
  refine ⟨?_, ?_, ?_, ?_⟩
  · refine TemplateError.report_of_span hspan ?_ ?_ filename
    · simp only
      omega
    · simp only [byteLength_append]
      omega
  · intro before text hbefore htext hrows hlength
    rw [hbefore] at hlines hrows ⊢
    exact headedBy_of_length hlines htext hlength.symm hrows
  · intro hascii
    have hfront := byteLength_eq_length_iff.2 fun c hc => hascii c (List.mem_append_left inside hc)
    rw [byteLength_eq_length_iff.2 hascii, hfront]
    rw [hsource] at hlines ⊢
    exact underlined_frameRows hlines hv hascii
  · intro hheader
    rw [hsource] at hlines hheader
    exact byteLength_eq_length_iff.1 (length_of_headedBy hlines hne hheader)

/-- A comment without an end, in the second line. -/
theorem report_of_open_comment :
    scan "<p>\n@* x" = .error (.unclosed .comment ⟨4, 6⟩) ∧
      ∃ rows, (TemplateError.unclosed .comment ⟨4, 6⟩).report "<p>\n@* x" "page" =
          String.join (("Error: unmatched comment opened at 4..6" :: rows).map (· ++ "\n")) ∧
        HeadedBy "page" 2 1 rows ∧ Underlined rows 2 [] ['@', '*'] := by
  have h : scan "<p>\n@* x" = .error (.unclosed .comment ⟨4, 6⟩) := by decide +kernel
  have hlines : NewlinesOnly "<p>\n@* x".toList := newlinesOnly_of_forall (by simp [isLineBreak])
  obtain ⟨front, inside, back, hsource, -, hspan, hrows⟩ := report_of_scan_error _ _ h hlines
  simp only [TemplateError.span?, Option.some.injEq, Span.mk.injEq] at hspan
  have hstart := Offsets.divide?_eq_some_iff.2 ⟨hsource, hspan.1.symm⟩
  have hstop := Offsets.divide?_eq_some_iff.2
    ⟨hsource.trans (List.append_assoc front inside back).symm, hspan.2.symm⟩
  have hstart' : Offsets.divide? "<p>\n@* x".toList 4 =
      some (['<', 'p', '>', '\n'], ['@', '*', ' ', 'x']) := by decide +kernel
  have hstop' : Offsets.divide? "<p>\n@* x".toList 6 =
      some (['<', 'p', '>', '\n'] ++ ['@', '*'], [' ', 'x']) := by decide +kernel
  rw [hstart'] at hstart
  rw [hstop'] at hstop
  obtain rfl : ['<', 'p', '>', '\n'] = front := congrArg Prod.fst (Option.some.inj hstart)
  obtain rfl : ['@', '*'] = inside :=
    List.append_cancel_left (congrArg Prod.fst (Option.some.inj hstop))
  obtain ⟨hreport, -, hascii, -⟩ := hrows "page" _ rfl
  obtain ⟨hheader, hline⟩ := hascii (by simp)
  exact ⟨h, _, hreport, hheader, hline (by decide)⟩

/-- A letter of two bytes before a comment moves the report by a column: the comment begins in the
second column, and the header names the third. -/
theorem report_behind_letter :
    scan "é@* x" = .error (.unclosed .comment ⟨2, 4⟩) ∧
      "é@* x".toList = ['é'] ++ (['@', '*'] ++ [' ', 'x']) ∧ byteLength ['é'] = 2 ∧
      lineNumber ['é'] = 1 ∧ columnNumber ['é'] = 2 ∧
      ∃ rows, (TemplateError.unclosed .comment ⟨2, 4⟩).report "é@* x" "t" =
          String.join (("Error: unmatched comment opened at 2..4" :: rows).map (· ++ "\n")) ∧
        rows = ["   ╭─[t:1:3]", "   │", " 1 │ é@* x", "   │   ─┬  ",
          "   │    ╰── this comment is never closed", "───╯"] ∧ ¬ HeadedBy "t" 1 2 rows := by
  refine ⟨by decide +kernel, by decide +kernel, by decide +kernel, by decide +kernel,
    by decide +kernel, _, by decide +kernel, rfl, fun h => ?_⟩
  have hheader (rows : List String) : HeadedBy "t" 1 3 ("   ╭─[t:1:3]" :: rows) :=
    ⟨3, congrArg some (by decide +kernel)⟩
  exact absurd (h.unique (hheader _)).2 (by decide)

end Scan

end AtTemplate
