import AtTemplate.Report.Drawing
import AtTemplate.Text.Bytes
import AtTemplate.Text.Search
import Mathlib.Data.List.TakeWhile

/-!
# AtTemplate.Proofs.ReportLines

The lines that a report divides a source into, where lines end with line feeds.

* `splitFrom_eq_cons` — the first line is the text through its first line feed;
* `lineAt?_splitLines` — the line in which a place lies, and its number;
* `place_eq_of_lineAt?` — a line and a column in it are one place.
-/

namespace AtTemplate.Report

open Text

variable {text front back : List Char} {x : Char}

/-! ## lines that end with line feeds -/

/-- Lines end with line feeds only; a carriage return may stand before one. -/
def NewlinesOnly (text : List Char) : Prop :=
  ∀ front c back, text = front ++ c :: back → isLineBreak c = true →
    c = '\n' ∨ c = '\r' ∧ back.head? = some '\n'

/-- Where no other line break stands, lines end with line feeds only. -/
theorem newlinesOnly_of_forall (h : ∀ c ∈ text, isLineBreak c = true → c = '\n') :
    NewlinesOnly text := by
  rintro front c back rfl hbreak
  exact .inl (h c (List.mem_append_right _ List.mem_cons_self) hbreak)

/-- Lines that end with line feeds only do so in the end of a text too. -/
theorem NewlinesOnly.of_append (h : NewlinesOnly (front ++ back)) : NewlinesOnly back := by
  rintro before c after rfl
  exact h (front ++ before) c after (List.append_assoc ..).symm

theorem NewlinesOnly.of_cons (h : NewlinesOnly (x :: back)) : NewlinesOnly back := by
  rw [← List.singleton_append] at h
  exact h.of_append

/-- The part of a text behind its last line feed. -/
def lastLine (text : List Char) : List Char :=
  (text.reverse.takeWhile (· != '\n')).reverse

/-- The number of the line in which what follows a text stands. -/
def lineNumber (front : List Char) : Nat :=
  front.count '\n' + 1

/-- The number of the column in which what follows a text stands. -/
def columnNumber (front : List Char) : Nat :=
  (lastLine front).length + 1

/-- A text without line feeds is its own last line. -/
theorem lastLine_of_not_mem (h : '\n' ∉ text) : lastLine text = text := by
  rw [lastLine, List.takeWhile_eq_self_iff.2, List.reverse_reverse]
  intro c hc
  exact bne_iff_ne.2 (ne_of_mem_of_not_mem (List.mem_reverse.1 hc) h)

/-- What stands before a line feed is not in the last line. -/
theorem lastLine_append_newline (front text : List Char) :
    lastLine (front ++ '\n' :: text) = lastLine text := by
  rw [lastLine, List.reverse_append, List.reverse_cons, List.append_assoc, List.takeWhile_append]
  split
  · next hall =>
    have hself : text.reverse.takeWhile (· != '\n') = text.reverse :=
      (List.takeWhile_prefix _).eq_of_length hall
    simp [lastLine, hself]
  · rfl

/-- **The first line of a text ends with its first line feed.** -/
theorem splitFrom_eq_cons (h : NewlinesOnly text) (hne : text ≠ []) (offset : Nat)
    (current : List Char) :
    splitFrom offset current text = ⟨offset, current.reverse ++ firstLine text⟩ ::
      splitFrom (offset + (current.length + (firstLine text).length)) []
        (text.drop (firstLine text).length) := by
  fun_induction splitFrom offset current text with
  | case1 => exact absurd rfl hne
  | case2 => exact absurd rfl hne
  | case3 offset current c =>
    have hline : firstLine [c] = [c] := by
      unfold firstLine
      split <;> rfl
    simp [hline, splitFrom]
  | case4 offset current c d text hcr =>
    obtain ⟨rfl, rfl⟩ := hcr
    simp [firstLine]
  | case5 offset current c d text hcr hbreak =>
    obtain rfl | ⟨rfl, hd⟩ := h [] c (d :: text) rfl hbreak
    · simp [firstLine_newline]
    · exact absurd ⟨rfl, Option.some.inj hd⟩ hcr
  | case6 offset current c d text hcr hbreak ih =>
    have hc : c ≠ '\n' := by
      rintro rfl
      exact hbreak (by decide)
    rw [ih h.of_cons (List.cons_ne_nil _ _)]
    have hline : firstLine (c :: d :: text) = c :: firstLine (d :: text) := if_neg hc
    simp [hline, Nat.add_assoc, Nat.add_comm 1]

/-- Lines begin where the text that is divided begins, or behind. -/
theorem offset_le_of_mem_splitFrom {offset : Nat} {current : List Char} {l : Line}
    (h : l ∈ splitFrom offset current text) : offset ≤ l.offset := by
  fun_induction splitFrom offset current text <;> grind

/-- **The lines around a place**: as many lines precede its line as line feeds precede it, and the
lines behind begin behind it. -/
theorem exists_splitFrom_eq (h : NewlinesOnly (front ++ text)) (hne : text ≠ []) (offset : Nat) :
    ∃ above init rest, front = above ++ lastLine front ∧
      splitFrom offset [] (front ++ text) =
        init ++ ⟨offset + above.length, lastLine front ++ firstLine text⟩ :: rest ∧
      init.length = front.count '\n' ∧ (∀ l ∈ init, l.offset ≤ offset + front.length) ∧
      ∀ l ∈ rest, offset + front.length < l.offset := by
  -- one line feed less at a time: the first line of the text is taken off
  induction hn : front.count '\n' generalizing front offset with
  | zero =>
    have hmem : '\n' ∉ front := List.count_eq_zero.1 hn
    have hpos := List.length_pos_iff.2 (firstLine_ne_nil hne)
    rw [splitFrom_eq_cons h (List.append_ne_nil_of_right_ne_nil _ hne), firstLine_append_of_not_mem hmem,
      lastLine_of_not_mem hmem]
    refine ⟨[], [], _, rfl, rfl, rfl, nofun, fun l hl => ?_⟩
    have hle := offset_le_of_mem_splitFrom hl
    simp only [List.length_nil, List.length_append] at hle
    omega
  | succ n ih =>
    have hmem : '\n' ∈ front := List.count_pos_iff.1 (hn ▸ Nat.succ_pos n)
    obtain ⟨line, front, rfl, hline⟩ := List.eq_append_cons_of_mem hmem
    have hcount : front.count '\n' = n := by
      simpa [List.count_eq_zero.2 hline] using hn
    have hsplit : splitFrom offset [] (line ++ '\n' :: front ++ text) =
        ⟨offset, line ++ ['\n']⟩ ::
          splitFrom (offset + (line.length + 1)) [] (front ++ text) := by
      rw [splitFrom_eq_cons h (by simp), List.append_assoc, firstLine_append_of_not_mem hline,
        List.cons_append, firstLine_newline]
      simp [List.drop_append, List.drop_eq_nil_of_le]
    have hrest : NewlinesOnly (front ++ text) := by
      rw [List.append_assoc, List.cons_append] at h
      exact h.of_append.of_cons
    obtain ⟨above, init, rest, hfront, heq, hlength, hinit, hbehind⟩ :=
      ih hrest (offset + (line.length + 1)) hcount
    rw [lastLine_append_newline]
    refine ⟨line ++ '\n' :: above, ⟨offset, line ++ ['\n']⟩ :: init, rest, ?_, ?_, ?_, ?_, ?_⟩
    · rw [List.append_assoc, List.cons_append, ← hfront]
    · rw [hsplit, heq]
      simp [Nat.add_assoc, Nat.add_comm 1]
    · rw [List.length_cons, hlength]
    · refine List.forall_mem_cons.2 ⟨Nat.le_add_right _ _, fun l hl => ?_⟩
      have hle := hinit l hl
      simp only [List.length_append, List.length_cons]
      omega
    · intro l hl
      have hlt := hbehind l hl
      simp only [List.length_append, List.length_cons]
      omega

/-! ## the line of a place -/

variable {lines init rest : List Line} {line line' : Line} {place place' index : Nat}

/-- The line of a place is the one that reaches over it, when the lines behind begin later. -/
theorem lineAt?_append (hinit : ∀ l ∈ init, l.offset ≤ place) (hoffset : line.offset ≤ place)
    (hstop : place ≤ line.stop) (hrest : ∀ l ∈ rest, place < l.offset) :
    lineAt? (init ++ line :: rest) place = some (line, init.length) := by
  have hnone : (rest.zipIdx (init.length + 1)).takeWhile (·.1.offset ≤ place) = [] := by
    cases rest with
    | nil => rfl
    | cons l rest =>
      have hlt := hrest l List.mem_cons_self
      simp [List.zipIdx_cons, Nat.not_le.2 hlt]
  have hwhile : ((init ++ line :: rest).zipIdx).takeWhile (·.1.offset ≤ place) =
      init.zipIdx ++ [(line, init.length)] := by
    rw [List.zipIdx_append, Nat.zero_add, List.zipIdx_cons, List.takeWhile_append_of_pos,
      List.takeWhile_cons_of_pos (by simpa using hoffset), hnone]
    rintro ⟨l, i⟩ hl
    exact decide_eq_true (hinit l (List.fst_mem_of_mem_zipIdx hl))
  rw [lineAt?, hwhile, List.getLast?_concat]
  exact if_pos hstop

/-- **The line in which a place lies**, and the number of lines before it. -/
theorem lineAt?_splitLines (h : NewlinesOnly (front ++ text)) (hne : text ≠ []) :
    ∃ above, front = above ++ lastLine front ∧
      lineAt? (splitLines (front ++ text)) front.length =
        some (⟨above.length, lastLine front ++ firstLine text⟩, front.count '\n') := by
  obtain ⟨above, init, rest, hfront, heq, hlength, hinit, hbehind⟩ := exists_splitFrom_eq h hne 0
  simp only [Nat.zero_add] at heq hinit hbehind
  have hlen : front.length = above.length + (lastLine front).length := by
    rw [← List.length_append, ← hfront]
  refine ⟨above, hfront, ?_⟩
  rw [splitLines, heq, ← hlength]
  refine lineAt?_append hinit ?_ ?_ hbehind
  · exact hlen ▸ Nat.le_add_right _ _
  · simp only [Line.stop, Line.length, List.length_append]
    omega

/-- The line of a place has its number, and begins no later than the place. -/
theorem getElem?_of_lineAt? (h : lineAt? lines place = some (line, index)) :
    lines[index]? = some line ∧ line.offset ≤ place := by
  unfold lineAt? at h
  split at h
  · cases h
  · next hlast =>
    split at h <;> cases h
    have hmem := List.mem_of_getLast? hlast
    have hle := List.mem_takeWhile_imp hmem
    exact ⟨List.mk_mem_zipIdx_iff_getElem?.1 ((List.takeWhile_subset _) hmem),
      of_decide_eq_true hle⟩

/-- A line and a column in it are one place. -/
theorem place_eq_of_lineAt? (h : lineAt? lines place = some (line, index))
    (h' : lineAt? lines place' = some (line', index))
    (hcolumn : place - line.offset = place' - line'.offset) : place = place' := by
  obtain ⟨hline, hle⟩ := getElem?_of_lineAt? h
  obtain ⟨hline', hle'⟩ := getElem?_of_lineAt? h'
  obtain rfl : line = line' := Option.some.inj (hline.symm.trans hline')
  omega

end AtTemplate.Report
