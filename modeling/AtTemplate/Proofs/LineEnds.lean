import AtTemplate.Proofs.Embedding

/-!
# AtTemplate.Proofs.LineEnds

Markup in code in which nothing is open, at the end of its line.  A line break that is read as text
hands the next line back to the code around the markup; a line break that ends an escaped line does
not, and the next line is text of the markup.

* `frames_of_endsLine` — both ways of taking in the line break, at every state of a scan;
* `frames_of_escaped_line` — behind an escaped line a statement is written out as text.
-/

namespace AtTemplate.Scan

open Code Text

variable {s : State} {markup : MarkupFrame} {below : List Frame} {line rest : List Char}

/-- The step from here takes in the line break that ends its line: as text, or at the end of a line
that an at sign and a colon escape. -/
def State.EndsLine (s : State) : Prop :=
  s.rest.head? = some '\n' ∨ s.Introduces .lineEscape ∧ '\n' ∈ s.rest

instance (s : State) : Decidable s.EndsLine :=
  inferInstanceAs (Decidable (_ ∨ _))

/-- A blank that indents a line. -/
def isIndentation (c : Char) : Bool :=
  c == ' ' || c == '\t'

/-! ## the two steps -/

/-- A line break ends markup in which nothing is open, and takes the indentation of the next line
with it. -/
theorem step_of_lineBreak (hf : s.frames = .markup markup :: below)
    (hset : markup.isSettled = true) (hr : s.rest = '\n' :: rest) :
    s.step = .ok ⟨[.text ('\n' :: rest.takeWhile isIndentation)],
      (s.skip ('\n' :: rest.takeWhile isIndentation).length).within below⟩ := by
  have hprefix : '\n' :: rest.takeWhile isIndentation <+: s.rest := by
    rw [hr, List.cons_prefix_cons]
    exact ⟨rfl, List.takeWhile_prefix isIndentation⟩
  have hend : s.endLine below = ⟨[.text ('\n' :: rest.takeWhile isIndentation)],
      (s.skip ('\n' :: rest.takeWhile isIndentation).length).within below⟩ := by
    have hindent : 1 + (s.rest.tail.takeWhile fun c => c == ' ' || c == '\t').length =
        ('\n' :: rest.takeWhile isIndentation).length := by
      rw [hr, Nat.add_comm 1]
      rfl
    simp only [State.endLine, hindent, ← List.prefix_iff_eq_take.1 hprefix]
  rw [← hend]
  simp [State.step, State.stepWith, hf, State.stepMarkup, hr, State.stopsText, hset]

/-- An escaped line that has a line break is text through it, and leaves the frames alone. -/
theorem step_of_escapedLine (hf : s.frames = .markup markup :: below)
    (hd : s.Introduces .lineEscape) (hl : '\n' ∉ line)
    (hr : s.rest = '@' :: ':' :: (line ++ '\n' :: rest)) :
    s.step = .ok ⟨[.text (line ++ ['\n'])], s.skip (2 + (line ++ ['\n']).length)⟩ := by
  have hfirst : firstLine (line ++ '\n' :: rest) = line ++ ['\n'] :=
    firstLine_append_of_not_mem hl _
  rw [step_of_at (by simp [hf, Frame.isWhole]) hd.1, State.atSign, hd.2]
  simp only [State.escapeLine, hr, List.drop_succ_cons, List.drop_zero, hfirst]

/-! ## every state of a scan -/

/-- **Which line break ends markup in which nothing is open.**  At every state that a scan comes to
within such markup, a step that takes in the line break at the end of the line leaves the markup
exactly when that line is not an escaped one.  A line break of its own is written with the
indentation of the next line, of which the rest belongs to the block around the markup.  Behind an
escaped line the scan stands in the same markup as before, and copies the next line as text, as far
as nothing in it needs a closer look. -/
theorem frames_of_endsLine (source : String) :
    ∀ s markup below m, Reached source s → s.frames = .markup markup :: below →
      markup.isSettled = true → s.EndsLine → s.step = .ok m →
      (m.state.frames = below ↔ ¬ s.Introduces .lineEscape) ∧
      (¬ s.Introduces .lineEscape → ∃ indent block outer, below = .block block :: outer ∧
        m.written = [.text ('\n' :: indent)] ∧ (∀ c ∈ indent, c = ' ' ∨ c = '\t') ∧
        s.rest = '\n' :: (indent ++ m.state.rest) ∧
        ∀ c, m.state.rest.head? = some c → c ≠ ' ' ∧ c ≠ '\t') ∧
      (s.Introduces .lineEscape → ∃ line, '\n' ∉ line ∧ m.written = [.text (line ++ ['\n'])] ∧
        s.rest = '@' :: ':' :: (line ++ '\n' :: m.state.rest) ∧
        m.state.frames = .markup markup :: below ∧
        ∀ text after, m.state.rest = text ++ after → text ≠ [] →
          (∀ c ∈ text, State.stopsText c = false) →
          (∀ c, after.head? = some c → State.stopsText c = true) →
          m.state.step = .ok ⟨[.text text], m.state.skip text.length⟩) := by
  intro s markup below m hreached hf hset hends hm
  have hn := nested_of_reached hreached
  rw [hf] at hn
  obtain ⟨block, outer, hbelow⟩ := hn.exists_block
  obtain hbreak | ⟨hd, hmem⟩ := hends
  · have hnot : ¬ s.Introduces .lineEscape := by
      rintro ⟨hat, -⟩
      rw [hbreak] at hat
      cases hat
    obtain ⟨rest, hr⟩ := List.head?_eq_some_iff.1 hbreak
    rw [step_of_lineBreak hf hset hr] at hm
    cases hm
    have hrest : ((s.skip ('\n' :: rest.takeWhile isIndentation).length).within below).rest =
        rest.dropWhile isIndentation := by
      have hsplit := congrArg (List.drop (rest.takeWhile isIndentation).length)
        (List.takeWhile_append_dropWhile (p := isIndentation) (l := rest))
      rw [List.drop_left] at hsplit
      rw [State.rest_within, State.rest_skip, hr, List.length_cons, List.drop_succ_cons, hsplit]
    refine ⟨⟨fun _ => hnot, fun _ => rfl⟩, fun _ => ?_, fun hd => absurd hd hnot⟩
    refine ⟨rest.takeWhile isIndentation, block, outer, hbelow, rfl, fun c hc => ?_, ?_, ?_⟩
    · simpa [isIndentation] using List.mem_takeWhile_imp hc
    · rw [hrest, List.takeWhile_append_dropWhile, hr]
    · intro c hc
      rw [hrest] at hc
      have hhead := List.head?_dropWhile_not isIndentation rest
      rw [hc] at hhead
      simpa [isIndentation] using hhead
  · obtain ⟨tail, hr⟩ := rest_of_introduces hd rfl
    have hmem : '\n' ∈ tail := by simpa [hr] using hmem
    obtain ⟨line, rest, rfl, hl⟩ := List.eq_append_cons_of_mem hmem
    rw [step_of_escapedLine hf hd hl hr] at hm
    cases hm
    have hrest : (s.skip (2 + (line ++ ['\n']).length)).rest = rest := by
      rw [State.rest_skip, hr, Nat.add_comm 2, List.drop_succ_cons, List.drop_succ_cons,
        show line ++ '\n' :: rest = (line ++ ['\n']) ++ rest by simp, List.drop_left]
    have hframes : (s.skip (2 + (line ++ ['\n']).length)).frames = .markup markup :: below := hf
    refine ⟨iff_of_false (fun h => ?_) (fun hnot => hnot hd), fun hnot => absurd hd hnot,
      fun _ => ?_⟩
    · rw [hframes] at h
      exact List.cons_ne_self _ _ h
    · refine ⟨line, hl, rfl, by rw [hrest, hr], hframes, fun text after ht hne hplain hstop => ?_⟩
      obtain ⟨c, tail, rfl⟩ := List.exists_cons_of_ne_nil hne
      have htake : ((c :: tail) ++ after).takeWhile (!State.stopsText ·) = c :: tail := by
        rw [List.takeWhile_append_of_pos (by simpa using hplain)]
        cases after with
        | nil => simp
        | cons d after => simp [hstop d rfl]
      rw [step_of_markup hframes ht (hplain c List.mem_cons_self), ht, htake]
      simp only [State.copy, ht, List.take_left]

/-- A block in which an escaped line stands behind an element, with a statement on the next line. -/
def escapedLine : String :=
  r"@{ <br/>@:x" ++ "\nlet y = 1;\n" ++ r"}"

/-- The scan comes to the escaped line behind an element, in the markup that the element is in. -/
theorem reached_escaped_line :
    Reached escapedLine (((State.start escapedLine.toList).skip 8).within
      [.markup (.opened 3), .block (.opened 0 none)]) := by
  let start := State.start escapedLine.toList
  let place (n : Nat) (frames : List Frame) : State := (start.skip n).within frames
  let block : Frame := .block (.opened 0 none)
  let markup : Frame := .markup (.opened 3)
  have hrun : Run start _ (place 8 [markup, block]) :=
    .cons (m := ⟨[.brace], place 2 [block]⟩) (by decide +kernel) (by decide +kernel) <|
    .cons (m := ⟨[.token .space [' ']], place 3 [block]⟩) (by decide +kernel) (by decide +kernel) <|
    .cons (m := ⟨[], place 3 [markup, block]⟩) (by decide +kernel) (by decide +kernel) <|
    .cons (m := ⟨[.text ['<', 'b', 'r']], place 6 [.tag "br" ⟨3, 6⟩, markup, block]⟩)
      (by decide +kernel) (by decide +kernel) <|
    .cons (m := ⟨[.text ['/', '>']], place 8 [markup, block]⟩) (by decide +kernel)
      (by decide +kernel) <| .nil _
  exact ⟨_, hrun⟩

/-- The line break behind the statement ends the markup. -/
theorem frames_of_line_break :
    ∃ s m, Reached escapedLine s ∧ s.rest = ['\n', '}'] ∧
      s.frames = [.markup (.opened 3), .block (.opened 0 none)] ∧ s.step = .ok m ∧
      m.state.frames = [.block (.opened 0 none)] := by
  let start := State.start escapedLine.toList
  let place (n : Nat) (frames : List Frame) : State := (start.skip n).within frames
  let block : Frame := .block (.opened 0 none)
  let markup : Frame := .markup (.opened 3)
  obtain ⟨trace, hrun⟩ := reached_escaped_line
  have hline : Reached escapedLine (place 12 [markup, block]) :=
    ⟨_, hrun.snoc (m := ⟨[.text ['x', '\n']], place 12 [markup, block]⟩) (by decide +kernel)
      (by decide +kernel)⟩
  obtain ⟨trace, hrun⟩ := hline
  have hreached : Reached escapedLine (place 22 [markup, block]) :=
    ⟨_, hrun.snoc (m := ⟨[.text "let y = 1;".toList], place 22 [markup, block]⟩)
      (by decide +kernel) (by decide +kernel)⟩
  have hstep : (place 22 [markup, block]).step = .ok ⟨[.text ['\n']], place 23 [block]⟩ := by
    decide +kernel
  have hframes := (frames_of_endsLine _ _ _ _ _ hreached rfl rfl (by decide +kernel) hstep).1.2
    (by decide +kernel)
  exact ⟨_, _, hreached, by decide +kernel, rfl, hstep, hframes⟩

/-- Behind an escaped line the statement of the next line is text: the markup that the element left
settled is still there, and the scan writes the statement out. -/
theorem frames_of_escaped_line :
    (∃ s m, Reached escapedLine s ∧
      s.frames = [.markup (.opened 3), .block (.opened 0 none)] ∧
      (MarkupFrame.opened 3).isSettled = true ∧ s.EndsLine ∧ s.step = .ok m ∧
      m.state.frames = s.frames) ∧
    scan escapedLine = .ok [.code r"{ ", .literal "<br/>x\nlet y = 1;\n", .code r"}"] := by
  have hstep : (((State.start escapedLine.toList).skip 8).within
      [.markup (.opened 3), .block (.opened 0 none)]).step = .ok ⟨[.text ['x', '\n']],
        ((State.start escapedLine.toList).skip 12).within
          [.markup (.opened 3), .block (.opened 0 none)]⟩ := by
    decide +kernel
  exact ⟨⟨_, _, reached_escaped_line, rfl, rfl, by decide +kernel, hstep, rfl⟩, by decide +kernel⟩

end AtTemplate.Scan
