import AtTemplate.Proofs.TwinRuns

/-!
# AtTemplate.Proofs.Comments

What a comment holds does not matter.  Up to its at sign two sources that differ in a comment are
scanned alike, and so they are from the end of the comment on.

* `step_of_comment` — at a comment of a template the scan passes it, whatever frame it stands in;
* `scan_of_comment` — **the comment of a template may be exchanged.**
-/

namespace AtTemplate

open Code Text
open AtTemplate.Markup

namespace Scan

variable {s : State} {trace : List Transition}

/-- A text that a comment holds: with the closing mark behind it, the first one is the last. -/
def IsComment (text : String) : Prop :=
  before? ['*', '@'] (text.toList ++ ['*', '@']) = some text.toList

instance (text : String) : Decidable (IsComment text) :=
  inferInstanceAs (Decidable (_ = _))

/-- A source with a comment between two texts. -/
def commented (front comment back : String) : String :=
  front ++ "@*" ++ comment ++ "*@" ++ back

/-- A comment with its marks. -/
def commentOf (text : List Char) : List Char :=
  '@' :: '*' :: (text ++ ['*', '@'])

/-- A comment stands between the text in front of it and the text behind it. -/
theorem toList_commented (front comment back : String) :
    (commented front comment back).toList =
      front.toList ++ (commentOf comment.toList ++ back.toList) := by
  simp [commented, commentOf]

/-- A comment is four bytes longer than what it says. -/
theorem byteLength_commentOf (text : List Char) :
    byteLength (commentOf text) = byteLength text + 4 := by
  simp only [commentOf, byteLength_cons, byteLength_append, byteLength_nil]
  have hstar : '*'.utf8Size = 1 := rfl
  have hat : '@'.utf8Size = 1 := rfl
  omega

/-- At a comment of a template the scan passes it, whatever frame it stands in. -/
theorem step_of_comment {front text back : List Char} (hn : Nested s.frames)
    (hc : before? ['*', '@'] (text ++ ['*', '@']) = some text)
    (hr : s.cursor = .between front (commentOf text ++ back)) :
    s.Introduces .comment ∧
      s.step = .ok ⟨[], ⟨.between (front ++ commentOf text) back, s.stack⟩⟩ := by
  have hrest : s.rest = commentOf text ++ back := by rw [State.rest, hr]; rfl
  have hhead : s.rest.head? = some '@' := by rw [hrest]; rfl
  have hd : Directive.ofCursor s.cursor = .comment := by rw [hr]; rfl
  have hlen : 2 + (text.length + 2) = (commentOf text).length := by
    simp [commentOf, Nat.add_comm 2]
  refine ⟨⟨hhead, hd⟩, ?_⟩
  rw [step_of_at hn.any_isWhole_head? hhead, State.atSign, hd, ← Cursor.between_advance, ← hr,
    ← hlen]
  simp only [State.passComment, hrest, commentOf, List.cons_append, List.drop_succ_cons,
    List.drop_zero, before?_append hc]
  rfl

/-- A scan that comes to a comment goes on behind it, from the same frames. -/
theorem run_of_comment {front text back : List Char}
    (h : Run (.start (front ++ (commentOf text ++ back))) trace s)
    (hr : s.cursor = .between front (commentOf text ++ back))
    (hc : before? ['*', '@'] (text ++ ['*', '@']) = some text) (w : Segments) :
    (State.start (front ++ (commentOf text ++ back))).run w =
      State.run ⟨.between (front ++ commentOf text) back, s.stack⟩
        (w.addAll ((written trace).map Piece.segment)) := by
  have hn : Nested s.frames :=
    h.preserves (P := fun s => Nested s.frames) (fun _ _ hn _ ht => nested_of_turn hn ht) trivial
  have hne : s.rest ≠ [] := by
    rw [State.rest, hr]
    exact List.cons_ne_nil _ _
  rw [run_eq_of_run h, run_of_step hne (step_of_comment hn hc hr).2]
  rfl

/-- **The comment of a template may be exchanged.**  Where the scan of one source takes a step at a
comment, so does the scan of the source with the other comment, in the same frames.  Both scans give
the same segments, or they find the same at fault: before the comments at the same place, or behind
them at the same distance from their ends. -/
theorem scan_of_comment {front comment comment' back : String} {s : State}
    (hc : IsComment comment) (hc' : IsComment comment')
    (hs : Reached (commented front comment back) s)
    (ho : s.cursor.offset = front.utf8ByteSize) :
    (∃ t, Reached (commented front comment' back) t ∧ t.cursor.offset = front.utf8ByteSize ∧
      t.stack = s.stack ∧ s.Introduces .comment ∧ t.Introduces .comment) ∧
    ((∃ segments, scan (commented front comment back) = .ok segments ∧
        scan (commented front comment' back) = .ok segments) ∨
      (∃ e span, e.span? = some span ∧ span.stop ≤ front.utf8ByteSize ∧
        scan (commented front comment back) = .error e ∧
        scan (commented front comment' back) = .error e) ∨
      ∃ e : TemplateError, e.span? ≠ none ∧
        scan (commented front comment back) =
          .error (e.shift (front.utf8ByteSize + comment.utf8ByteSize + 4)) ∧
        scan (commented front comment' back) =
          .error (e.shift (front.utf8ByteSize + comment'.utf8ByteSize + 4))) := by
  have hn := nested_of_reached hs
  have hpast := past_of_reached hs
  obtain ⟨trace, hrun⟩ := hs
  rw [toList_commented] at hrun
  rw [← byteLength_toList] at ho
  have hbreaks : Breaks (commentOf comment.toList ++ back.toList) := by
    rintro c ⟨⟩
    exact .inl rfl
  have halike : StartAlike (commentOf comment.toList ++ back.toList)
      (commentOf comment'.toList ++ back.toList) := ⟨rfl, rfl⟩
  obtain ⟨hcursor, xs, hrun', hw⟩ := exists_run_between hrun ho hbreaks halike
  have hbytes (text : String) : byteLength (front.toList ++ commentOf text.toList) =
      front.utf8ByteSize + text.utf8ByteSize + 4 := by
    rw [byteLength_append, byteLength_commentOf, byteLength_toList, byteLength_toList,
      Nat.add_assoc]
  have hmailbox (text : List Char) :
      (front.toList ++ commentOf text).reverse.head?.any Directive.endsMailbox = false := by
    simp [commentOf]
    decide
  -- before an at sign all that frames remember has been read
  have hstop : ∀ span ∈ openings s.frames, span.stop ≤ front.utf8ByteSize := by
    intro span hspan
    rw [← byteLength_toList, ← ho]
    refine (hpast span hspan).le ?_
    rw [State.rest, hcursor]
    show some '@' ≠ some '<'
    decide
  have hopen : ∀ span ∈ openings s.frames,
      span.start < byteLength (front.toList ++ commentOf comment.toList) := by
    intro span hspan
    have hle := hstop span hspan
    have hstart := (hpast span hspan).start_le
    rw [hbytes]
    omega
  refine ⟨?_, ?_⟩
  · let t : State := ⟨.between front.toList (commentOf comment'.toList ++ back.toList), s.stack⟩
    refine ⟨t, ⟨xs, by rw [toList_commented]; exact hrun'⟩, byteLength_toList front, rfl,
      (step_of_comment hn hc hcursor).1, ?_⟩
    exact (step_of_comment (s := t) hn hc' rfl).1
  · rw [scan_eq_map, scan_eq_map, toList_commented, toList_commented,
      run_of_comment hrun hcursor hc, run_of_comment hrun' rfl hc', hw, ← hbytes, ← hbytes]
    obtain ⟨v, hv, hv'⟩ | ⟨e, span, hspan, hsome, he, he'⟩ | ⟨e, hsome, he, he'⟩ :=
      run_between ((hmailbox comment'.toList).trans (hmailbox comment.toList).symm) hn hopen
        (Segments.empty.addAll ((written trace).map Piece.segment))
    · exact .inl ⟨v.toList, by rw [hv]; rfl, by rw [hv']; rfl⟩
    · exact .inr (.inl ⟨e, span, hsome, hstop span hspan, by rw [he]; rfl, by rw [he']; rfl⟩)
    · exact .inr (.inr ⟨e, hsome, by rw [he]; rfl, by rw [he']; rfl⟩)

/-- In a block of code a longer comment moves the quotation behind it that has no end. -/
theorem scan_of_comment_in_block :
    (∃ s t, Reached (commented r"@{" "" "'") s ∧ s.cursor.offset = 2 ∧
      Reached (commented r"@{" "x*" "'") t ∧ t.cursor.offset = 2 ∧ t.stack = s.stack ∧
      t.Introduces .comment) ∧
    scan (commented r"@{" "" "'") = .error (.unclosed .quotation ⟨6, 7⟩) ∧
    scan (commented r"@{" "x*" "'") = .error (.unclosed .quotation ⟨8, 9⟩) := by
  let start := State.start (commented r"@{" "" "'").toList
  let opened : State := (start.skip 2).within [.block (.opened 0 none)]
  have hrun : Run start _ opened :=
    .cons (m := ⟨[.brace], opened⟩) (by decide +kernel) (by decide +kernel) (.nil _)
  have ho : opened.cursor.offset = r"@{".utf8ByteSize := by decide +kernel
  have hc : IsComment "" := by decide +kernel
  have hc' : IsComment "x*" := by decide +kernel
  obtain ⟨⟨t, ht, hoffset, hstack, -, hd⟩, -⟩ := scan_of_comment hc hc' ⟨_, hrun⟩ ho
  exact ⟨⟨opened, t, ⟨_, hrun⟩, ho, ht, hoffset, hstack, hd⟩, by decide +kernel, by decide +kernel⟩

end Scan

end AtTemplate
