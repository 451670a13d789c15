import AtTemplate.Proofs.Marks
import AtTemplate.Report.Basic

/-!
# AtTemplate.Proofs.ErrorSpans

The stretches of the source that errors point at.

* `span_of_scan_error` — an error points at a stretch within the source that is not empty, so that
  a report numbers characters with its ends as they are;
* `begins_of_scan_error` — where a construct is reported, the construct begins, but for a comment of
  code without an end, which is reported as a string literal;
* `scan_of_unclosed_comment` — such a comment.
-/

namespace AtTemplate

open Code Text

/-! ## reports -/

/-- A report numbers characters with the ends of a stretch as they are, when the stretch lies within
the source. -/
theorem TemplateError.report_of_span {e : TemplateError} {source : String} {span : Span}
    (h : e.span? = some span) (hstart : span.start ≤ source.utf8ByteSize)
    (hstop : span.stop ≤ source.utf8ByteSize) (filename : String) :
    e.report source filename = String.join ((("Error: " ++ e.message) ::
      Report.frameRows filename source.toList ⟨span.start, span.stop, e.note⟩).map
        (· ++ "\n")) := by
  simp only [report, h, Nat.min_eq_left hstart, Nat.min_eq_left hstop]

namespace Scan

/-- **The stretch of the source that an error points at.**  It is not empty, it lies within the
source and between two characters of it, so that the report of the error numbers characters with
its ends as they are.  Where a closing tag is refused, the stretch begins with the mark of a closing
tag and the name that is reported. -/
theorem span_of_scan_error (source : String) (e : TemplateError) (h : scan source = .error e) :
    ∃ span inside, e.span? = some span ∧ span.start < span.stop ∧
      span.stop ≤ source.utf8ByteSize ∧ String.Pos.Raw.IsValid source ⟨span.start⟩ ∧
      String.Pos.Raw.IsValid source ⟨span.stop⟩ ∧
      (∀ filename, e.report source filename = String.join ((("Error: " ++ e.message) ::
        Report.frameRows filename source.toList ⟨span.start, span.stop, e.note⟩).map (· ++ "\n"))) ∧
      span.Holds source.toList inside ∧
      (∀ expected found, e = .strayClosingTag expected found span →
        ∃ blanks, (∀ c ∈ blanks, isBlank c = true) ∧
          inside = '<' :: '/' :: (found.toList ++ (blanks ++ ['>']))) ∧
      ∀ detail, e = .malformedTag detail span →
        ∃ name, detail = "unexpected content in closing tag </" ++ name ++ ">" ∧
          inside = '<' :: '/' :: name.toList := by
  obtain ⟨c, inside, hc, hshows⟩ := shown_of_scan h
  have hholds := c.holds_span hshows.isPrefix
  rw [hc] at hholds
  have hlt := hholds.start_lt hshows.ne_nil
  obtain ⟨hstart, hstop⟩ := hholds.isBoundary
  have hle := hstop.le
  rw [byteLength_toList] at hle
  refine ⟨c.span (byteLength inside), inside, hshows.span_eq, hlt, hle,
    Offsets.isBoundary_toList_iff.1 hstart, Offsets.isBoundary_toList_iff.1 hstop, ?_, hholds, ?_,
    ?_⟩
  · exact TemplateError.report_of_span hshows.span_eq (Nat.le_trans (Nat.le_of_lt hlt) hle) hle
  · rintro expected found rfl
    exact hshows.fits
  · rintro detail rfl
    exact hshows.fits

/-- A closing tag that does not fit, with letters of two bytes around it. -/
theorem span_of_stray_tag :
    scan "é@{ <p>ü</b >ß }" = .error (.strayClosingTag (some "p") "b" ⟨10, 15⟩) ∧
      ∃ inside, (⟨10, 15⟩ : Span).Holds "é@{ <p>ü</b >ß }".toList inside ∧
        ∃ blanks, inside = '<' :: '/' :: ("b".toList ++ (blanks ++ ['>'])) := by
  have h : scan "é@{ <p>ü</b >ß }" = .error (.strayClosingTag (some "p") "b" ⟨10, 15⟩) := by
    decide +kernel
  obtain ⟨span, inside, hspan, -, -, -, -, -, hholds, hstray, -⟩ := span_of_scan_error _ _ h
  cases hspan
  obtain ⟨blanks, -, hinside⟩ := hstray (some "p") "b" rfl
  exact ⟨h, inside, hholds, blanks, hinside⟩

/-! ## what begins where a construct is reported -/

/-- **Where a construct is reported, it begins.**  A comment begins with its mark, a group with its
bracket, a tag with an angle bracket, an attribute value with its quote, and a block with its at
sign and brace or with its keyword.  A string literal begins with a quote that nothing closes; but
what is reported as a string literal may also be a comment of code without an end, and in a block of
code such a comment always is. -/
theorem begins_of_scan_error (source : String) :
    (∀ construct span, scan source = .error (.unclosed construct span) →
      HoldsAt source.toList span.start construct.Begins) ∧
    ∀ s block below, Reached source s → s.frames = .block block :: below →
      UnclosedQuotation s.rest ∨ UnclosedComment s.rest →
      scan source = .error (.unclosed .quotation (s.cursor.span 1)) := by
  constructor
  · intro construct span h
    obtain ⟨c, inside, hc, hshows⟩ := shown_of_scan h
    obtain rfl := Option.some.inj hshows.span_eq
    exact ⟨c, hc, rfl, hshows.fits⟩
  · intro s block below hreached hf hopen
    exact scan_of_read_unclosed hreached hf (read_eq_unclosed_iff.2 hopen)

/-- The scan comes to the comment behind the brace that opens the block. -/
theorem reached_unclosed_comment :
    Reached "@{ /* x }" (((State.start "@{ /* x }".toList).skip 3).within
      [.block (.opened 0 none)]) := by
  let start := State.start "@{ /* x }".toList
  let place (n : Nat) : State := (start.skip n).within [.block (.opened 0 none)]
  have hrun : Run start _ (place 3) :=
    .cons (m := ⟨[.brace], place 2⟩) (by decide +kernel) (by decide +kernel) <|
    .cons (m := ⟨[.token .space [' ']], place 3⟩) (by decide +kernel) (by decide +kernel) <| .nil _
  exact ⟨_, hrun⟩

/-- A tag that is left open behind letters of two bytes, and a comment that is left open. -/
theorem begins_of_unclosed :
    (scan "é@{ <b>ü}" = .error (.unclosed .tag ⟨5, 7⟩) ∧
      HoldsAt "é@{ <b>ü}".toList 5 Construct.tag.Begins) ∧
    UnclosedComment r"/* x }".toList ∧
      scan "@{ /* x }" = .error (.unclosed .quotation ⟨3, 4⟩) := by
  have h : scan "é@{ <b>ü}" = .error (.unclosed .tag ⟨5, 7⟩) := by decide +kernel
  have hopen : UnclosedComment r"/* x }".toList := ⟨r" x }".toList, rfl, by decide +kernel⟩
  refine ⟨⟨h, (begins_of_scan_error _).1 .tag ⟨5, 7⟩ h⟩, hopen, ?_⟩
  exact (begins_of_scan_error _).2 _ _ _ reached_unclosed_comment rfl (.inr hopen)

/-- A comment of code that is left open is reported as a string literal, though no quote stands
there, and none that opens a literal. -/
theorem scan_of_unclosed_comment :
    scan "@{ /* x }" = .error (.unclosed .quotation ⟨3, 4⟩) ∧
      HoldsAt "@{ /* x }".toList 3 UnclosedComment ∧
      ¬ HoldsAt "@{ /* x }".toList 3 UnclosedQuotation := by
  have hdivide : Offsets.divide? "@{ /* x }".toList 3 =
      some (r"@{ ".toList, r"/* x }".toList) := by decide +kernel
  refine ⟨by decide +kernel, holdsAt_iff.2 ⟨_, _, hdivide, ?_⟩, fun h => ?_⟩
  · exact ⟨r" x }".toList, rfl, by decide +kernel⟩
  · obtain ⟨before, text, hd, quote, rest, hr, hq, -⟩ := holdsAt_iff.1 h
    rw [hdivide] at hd
    cases hd
    cases hr
    cases hq

end Scan

end AtTemplate
