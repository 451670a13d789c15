import AtTemplate.Proofs.Embedding

/-!
# AtTemplate.Proofs.Composition

Templates one after the other.  Behind a template that is accepted, a comma and a line break,
another one is scanned as it is alone.  Nothing at the end of the first takes in what follows: no
name, no token, no chain and no clause goes on over the comma.  An escaped line takes in the comma,
which would be text anyway.
-/

namespace AtTemplate

open Code Text

theorem detached_comma (text : List Char) : Detached (',' :: '\n' :: text) where
  line := by simp [firstLine]
  trimmed c hc := by
    have hblank : isBlank ',' = false := by decide
    rw [trimStart, List.dropWhile_cons_of_neg (by simp [hblank])] at hc
    exact .inl (Option.some.inj hc).symm

/-- What lies around the first of two templates. -/
def Surroundings.ofFirst (second : List Char) : Surroundings where
  before := []
  after := ',' :: '\n' :: second
  frames := []
  before_mailbox := Surroundings.mailbox_nil
  after_detached := detached_comma second
  frames_text := trivial

/-- What lies around the second of two templates. -/
def Surroundings.ofSecond (first : List Char) : Surroundings where
  before := '\n' :: ',' :: first.reverse
  after := []
  frames := []
  before_mailbox := show Directive.endsMailbox '\n' = false by decide
  after_detached := .nil
  frames_text := trivial

namespace Scan

/-- Behind a template that is accepted the scan goes on with the next one. -/
theorem run_append {a : String} {segments : List Segment} (h : scan a = .ok segments) (b : String) :
    (State.start (a ++ ",\n" ++ b).toList).run .empty =
      ((State.start b.toList).inside (.ofSecond a.toList)).run
        ((Segments.empty.addAll segments).addLiteral ",\n") := by
  have hstart : State.start (a ++ ",\n" ++ b).toList =
      (State.start a.toList).inside (.ofFirst b.toList) :=
    State.eq_of_before_rest_frames rfl (by simp [State.start, State.rest, Surroundings.ofFirst]) rfl
  have hrest : ((State.finish a.toList).inside (.ofFirst b.toList)).rest =
      [',', '\n'] ++ b.toList := by
    rw [State.rest_inside, State.rest_finish]
    rfl
  have hsecond : ((State.finish a.toList).inside (.ofFirst b.toList)).skip 2 =
      (State.start b.toList).inside (.ofSecond a.toList) := by
    refine State.eq_of_before_rest_frames ?_ ?_ rfl
    · rw [State.cursor_skip, Cursor.before_advance, ← State.rest, hrest, State.cursor_inside,
        Cursor.before_amid, State.before_finish]
      simp [Surroundings.ofFirst, Surroundings.ofSecond, State.start, Cursor.start]
    · rw [State.rest_skip, hrest, State.rest_inside]
      simp [Surroundings.ofSecond, State.start, State.rest]
  rw [hstart, run_inside_of_scan h (.inl rfl), run_text hrest, ← hsecond]
  · rfl
  · rw [hrest]
    intro i hi
    obtain rfl | rfl : i = 0 ∨ i = 1 := by simp at hi; omega
    · exact show ',' ≠ '@' by decide
    · exact show '\n' ≠ '@' by decide

/-- **Two templates with a comma and a line break between them.**  The segments of the whole are
those of the first, the text between, and those of the second, joined; an error of the second moves
with it. -/
theorem scan_append {a : String} {segments : List Segment} (h : scan a = .ok segments)
    (b : String) :
    (∀ others, scan b = .ok others → scan (a ++ ",\n" ++ b) =
      .ok (Segments.ofPieces (segments ++ [.literal ",\n"] ++ others))) ∧
    (∀ e, scan b = .error e → scan (a ++ ",\n" ++ b) = .error (e.shift (a.utf8ByteSize + 2))) := by
  have hbytes : (Surroundings.ofSecond a.toList).bytes = a.utf8ByteSize + 2 := by
    have hn : '\n'.utf8Size + (','.utf8Size + byteLength a.toList) = byteLength a.toList + 2 := by
      rw [show '\n'.utf8Size = 1 from rfl, show ','.utf8Size = 1 from rfl]
      omega
    rw [← byteLength_toList, ← hn]
    simp [Side.bytes, Surroundings.ofSecond]
  have hinside (w : Segments) := run_inside (k := .ofSecond a.toList) (s := .start b.toList)
    rfl rfl trivial w
  rw [scan_eq_map b, scan_eq_map (a ++ ",\n" ++ b), run_append h b, hinside,
    run_eq_map _ ((Segments.empty.addAll segments).addLiteral _)]
  cases (State.start b.toList).run .empty with
  | error e =>
    refine ⟨nofun, fun e' he => ?_⟩
    cases he
    rw [← hbytes]
    rfl
  | ok v =>
    refine ⟨fun others ho => ?_, nofun⟩
    cases ho
    rw [Segments.ofPieces, Segments.addAll_append, Segments.addAll_append]
    rfl

/-- Behind a comma a word does not continue the statement before it, and an open parenthesis is
reported where it stands in the whole. -/
theorem scan_append_clause :
    scan "é @if(x){y}" = .ok [.literal "é ", .code "if(x){y}"] ∧
      scan "else{z}@c" = .ok [.literal "else{z}", .expression "c"] ∧
      scan ("é @if(x){y}" ++ ",\n" ++ "else{z}@c") =
        .ok [.literal "é ", .code "if(x){y}", .literal ",\nelse{z}", .expression "c"] ∧
      scan "@(" = .error (.unclosed .parenthesis ⟨1, 2⟩) ∧
      scan ("é @if(x){y}" ++ ",\n" ++ "@(") = .error (.unclosed .parenthesis ⟨15, 16⟩) := by
  have ha : scan "é @if(x){y}" = .ok [.literal "é ", .code "if(x){y}"] := by decide +kernel
  have hb : scan "else{z}@c" = .ok [.literal "else{z}", .expression "c"] := by decide +kernel
  have he : scan "@(" = .error (.unclosed .parenthesis ⟨1, 2⟩) := by decide +kernel
  exact ⟨ha, hb, (scan_append ha "else{z}@c").1 _ hb, he, (scan_append ha "@(").2 _ he⟩

end Scan

end AtTemplate
