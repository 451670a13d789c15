import AtTemplate.Proofs.Bounded
import AtTemplate.Proofs.Chains
import AtTemplate.Proofs.Copying
import AtTemplate.Proofs.Parts
import AtTemplate.Script.Binding

/-!
# AtTemplate.Proofs.BindingNames

The name of the model, as templates refer to it.  Which names it may have is told by a rule of its
own and a list of reserved words; what an at sign introduces before a name is told by the names and
the keywords of a scan.  A template can refer to the model only as long as these agree.

* `isName_iff` — a text is a name as a whole when it is all of the longest name that it begins with;
* `Keyword.ofList_letters_mem_reservedWords` — the keywords of clauses are reserved words;
* `atSign_of_name` — an at sign before a name writes the name, unless something goes on with it;
* `scan_of_bindingName` — **every name that the model can be bound to may stand behind an at sign,
  and is the expression that is written there.**
-/

namespace AtTemplate

open Script Text

variable {name text : List Char}

/-! ## names -/

/-- A text that takes as many bytes as the longest name that it begins with is that name. -/
theorem byteLength_takeName_eq_iff :
    byteLength (takeName text) = byteLength text ↔ takeName text = text := by
  constructor
  · intro h
    have hsplit := takeName_append_drop text
    have hbytes := congrArg byteLength hsplit
    rw [byteLength_append, h, Nat.add_eq_left, byteLength_eq_zero_iff] at hbytes
    rwa [hbytes, List.append_nil] at hsplit
  · exact congrArg byteLength

/-- **A text is a name as a whole when it is not empty and is all of the longest name that it begins
with.** -/
theorem isName_iff {name : String} : isName name = true ↔
    name ≠ "" ∧ byteLength (takeName name.toList) = name.utf8ByteSize := by
  rw [← byteLength_toList, byteLength_takeName_eq_iff, ne_eq, ← String.toList_eq_nil_iff]
  unfold isName
  cases name.toList with
  | nil => simp
  | cons c rest =>
    by_cases hc : isNameStart c = true
    · simp [takeName, hc]
    · simp [takeName, hc]

/-- A name is read as a whole in front of a text that does not go on with it. -/
theorem takeName_append_of_isName {name : String} (hn : isName name = true)
    (htext : ∀ c, text.head? = some c → isNameChar c = false) :
    takeName (name.toList ++ text) = name.toList := by
  rw [takeName_append_of_head_false htext, ← byteLength_takeName_eq_iff, (isName_iff.1 hn).2,
    byteLength_toList]

theorem Script.isBindingName_iff {name : String} : isBindingName name = true ↔
    isName name = true ∧ name ∉ reservedWords ∧ name ≠ bufferName := by
  simp [isBindingName, and_assoc]

theorem Script.Binding.check_eq_ok_iff {b : Binding} :
    b.check = .ok () ↔ isBindingName b.name = true := by
  unfold Binding.check
  split <;> simp_all

/-- **The keywords of clauses are reserved words.** -/
theorem Keyword.ofList_letters_mem_reservedWords (keyword : Keyword) :
    String.ofList keyword.letters ∈ reservedWords := by
  cases keyword <;> decide +kernel

/-- A word that is not reserved is no keyword. -/
theorem Keyword.ofLetters?_of_not_mem_reservedWords {word : String} (h : word ∉ reservedWords) :
    ofLetters? word.toList = none := by
  cases hk : ofLetters? word.toList with
  | none => rfl
  | some keyword =>
    refine absurd keyword.ofList_letters_mem_reservedWords ?_
    rwa [ofLetters?_eq_some_iff.1 hk, String.ofList_toList]

/-- An at sign introduces an expression before a name that is no keyword. -/
theorem Directive.resolve_of_not_keyword {previous? : Option Char} (hn : takeName text ≠ [])
    (hk : Keyword.ofLetters? (takeName text) = none) (hp : previous?.any endsMailbox = false) :
    resolve previous? text = .implicit := by
  obtain ⟨c, rest, rfl, hc⟩ := takeName_ne_nil_iff.1 hn
  rw [resolve_of_isNameChar (isNameChar_of_isNameStart hc), hk]
  simp [hc, hp]

namespace Scan

variable {s : State}

/-! ## expressions -/

/-- **An at sign before a name writes the name**, unless a longer name or a longer chain begins
there. -/
theorem atSign_of_name (hr : s.rest = '@' :: (name ++ text)) (hd : s.Introduces .implicit)
    (hname : takeName (name ++ text) = name) (hend : EndsChain text) :
    s.atSign = .ok ⟨[.expression name], s.skip (1 + name.length)⟩ := by
  have hbehind : (s.cursor.advance 1).rest = name ++ text := by
    rw [Cursor.rest_advance, show s.cursor.rest = _ from hr]
    rfl
  have hstop : ((s.cursor.advance 1).advance name.length).rest = text := by
    rw [Cursor.rest_advance, hbehind, List.drop_left]
  have hfound := chainEnd_of_endsChain (hstop.symm ▸ hend)
  rw [State.atSign, hd.2, ← State.skip_skip]
  simp only [State.implicitExpression, hbehind, hname, hfound, Cursor.textTo_advance,
    List.take_left]
  rfl

/-- Nothing else but an expression is introduced before a name that the model can be bound to,
unless it is the end of an e-mail address. -/
theorem introduces_of_bindingName {name : String} (hb : isBindingName name = true)
    (hr : s.rest = '@' :: (name.toList ++ text))
    (hp : s.cursor.previous?.any Directive.endsMailbox = false)
    (htext : ∀ c, text.head? = some c → isNameChar c = false) : s.Introduces .implicit := by
  obtain ⟨hname, hreserved, -⟩ := isBindingName_iff.1 hb
  have htake := takeName_append_of_isName hname htext
  refine ⟨by rw [hr]; rfl, ?_⟩
  rw [Directive.ofCursor, show s.cursor.rest = _ from hr, List.tail_cons]
  refine Directive.resolve_of_not_keyword ?_ ?_ hp
  · rw [htake, ne_eq, String.toList_eq_nil_iff]
    exact (isName_iff.1 hname).1
  · rw [htake]
    exact Keyword.ofLetters?_of_not_mem_reservedWords hreserved

/-! ## what is written -/

/-- What is written behind an expression does not touch it. -/
theorem map_toList_run_addExpression (s : State) (source : String) :
    (s.run (Segments.empty.addExpression source)).map Segments.toList =
      (s.run .empty).map fun others => .expression source :: others.toList := by
  rw [run_eq_map]
  cases h : s.run .empty with
  | error e => rfl
  | ok others =>
    obtain ⟨trace, t, -, -, -, rfl⟩ := run_eq_ok_iff.1 h
    let pieces := (written trace).map Piece.segment
    have hjoined : Segments.ofPieces (.expression source :: Segments.ofPieces pieces) =
        .expression source :: Segments.ofPieces (Segments.ofPieces pieces) :=
      @Segments.ofPieces_append_expression [] _ source
    rw [Segments.ofPieces_ofPieces] at hjoined
    exact congrArg Except.ok hjoined

/-- The place behind a name that stands behind the at sign a template begins with. -/
def behindName (source name : String) : State :=
  (State.start source.toList).skip (1 + name.length)

/-- **Every name that the model can be bound to may stand behind an at sign.**  A binding is
accepted if its name is not empty, is all of the longest name that it begins with, is no reserved
word and is not the name of the output.  Behind an at sign, and in front of a text that goes on with
neither a name nor a chain, such a name is taken for no clause, is neither cut short nor extended:
it is written as an expression, and the scan goes on with that text. -/
theorem scan_of_bindingName (b : Binding) :
    (b.check = .ok () ↔ b.name ≠ "" ∧
      byteLength (takeName b.name.toList) = b.name.utf8ByteSize ∧
      b.name ∉ reservedWords ∧ b.name ≠ bufferName) ∧
    (b.check = .ok () → ∀ text source : String, source = "@" ++ b.name ++ text →
      (∀ c, text.toList.head? = some c → isNameChar c = false ∧ c ∉ ['.', '[', '(']) →
      (State.start source.toList).Introduces .implicit ∧
      Run (.start source.toList)
        [⟨.start source.toList, ⟨[.expression b.name.toList], behindName source b.name⟩⟩]
        (behindName source b.name) ∧
      (behindName source b.name).rest = text.toList ∧ (behindName source b.name).frames = [] ∧
      scan source = ((behindName source b.name).run .empty).map fun others =>
        .expression b.name :: others.toList) := by
  rw [Binding.check_eq_ok_iff, isBindingName_iff]
  refine ⟨by rw [isName_iff, and_assoc], ?_⟩
  rintro hb text source rfl htext
  let s := State.start ("@" ++ b.name ++ text).toList
  have hr : s.rest = '@' :: (b.name.toList ++ text.toList) := by
    simp [s, State.start, State.rest]
  have hbound : ∀ c, text.toList.head? = some c → isNameChar c = false :=
    fun c hc => (htext c hc).1
  have hd : s.Introduces .implicit :=
    introduces_of_bindingName (isBindingName_iff.2 hb) hr rfl hbound
  have hne : s.rest ≠ [] := by simp [hr]
  have hstep : s.step =
      .ok ⟨[.expression b.name.toList], behindName ("@" ++ b.name ++ text) b.name⟩ := by
    rw [step_of_at rfl hd.1, behindName, ← String.length_toList]
    exact atSign_of_name hr hd (takeName_append_of_isName hb.1 hbound)
      (endsChain_of_head fun c hc => (htext c hc).2)
  refine ⟨hd, .cons hne hstep (.nil _), ?_, rfl, ?_⟩
  · rw [behindName, State.rest_skip, show (State.start _).rest = _ from hr, Nat.add_comm,
      List.drop_succ_cons, ← String.length_toList, List.drop_left]
  · have hwritten : Segments.empty.addAll ([Piece.expression b.name.toList].map Piece.segment) =
        Segments.empty.addExpression b.name :=
      congrArg Segments.empty.addExpression String.ofList_toList
    rw [scan_eq_map, run_of_step hne hstep, hwritten, map_toList_run_addExpression]

/-- A name that begins with the letters of a keyword is none, and is written up to the blank. -/
theorem scan_of_name_like_keyword :
    Binding.check ⟨"forêt", true⟩ = .ok () ∧
      (∀ c, " @x".toList.head? = some c → isNameChar c = false ∧ c ∉ ['.', '[', '(']) ∧
      (State.start "@forêt @x".toList).Introduces .implicit ∧
      scan "@forêt @x" = .ok [.expression "forêt", .literal " ", .expression "x"] := by
  have hcheck : Binding.check ⟨"forêt", true⟩ = .ok () := by decide +kernel
  have htext : ∀ c, " @x".toList.head? = some c → isNameChar c = false ∧ c ∉ ['.', '[', '('] := by
    rintro c hc
    obtain rfl : ' ' = c := Option.some.inj hc
    decide +kernel
  obtain ⟨hd, -, -, -, hscan⟩ := (scan_of_bindingName ⟨"forêt", true⟩).2 hcheck " @x" _ rfl htext
  refine ⟨hcheck, htext, hd, ?_⟩
  rw [show "@forêt @x" = "@" ++ "forêt" ++ " @x" from rfl, hscan]
  decide +kernel

end Scan

end AtTemplate
