import AtTemplate.Proofs.Pushes
import AtTemplate.Proofs.QuotationEnds
import AtTemplate.Script.Runtime

/-!
# AtTemplate.Proofs.Literals

Literal text in the procedure that writes it.  Each text is one statement on a line of its own, and
its argument is a quotation of the text.  What a quotation is read as depends on neither the text
in it nor the text behind it, so that a text can neither leave its statement nor be taken for
another one.

* `escape_cases` — how a character is written between quotes;
* `quotes_encode` — what the quotation of a text is read as;
* `writtenTexts?_of_literals` — the texts are found again in the procedure;
* `generate_literals` — **literal text is neither lost in the procedure nor leaves its statement.**
-/

namespace AtTemplate

open Code Text

namespace Text.Quoted

variable {c : Char} {text : List Char} {n : Nat}

/-! ## how a character is written between quotes -/

/-- Neither a control below the space nor a character that ends a quotation or takes the next
one. -/
def IsPlain (c : Char) : Prop :=
  0x20 ≤ c.toNat ∧ c ≠ '"' ∧ c ≠ '\\'

instance (c : Char) : Decidable (IsPlain c) :=
  inferInstanceAs (Decidable (_ ∧ _))

theorem isPlain_hexDigit (h : n < 16) : IsPlain (hexDigit n) := by
  have hall : ∀ k : Fin 16, IsPlain (hexDigit k) := by decide
  exact hall ⟨n, h⟩

/-- **A character is written as itself, or behind a backslash with plain characters to follow.** -/
theorem escape_cases (c : Char) :
    (IsPlain c ∧ escape c = [c]) ∨
      ∃ x text, escape c = '\\' :: x :: text ∧ 0x20 ≤ x.toNat ∧ ∀ d ∈ text, IsPlain d := by
  by_cases hshort : c ∈ ['"', '\\', '\x08', '\x0c', '\n', '\r', '\t']
  · simp only [List.mem_cons, List.not_mem_nil, or_false] at hshort
    obtain rfl | rfl | rfl | rfl | rfl | rfl | rfl := hshort
    all_goals exact .inr ⟨_, [], rfl, by decide, List.forall_mem_nil _⟩
  · simp only [List.mem_cons, List.not_mem_nil, or_false, not_or] at hshort
    simp only [escape, hshort, if_false]
    split
    · next hcontrol =>
      refine .inr ⟨_, _, rfl, by decide, ?_⟩
      simp only [List.forall_mem_cons]
      exact ⟨by decide, by decide, isPlain_hexDigit (by omega), isPlain_hexDigit (by omega),
        List.forall_mem_nil _⟩
    · next hcontrol => exact .inl ⟨⟨by omega, hshort.1, hshort.2.1⟩, rfl⟩

/-- Plain characters are part of a quotation. -/
theorem quotationBody_of_isPlain (h : ∀ c ∈ text, IsPlain c) : QuotationBody '"' text := by
  induction text with
  | nil => exact .nil
  | cons c text ih =>
    obtain ⟨⟨hvisible, hquote, hescape⟩, htext⟩ := List.forall_mem_cons.1 h
    refine .char hquote hescape ?_ (ih htext)
    rintro rfl
    exact absurd hvisible (by decide)

/-- An escaped character does not end a quotation. -/
theorem quotationBody_escape (c : Char) : QuotationBody '"' (escape c) := by
  obtain ⟨hplain, heq⟩ | ⟨x, text, heq, -, hplain⟩ := escape_cases c
  · rw [heq]
    exact quotationBody_of_isPlain (List.forall_mem_singleton.2 hplain)
  · rw [heq]
    exact .escape (quotationBody_of_isPlain hplain)

/-- No control is left in an escaped character. -/
theorem visible_escape (c : Char) : ∀ d ∈ escape c, 0x20 ≤ d.toNat := by
  obtain ⟨hplain, heq⟩ | ⟨x, text, heq, hvisible, hplain⟩ := escape_cases c
  · rw [heq]
    exact List.forall_mem_singleton.2 hplain.1
  · rw [heq]
    simp only [List.forall_mem_cons]
    exact ⟨by decide, hvisible, fun d hd => (hplain d hd).1⟩

/-- No escaped text ends a quotation. -/
theorem quotationBody_flatMap_escape (text : List Char) :
    QuotationBody '"' (text.flatMap escape) := by
  induction text with
  | nil => exact .nil
  | cons c text ih => exact (quotationBody_escape c).append ih

end Text.Quoted

namespace Script

open Text.Quoted

/-! ## the quotation of a text -/

/-- Characters quote a text: none is a control, they are read as one token, whatever follows, and
they are decoded to the text. -/
structure Quotes (q : List Char) (text : String) : Prop where
  visible : ∀ c ∈ q, 0x20 ≤ c.toNat
  token : ∀ rest, Code.read (q ++ rest) = .token .doubleQuoted q rest
  decoded : decode? q = some text.toList

/-- **A text is quoted by its string literal.** -/
theorem quotes_stringLiteral (text : String) : Quotes (stringLiteral text).toList text := by
  have hencode : (stringLiteral text).toList = encode text.toList := String.toList_ofList
  rw [hencode]
  refine ⟨?_, fun rest => ?_, decode?_encode _⟩
  · simp only [encode, List.forall_mem_cons, List.forall_mem_append, List.forall_mem_flatMap]
    exact ⟨by decide, fun c _ => visible_escape c, by decide, List.forall_mem_nil _⟩
  · have hread := read_quotation (show quoted? '"' = some .doubleQuoted from rfl)
      (quotationBody_flatMap_escape text.toList) rest
    simpa [encode] using hread

/-! ## the statements of literal text -/

/-- The statement that writes a text, given as a quotation. -/
def literalLine (q : List Char) : List Char :=
  callOpening ++ (q ++ [')', ';', '\n'])

theorem toList_statement_literal (text : String) :
    (statement (.literal text)).toList = literalLine (stringLiteral text).toList := by
  have hopening : (bufferName ++ ".push(").toList = callOpening := by decide +kernel
  have hclosing : ");\n".toList = [')', ';', '\n'] := by decide +kernel
  rw [statement, String.toList_append, String.toList_append, hopening, hclosing, literalLine,
    List.append_assoc]

/-- The procedure of literal text is made up of the statements of the texts. -/
theorem toList_body_of_literals (b : Binding) (texts : List String) :
    (Procedure.ofSegments b (texts.map .literal)).body.toList = (prologue b).toList ++
      ((texts.map fun text => (stringLiteral text).toList).flatMap literalLine ++
        (epilogue b).toList) := by
  rw [Procedure.ofSegments, String.toList_append, String.toList_append, String.toList_join,
    List.append_assoc, List.flatMap_map, List.flatMap_map, List.flatMap_map]
  simp only [toList_statement_literal]

/-! ## the texts that are written -/

theorem length_lt_of_takeLiteral? {source text rest : List Char}
    (h : takeLiteral? source = some (text, rest)) : rest.length < source.length := by
  simp only [takeLiteral?, Option.bind_eq_bind, Option.bind_eq_some_iff] at h
  obtain ⟨-, -, h⟩ := h
  split at h
  · next hread =>
    cases h
    have hlt := length_lt_of_readFrom hread
    simp only [List.length_cons, List.length_drop] at hlt
    omega
  · cases h

/-- A statement of a literal is taken off with the text that it writes. -/
theorem takeLiteral?_append (text : String) (rest : List Char) :
    takeLiteral? (literalLine (stringLiteral text).toList ++ rest) =
      some (text.toList, rest) := by
  have hopening : (bufferName ++ ".push(\"").toList = callOpening ++ ['"'] := by decide +kernel
  have hsource : literalLine (stringLiteral text).toList ++ rest =
      (callOpening ++ ['"']) ++ ((encode text.toList).tail ++ ')' :: ';' :: '\n' :: rest) := by
    simp [literalLine, stringLiteral, encode]
  have hread := read_encode text.toList (')' :: ';' :: '\n' :: rest)
  have hprefix := List.isPrefixOf_iff_prefix.2 (List.prefix_append (callOpening ++ ['"'])
    ((encode text.toList).tail ++ ')' :: ';' :: '\n' :: rest))
  simp only [takeLiteral?, hopening, hsource, hprefix, List.drop_left, hread]
  rfl

/-- The texts that the statements before `stop` write, one for each, when all of them write
literals. -/
def textsBefore? (stop source : List Char) : Option (List String) :=
  if source = stop then some []
  else
    match _h : takeLiteral? source with
    | some (text, rest) => (textsBefore? stop rest).map (String.ofList text :: ·)
    | none => none
termination_by source.length
decreasing_by exact length_lt_of_takeLiteral? _h

/-- The texts that a procedure writes between its prologue and its epilogue. -/
def writtenTexts? (b : Binding) (p : Procedure) : Option (List String) :=
  textsBefore? (epilogue b).toList (p.body.toList.drop (prologue b).toList.length)

/-- The texts of some statements are found in front of what follows them. -/
theorem textsBefore?_append (stop : List Char) (texts : List String) :
    textsBefore? stop
        ((texts.map fun text => (stringLiteral text).toList).flatMap literalLine ++ stop) =
      some texts := by
  induction texts with
  | nil => simp [textsBefore?]
  | cons text texts ih =>
    rw [List.map_cons, List.flatMap_cons, List.append_assoc, textsBefore?, if_neg]
    · split
      · next hsome =>
        rw [takeLiteral?_append] at hsome
        cases hsome
        rw [ih, Option.map_some, String.ofList_toList]
      · next hnone => simp [takeLiteral?_append] at hnone
    · intro hstop
      have hlength := congrArg List.length hstop
      simp only [literalLine, List.length_append, List.length_cons] at hlength
      omega

/-- **The texts are found again in the procedure that writes them.** -/
theorem writtenTexts?_of_literals (b : Binding) (texts : List String) :
    writtenTexts? b (.ofSegments b (texts.map .literal)) = some texts := by
  rw [writtenTexts?, toList_body_of_literals, List.drop_left]
  exact textsBefore?_append _ _

/-- **Literal text is neither lost in its procedure nor leaves its statement.**  Between what stands
before and behind all statements, the procedure has one line for each text, which writes a quotation
of the text.  So the texts are found again in it, and no others have the same procedure. -/
theorem generate_literals (b : Binding) (hb : isBindingName b.name = true) (texts : List String) :
    ∃ p, generate b (texts.map .literal) = .ok p ∧
      (∃ quotes, p.body.toList =
          (prologue b).toList ++ (quotes.flatMap literalLine ++ (epilogue b).toList) ∧
        List.Forall₂ Quotes quotes texts) ∧
      writtenTexts? b p = some texts ∧
      ∀ others : List String, generate b (others.map .literal) = .ok p → others = texts := by
  have hgenerate (others : List String) : generate b (others.map .literal) =
      .ok (.ofSegments b (others.map .literal)) := by
    rw [generate, Binding.check, if_pos hb]
    rfl
  refine ⟨_, hgenerate texts, ⟨_, toList_body_of_literals b texts, ?_⟩,
    writtenTexts?_of_literals b texts, fun others hothers => ?_⟩
  · rw [List.forall₂_map_left_iff, List.forall₂_same]
    exact fun text _ => quotes_stringLiteral text
  · rw [hgenerate, Except.ok.injEq] at hothers
    have htexts := writtenTexts?_of_literals b others
    rw [hothers, writtenTexts?_of_literals b texts] at htexts
    exact (Option.some.inj htexts).symm

/-- Quotes, backslashes and line breaks of a text stay within its line. -/
theorem generate_of_quotes :
    ∃ p, generate .default (["say \"hi\" \\\n", "\"); f(\""].map .literal) = .ok p ∧
      writtenTexts? .default p = some ["say \"hi\" \\\n", "\"); f(\""] ∧
      (stringLiteral "say \"hi\" \\\n" = "\"say \\\"hi\\\" \\\\\\n\"" ∧
        stringLiteral "\"); f(\"" = "\"\\\"); f(\\\"\"") := by
  obtain ⟨p, hp, -, htexts, -⟩ := generate_literals .default (by decide +kernel)
    ["say \"hi\" \\\n", "\"); f(\""]
  exact ⟨p, hp, htexts, by decide +kernel⟩

end Script

end AtTemplate
