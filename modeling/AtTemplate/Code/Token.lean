import AtTemplate.Text.Search

/-!
# AtTemplate.Code.Token

The tokens of embedded code.  Code is never parsed; a scan needs only its delimiters, the
characters at which markup may begin, and its strings and comments, which are one token each,
so that a delimiter inside them is not seen.

* `Reading.append_of_read` — a token is cut from the head of the text;
* `Reading.ne_nil_of_read` — and it is never empty;
* `Reading.read_eq_finished_iff` — reading finishes at the end of the text only.
-/

namespace AtTemplate.Code

/-- The kinds of token. -/
inductive Token where
  | parenOpen
  | parenClose
  | braceOpen
  | braceClose
  | bracketOpen
  | bracketClose
  | at
  | angleOpen
  | newline
  | space
  | word
  | doubleQuoted
  | singleQuoted
  | backQuoted
  | lineComment
  | blockComment
  | slash
  | other
  deriving DecidableEq, Repr

/-- What stands at the head of a text of code. -/
inductive Reading where
  /-- The text is empty. -/
  | finished
  /-- A quotation or a block comment begins that has no end. -/
  | unclosed
  /-- A token, and the text after it. -/
  | token (kind : Token) (text rest : List Char)
  deriving DecidableEq, Repr

/-! ## The longer tokens -/

/-- Blanks within a line of code. -/
def isSpace (c : Char) : Bool :=
  c == ' ' || c == '\t' || c == '\r'

/-- A character that a word of code may start with; ASCII only. -/
def isWordStart (c : Char) : Bool :=
  c.isAlpha || c == '_' || c == '$'

/-- A character that a word of code may go on with; ASCII only. -/
def isWordChar (c : Char) : Bool :=
  c.isAlphanum || c == '_' || c == '$'

/-- Divides the text after an opening quote behind the quote that closes it.  A backslash
takes the next character with it, whatever that is; only back quotes go over a line break. -/
def closeQuotation (quote : Char) : List Char → Option (List Char × List Char)
  | [] => none
  | c :: text =>
    if c = quote then some ([c], text)
    else if c = '\\' then
      match text with
      | [] => none
      | d :: text => (closeQuotation quote text).map fun (s, rest) => (c :: d :: s, rest)
    else if c = '\n' ∧ quote ≠ '\x60' then none
    else (closeQuotation quote text).map fun (s, rest) => (c :: s, rest)

/-- Divides the text after the opening mark of a block comment behind its closing mark.  A
star that is not part of a closing mark takes the next character with it, so that a second
star cannot begin one. -/
def closeComment : List Char → Option (List Char × List Char)
  | [] => none
  | c :: text =>
    if c = '*' then
      match text with
      | [] => none
      | d :: text =>
        if d = '/' then some ([c, d], text)
        else (closeComment text).map fun (s, rest) => (c :: d :: s, rest)
    else (closeComment text).map fun (s, rest) => (c :: s, rest)

/-- The token that the leading characters of one class make up. -/
def run (kind : Token) (inClass : Char → Bool) (text : List Char) : Reading :=
  .token kind (text.takeWhile inClass) (text.dropWhile inClass)

/-- The token that ends where `closed?` divides the text behind the opening mark. -/
def enclosed (kind : Token) (opening : List Char) (closed? : Option (List Char × List Char)) :
    Reading :=
  match closed? with
  | none => .unclosed
  | some (s, rest) => .token kind (opening ++ s) rest

/-- The token kind of a character that always stands alone. -/
def single? : Char → Option Token
  | '(' => some .parenOpen
  | ')' => some .parenClose
  | '{' => some .braceOpen
  | '}' => some .braceClose
  | '[' => some .bracketOpen
  | ']' => some .bracketClose
  | '@' => some .at
  | '<' => some .angleOpen
  | '\n' => some .newline
  | _ => none

/-- The kind of the quotation that a quote opens. -/
def quoted? : Char → Option Token
  | '"' => some .doubleQuoted
  | '\'' => some .singleQuoted
  | '\x60' => some .backQuoted
  | _ => none

/-- What a slash begins. -/
def readSlash : List Char → Reading
  | '/' :: text => run .lineComment (· ≠ '\n') ('/' :: '/' :: text)
  | '*' :: text => enclosed .blockComment ['/', '*'] (closeComment text)
  | text => .token .slash ['/'] text

/-- Reads the longest token at the head of a text. -/
def read : List Char → Reading
  | [] => .finished
  | c :: text =>
    match single? c, quoted? c with
    | some kind, _ => .token kind [c] text
    | none, some kind => enclosed kind [c] (closeQuotation c text)
    | none, none =>
      if c = '/' then readSlash text
      else if isSpace c then run .space isSpace (c :: text)
      else if isWordStart c then run .word isWordChar (c :: text)
      else .token .other [c] text

/-! ## A token is cut from the head of its text -/

/-- What a quotation takes and what is left are the text. -/
theorem append_of_closeQuotation {quote : Char} {text s rest : List Char}
    (h : closeQuotation quote text = some (s, rest)) : s ++ rest = text := by
  fun_induction closeQuotation quote text generalizing s <;> grind [Option.map_eq_some_iff]

/-- What a comment takes and what is left are the text. -/
theorem append_of_closeComment {text s rest : List Char}
    (h : closeComment text = some (s, rest)) : s ++ rest = text := by
  fun_induction closeComment text generalizing s <;> grind [Option.map_eq_some_iff]

namespace Reading

/-- What a run takes and what is left are the text. -/
theorem append_of_run {kind k : Token} {inClass : Char → Bool} {text s rest : List Char}
    (h : run kind inClass text = .token k s rest) : s ++ rest = text := by
  simp only [run, token.injEq] at h
  obtain ⟨_, rfl, rfl⟩ := h
  exact List.takeWhile_append_dropWhile

/-- What is enclosed and what is left are the text behind the opening mark, and the mark. -/
theorem append_of_enclosed {kind k : Token} {opening text s rest : List Char}
    {closed? : Option (List Char × List Char)}
    (hc : ∀ t r, closed? = some (t, r) → t ++ r = text)
    (h : enclosed kind opening closed? = .token k s rest) : s ++ rest = opening ++ text := by
  unfold enclosed at h
  split at h
  · simp at h
  · next t r => simp only [token.injEq] at h; grind

/-- A token that begins with a slash and what is left are the text. -/
theorem append_of_readSlash {k : Token} {text s rest : List Char}
    (h : readSlash text = .token k s rest) : s ++ rest = '/' :: text := by
  unfold readSlash at h
  split at h
  · exact append_of_run h
  · exact append_of_enclosed (fun _ _ => append_of_closeComment) h
  · simp only [token.injEq] at h; grind

/-- A token is cut from the head of the text. -/
theorem append_of_read {k : Token} {text s rest : List Char} (h : read text = .token k s rest) :
    s ++ rest = text := by
  unfold read at h
  split at h
  · simp at h
  · split at h
    · simp only [token.injEq] at h; grind
    · exact append_of_enclosed (fun _ _ => append_of_closeQuotation) h
    · split at h
      · next hc => rw [hc]; exact append_of_readSlash h
      · split at h
        · exact append_of_run h
        · split at h
          · exact append_of_run h
          · simp only [token.injEq] at h; grind

theorem ne_nil_of_readSlash {k : Token} {text s rest : List Char}
    (h : readSlash text = .token k s rest) : s ≠ [] := by
  unfold readSlash at h
  split at h
  · simp only [run, token.injEq] at h; grind [List.takeWhile_cons]
  · unfold enclosed at h; grind
  · grind

/-- A token is never empty. -/
theorem ne_nil_of_read {k : Token} {text s rest : List Char} (h : read text = .token k s rest) :
    s ≠ [] := by
  unfold read at h
  split at h
  · simp at h
  · split at h
    · grind
    · unfold enclosed at h; grind
    · split at h
      · exact ne_nil_of_readSlash h
      · unfold run at h
        have hw : ∀ c, isWordStart c → isWordChar c := by
          intro c; simp only [isWordStart, isWordChar, Char.isAlphanum, Bool.or_eq_true]; grind
        grind [List.takeWhile_cons]

/-- A character that always stands alone is told from its kind. -/
theorem eq_of_single? {c d : Char} {k : Token} (hc : single? c = some k)
    (hd : single? d = some k) : c = d := by
  unfold single? at hc hd
  grind

/-- A token of a kind that always stands alone is its one character. -/
theorem eq_of_read_single {c : Char} {k : Token} {text s rest : List Char}
    (hc : single? c = some k) (h : read text = .token k s rest) : s = [c] ∧ text = c :: rest := by
  -- the longer tokens are of other kinds
  have hk : k ∉ [.doubleQuoted, .singleQuoted, .backQuoted, .lineComment, .blockComment, .slash,
      .space, .word, .other] := by
    unfold single? at hc
    split at hc <;> cases hc <;> decide
  simp only [List.mem_cons, not_or] at hk
  unfold read at h
  split at h
  · cases h
  · next d text =>
    split at h
    · next hd =>
      cases h
      rw [eq_of_single? hc hd]
      exact ⟨rfl, rfl⟩
    · next kind _ hq =>
      unfold quoted? at hq
      unfold enclosed at h
      grind
    · unfold readSlash enclosed run at h
      grind

/-- Reading finishes at the end of the text only. -/
theorem read_eq_finished_iff {text : List Char} : read text = .finished ↔ text = [] := by
  constructor
  · intro h
    unfold read at h
    split at h
    · rfl
    · unfold readSlash enclosed run at h
      grind
  · rintro rfl
    rfl

/-- What follows a token is shorter than the text it was read from. -/
theorem length_lt_of_read {k : Token} {text s rest : List Char}
    (h : read text = .token k s rest) : rest.length < text.length := by
  have hs := List.length_pos_iff.2 (ne_nil_of_read h)
  rw [← append_of_read h, List.length_append]
  omega

end Reading

end AtTemplate.Code
