import AtTemplate.Code.Token
import AtTemplate.Error
import AtTemplate.Source.Cursor

/-!
# AtTemplate.Code.Group

Where a group of code ends and where the body of a clause begins.  Both walk from token to
token, so that delimiters inside strings and comments do not count.

* `next_lt` — each token brings the walk forward;
* `reaches_of_findClosing`, `reaches_of_findBody` — what is found lies ahead of
  where the search began, and is a delimiter of the kind looked for.
-/

namespace AtTemplate.Code

/-! ## Walking from token to token -/

/-- The token at a cursor and the cursor behind it; none at the end of the text.  A quotation
or comment without an end is an error at its first character. -/
def next (c : Cursor) : Except TemplateError (Option (Token × Cursor)) :=
  match read c.rest with
  | .finished => .ok none
  | .unclosed => .error (.unclosed .quotation (c.span 1))
  | .token kind text _ => .ok (some (kind, c.advance text.length))

/-- Behind a token stands what is left of the text once the token is cut off. -/
theorem next_eq_some {c d : Cursor} {kind : Token} (h : next c = .ok (some (kind, d))) :
    ∃ text rest, read c.rest = .token kind text rest ∧ d = c.advance text.length ∧
      text ++ rest = c.rest := by
  unfold next at h
  split at h
  · simp at h
  · simp at h
  · next k t r hr =>
    simp only [Except.ok.injEq, Option.some.injEq, Prod.mk.injEq] at h
    obtain ⟨rfl, rfl⟩ := h
    exact ⟨t, r, hr, rfl, Reading.append_of_read hr⟩

/-- Each token brings the walk forward. -/
theorem next_lt {c d : Cursor} {kind : Token} (h : next c = .ok (some (kind, d))) :
    d.rest.length < c.rest.length := by
  obtain ⟨text, rest, hr, rfl, ht⟩ := next_eq_some h
  have := Reading.length_lt_of_read hr
  simp only [Cursor.rest_advance, List.length_drop]
  have hne := List.length_pos_iff.2 (Reading.ne_nil_of_read hr)
  omega

/-! ## The end of a group -/

/-- The pairs of delimiters. -/
inductive Delimiter where
  | paren
  | bracket
  | brace
  deriving DecidableEq, Repr

namespace Delimiter

/-- The token that opens a group. -/
def opening : Delimiter → Token
  | .paren => .parenOpen
  | .bracket => .bracketOpen
  | .brace => .braceOpen

/-- The token that closes a group. -/
def closing : Delimiter → Token
  | .paren => .parenClose
  | .bracket => .bracketClose
  | .brace => .braceClose

/-- What is left open when a group has no end. -/
def construct : Delimiter → Construct
  | .paren => .parenthesis
  | .bracket => .bracket
  | .brace => .block

end Delimiter

/-- The place of the delimiter that closes the innermost of `depth + 1` open groups of one
kind and all that enclose it, when there is one.  Delimiters of other kinds do not count. -/
def closing? (kind : Delimiter) (depth : Nat) (c : Cursor) :
    Except TemplateError (Option Cursor) :=
  match _h : next c with
  | .error e => .error e
  | .ok none => .ok none
  | .ok (some (token, d)) =>
    if token = kind.opening then closing? kind (depth + 1) d
    else if token = kind.closing then
      match depth with
      | 0 => .ok (some c)
      | depth + 1 => closing? kind depth d
    else closing? kind depth d
termination_by c.rest.length
decreasing_by all_goals exact next_lt ‹_›

/-- The search for a closing delimiter, one token at a time. -/
theorem closing?_eq (kind : Delimiter) (depth : Nat) (c : Cursor) :
    closing? kind depth c =
      match next c with
      | .error e => .error e
      | .ok none => .ok none
      | .ok (some (token, d)) =>
        if token = kind.opening then closing? kind (depth + 1) d
        else if token = kind.closing then
          match depth with
          | 0 => .ok (some c)
          | depth + 1 => closing? kind depth d
        else closing? kind depth d := by
  rw [closing?]
  split
  · next hn => rw [hn]
  · next hn => rw [hn]
  · next hn => cases depth <;> simp only [hn]

/-- The place of the delimiter that closes the group whose opening delimiter stands just
before the cursor. -/
def findClosing (kind : Delimiter) (c : Cursor) : Except TemplateError Cursor :=
  match closing? kind 0 c with
  | .error e => .error e
  | .ok (some d) => .ok d
  | .ok none => .error (.unclosed kind.construct ⟨c.offset - 1, c.offset⟩)

/-! ## The body of a clause -/

/-- The place of the first opening brace outside `parens` open parentheses, when there is
one. -/
def body? (parens : Int) (c : Cursor) : Except TemplateError (Option Cursor) :=
  match _h : next c with
  | .error e => .error e
  | .ok none => .ok none
  | .ok (some (token, d)) =>
    match token with
    | .parenOpen => body? (parens + 1) d
    | .parenClose => body? (parens - 1) d
    | .braceOpen => if parens ≤ 0 then .ok (some c) else body? parens d
    | _ => body? parens d
termination_by c.rest.length
decreasing_by all_goals exact next_lt ‹_›

/-- The search for the body of a clause, one token at a time. -/
theorem body?_eq (parens : Int) (c : Cursor) :
    body? parens c =
      match next c with
      | .error e => .error e
      | .ok none => .ok none
      | .ok (some (token, d)) =>
        match token with
        | .parenOpen => body? (parens + 1) d
        | .parenClose => body? (parens - 1) d
        | .braceOpen => if parens ≤ 0 then .ok (some c) else body? parens d
        | _ => body? parens d := by
  rw [body?]
  split
  · next hn => rw [hn]
  · next hn => rw [hn]
  · next token _ hn => simp only [hn]; cases token <;> rfl

/-- The place of the brace that opens the body of a clause whose header begins at the cursor.
Braces inside the parentheses of the header do not count.  When there is no body, the error
points at `keyword`. -/
def findBody (keyword : Span) (c : Cursor) : Except TemplateError Cursor :=
  match body? 0 c with
  | .error e => .error e
  | .ok (some d) => .ok d
  | .ok none => .error (.unclosed .block keyword)

/-! ## What is found lies ahead -/

/-- A token of the given kind stands at the cursor. -/
def StandsAt (kind : Token) (c : Cursor) : Prop :=
  ∃ text rest, read c.rest = .token kind text rest

/-- Where a token stands that is always a single character, that character stands. -/
theorem rest_of_standsAt {kind : Token} {x : Char} {c : Cursor} (hx : single? x = some kind)
    (h : StandsAt kind c) : ∃ rest, c.rest = x :: rest := by
  obtain ⟨text, rest, hr⟩ := h
  exact ⟨rest, (Reading.eq_of_read_single hx hr).2⟩

/-- Something stands where a token does. -/
theorem StandsAt.rest_ne_nil {kind : Token} {c : Cursor} (h : StandsAt kind c) : c.rest ≠ [] := by
  obtain ⟨s, rest, hr⟩ := h
  intro hnil
  rw [hnil] at hr
  cases hr

/-- The next token stands at the cursor. -/
theorem standsAt_of_next {c d : Cursor} {kind : Token} (h : next c = .ok (some (kind, d))) :
    StandsAt kind c := by
  obtain ⟨text, rest, hr, _⟩ := next_eq_some h
  exact ⟨text, rest, hr⟩

/-- The next token leads ahead. -/
theorem reaches_of_next {c d : Cursor} {kind : Token} (h : next c = .ok (some (kind, d))) :
    c.Reaches d := by
  obtain ⟨text, _, _, hd, _⟩ := next_eq_some h
  exact ⟨text.length, hd⟩

/-- A closing delimiter is found ahead, and stands there. -/
theorem reaches_of_closing? {kind : Delimiter} {depth : Nat} {c d : Cursor}
    (h : closing? kind depth c = .ok (some d)) : c.Reaches d ∧ StandsAt kind.closing d := by
  fun_induction closing? kind depth c <;>
    grind [Cursor.Reaches.refl, → Cursor.Reaches.trans, → reaches_of_next, → standsAt_of_next]

/-- The end of a group lies ahead and is its closing delimiter. -/
theorem reaches_of_findClosing {kind : Delimiter} {c d : Cursor}
    (h : findClosing kind c = .ok d) : c.Reaches d ∧ StandsAt kind.closing d := by
  unfold findClosing at h
  split at h <;> simp at h
  next hc => subst h; exact reaches_of_closing? hc

/-- The brace of a body is found ahead, and stands there. -/
theorem reaches_of_body? {parens : Int} {c d : Cursor} (h : body? parens c = .ok (some d)) :
    c.Reaches d ∧ StandsAt .braceOpen d := by
  fun_induction body? parens c <;>
    grind [Cursor.Reaches.refl, → Cursor.Reaches.trans, → reaches_of_next, → standsAt_of_next]

/-- The body of a clause lies ahead and begins with a brace. -/
theorem reaches_of_findBody {keyword : Span} {c d : Cursor}
    (h : findBody keyword c = .ok d) : c.Reaches d ∧ StandsAt .braceOpen d := by
  unfold findBody at h
  split at h <;> simp at h
  next hc => subst h; exact reaches_of_body? hc

end AtTemplate.Code
