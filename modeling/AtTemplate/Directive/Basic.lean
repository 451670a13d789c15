import AtTemplate.Directive.Keyword
import AtTemplate.Source.Cursor

/-!
# AtTemplate.Directive.Basic

What an at sign introduces.  The character after it decides, and before a name also the one
in front of it, so that an e-mail address is plain text.
-/

namespace AtTemplate

open Text

/-- What an at sign introduces. -/
inductive Directive where
  /-- A second at sign: one at sign of text. -/
  | doubled
  /-- A colon: the rest of the line is text. -/
  | lineEscape
  /-- A star: a comment. -/
  | comment
  /-- A parenthesis: an expression up to the closing one. -/
  | explicit
  /-- An opening brace: a block of code. -/
  | anonymousBlock
  /-- A closing brace: the end of the innermost block. -/
  | closeBlock
  /-- An angle bracket: markup within code. -/
  | markup
  /-- A keyword that begins a statement. -/
  | clause (keyword : Keyword)
  /-- A name: an expression that goes on with members, indices and calls. -/
  | implicit
  /-- Nothing: the at sign is text. -/
  | plain
  deriving DecidableEq, Repr

namespace Directive

/-- A character after which the at sign and a name read as an e-mail address. -/
def endsMailbox (c : Char) : Bool :=
  isAlphanumeric c || c == '_'

/-- What an at sign introduces between the character `previous?` and the text `after`. -/
def resolve (previous? : Option Char) (after : List Char) : Directive :=
  match after with
  | [] => .plain
  | '@' :: _ => .doubled
  | ':' :: _ => .lineEscape
  | '*' :: _ => .comment
  | '(' :: _ => .explicit
  | '{' :: _ => .anonymousBlock
  | '}' :: _ => .closeBlock
  | '<' :: _ => .markup
  | c :: _ =>
    if !isNameStart c then .plain
    else if previous?.any endsMailbox then .plain
    else
      match Keyword.ofLetters? (takeName after) with
      | some keyword => if keyword.startsBlock then .clause keyword else .implicit
      | none => .implicit

/-- No character of a name is enough to tell a directive. -/
theorem resolve_of_isNameChar {c : Char} (hc : isNameChar c = true) (previous? : Option Char)
    (rest : List Char) :
    resolve previous? (c :: rest) =
      if !isNameStart c then .plain
      else if previous?.any endsMailbox then .plain
      else
        match Keyword.ofLetters? (takeName (c :: rest)) with
        | some keyword => if keyword.startsBlock then .clause keyword else .implicit
        | none => .implicit := by
  unfold resolve
  split
  case h_1 hnil => cases hnil
  case h_9 =>
    next hx =>
      cases hx
      rfl
  all_goals
    next hx =>
      cases hx
      exact absurd hc (by decide)

/-- Only whether an e-mail address might end in it matters of the character before an at sign. -/
theorem resolve_congr {previous? previous?' : Option Char}
    (h : previous?.any endsMailbox = previous?'.any endsMailbox) (text : List Char) :
    resolve previous? text = resolve previous?' text := by
  unfold resolve
  rw [h]

/-- Of the text behind an at sign matter its first character and the name that it begins with. -/
theorem resolve_cons_congr {c : Char} {text text' : List Char}
    (h : takeName (c :: text') = takeName (c :: text)) (previous? : Option Char) :
    resolve previous? (c :: text') = resolve previous? (c :: text) := by
  unfold resolve
  rw [h]
  split <;> simp_all

/-- The character after the at sign by which a directive is told, if one is enough. -/
def mark? : Directive → Option Char
  | .doubled => some '@'
  | .lineEscape => some ':'
  | .comment => some '*'
  | .explicit => some '('
  | .anonymousBlock => some '{'
  | .closeBlock => some '}'
  | .markup => some '<'
  | .clause _ | .implicit | .plain => none

/-- A directive that is told by a character begins with it. -/
theorem eq_cons_of_mark? {previous? : Option Char} {after : List Char} {c : Char}
    (h : (resolve previous? after).mark? = some c) : ∃ rest, after = c :: rest := by
  unfold resolve at h
  split at h
  case h_9 =>
    -- before a name, or where nothing is introduced, no character is enough
    split at h
    · cases h
    · split at h
      · cases h
      · split at h
        · split at h <;> cases h
        · cases h
  all_goals
    cases h
    try exact ⟨_, rfl⟩

/-- A clause is told by its keyword. -/
theorem takeName_of_clause {previous? : Option Char} {after : List Char} {keyword : Keyword}
    (h : resolve previous? after = .clause keyword) : takeName after = keyword.letters := by
  unfold resolve at h
  split at h <;> try cases h
  split at h
  · cases h
  · split at h
    · cases h
    · split at h
      · next hk =>
        split at h <;> cases h
        exact (Keyword.ofLetters?_eq_some_iff.1 hk).symm
      · cases h

/-- What the at sign at a cursor introduces. -/
def ofCursor (c : Cursor) : Directive :=
  resolve c.previous? c.rest.tail

/-- The directives that begin a block of code. -/
def opensBlock : Directive → Bool
  | .anonymousBlock | .clause _ => true
  | _ => false

end Directive

end AtTemplate
