import AtTemplate.Source.Span

/-!
# AtTemplate.Error

Why a template is refused, and the words for it.
-/

namespace AtTemplate

/-- The constructs of a template that have an end of their own. -/
inductive Construct where
  | comment
  | parenthesis
  | bracket
  | block
  | quotation
  | tag
  | attributeValue
  deriving DecidableEq, Repr

/-- How a construct is called. -/
def Construct.label : Construct → String
  | .comment => "comment"
  | .parenthesis => "parenthesis"
  | .bracket => "bracket"
  | .block => "block"
  | .quotation => "string literal"
  | .tag => "tag"
  | .attributeValue => "attribute value"

/-- All constructs. -/
def Construct.all : List Construct :=
  [.comment, .parenthesis, .bracket, .block, .quotation, .tag, .attributeValue]

/-- Why a template is refused. -/
inductive TemplateError where
  /-- A construct is opened and never closed. -/
  | unclosed (construct : Construct) (span : Span)
  /-- A closing tag does not belong to the element that is open. -/
  | strayClosingTag (expected : Option String) (found : String) (span : Span)
  /-- A tag is written wrongly. -/
  | malformedTag (detail : String) (span : Span)
  /-- The model cannot be bound to this name. -/
  | invalidBindingName (name : String)
  deriving DecidableEq, Repr

namespace TemplateError

/-- The place of the source that is at fault. -/
def span? : TemplateError → Option Span
  | .unclosed _ span => some span
  | .strayClosingTag _ _ span => some span
  | .malformedTag _ span => some span
  | .invalidBindingName _ => none

/-- The error as one line of text. -/
def message : TemplateError → String
  | .unclosed construct span =>
    "unmatched " ++ construct.label ++ " opened at " ++ toString span.start ++ ".."
      ++ toString span.stop
  | .strayClosingTag (some expected) found _ =>
    "invalid tag: found </" ++ found ++ "> while <" ++ expected ++ "> is open"
  | .strayClosingTag none found _ =>
    "invalid tag: found </" ++ found ++ "> with no open tag"
  | .malformedTag detail span =>
    "malformed html at " ++ toString span.start ++ ".." ++ toString span.stop ++ ": " ++ detail
  | .invalidBindingName name => "invalid binding name '" ++ name ++ "'"

end TemplateError

end AtTemplate
