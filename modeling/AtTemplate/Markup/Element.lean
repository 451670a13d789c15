import AtTemplate.Error

/-!
# AtTemplate.Markup.Element

The elements that are open in a stretch of markup, innermost first.  A closing tag ends the
innermost one and has to bear its name.
-/

namespace AtTemplate.Markup

/-- An element as its opening tag shows it. -/
structure Element where
  name : String
  selfClosing : Bool
  span : Span
  deriving DecidableEq, Repr

/-- The open elements, innermost first. -/
structure OpenElements where
  elements : List Element
  deriving DecidableEq, Repr

namespace OpenElements

/-- No element is open. -/
def empty : OpenElements :=
  ⟨[]⟩

/-- An opening tag opens an element. -/
def openElement (o : OpenElements) (name : String) (span : Span) : OpenElements :=
  ⟨⟨name, false, span⟩ :: o.elements⟩

/-- A closing tag ends the innermost element.  When the name is another one the tag is
refused, and the element is ended all the same. -/
def close (o : OpenElements) (name : String) (span : Span) :
    Except TemplateError Element × OpenElements :=
  match o.elements with
  | [] => (.error (.strayClosingTag none name span), o)
  | e :: elements =>
    (if e.name = name then .ok e else .error (.strayClosingTag (some e.name) name span),
      ⟨elements⟩)

/-- Whether no element is open. -/
def isEmpty (o : OpenElements) : Bool :=
  o.elements.isEmpty

/-- The number of open elements. -/
def depth (o : OpenElements) : Nat :=
  o.elements.length

/-- The element that was opened last. -/
def innermost? (o : OpenElements) : Option Element :=
  o.elements.head?

/-- A closing tag of the same name undoes an opening tag. -/
theorem close_openElement (o : OpenElements) (name : String) (s t : Span) :
    (o.openElement name s).close name t = (.ok ⟨name, false, s⟩, o) := by
  simp [openElement, close]

end OpenElements

end AtTemplate.Markup
