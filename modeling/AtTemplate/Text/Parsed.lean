/-!
# AtTemplate.Text.Parsed

What a reader of a part of a text returns: the part's value and the shorter text behind it.
-/

namespace AtTemplate.Text

/-- A part that has been read from the head of a text, and the shorter text behind it. -/
structure Parsed (α : Type) (text : List Char) where
  value : α
  rest : List Char
  lt : rest.length < text.length

/-- A part of the text that ends a longer text, as a part of that text. -/
def Parsed.widen {text after : List Char} (f : α → β) (p : Parsed α after)
    (h : after.length ≤ text.length) : Parsed β text :=
  ⟨f p.value, p.rest, by have := p.lt; omega⟩

end AtTemplate.Text
