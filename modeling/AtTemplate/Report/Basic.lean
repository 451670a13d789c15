import AtTemplate.Error
import AtTemplate.Report.Drawing
import AtTemplate.Text.Bytes

/-!
# AtTemplate.Report.Basic

The report of an error: its message, and the place of the source that is at fault with a note
on what is wrong there.
-/

namespace AtTemplate

open Report Text

namespace TemplateError

/-- What is noted at the place that is at fault. -/
def note : TemplateError → String
  | .unclosed construct _ => "this " ++ construct.label ++ " is never closed"
  | .strayClosingTag (some expected) _ _ => "expected </" ++ expected ++ "> here"
  | .strayClosingTag none _ _ => "no element is open here"
  | e => e.message

/-- The report of an error in a source.  The frame numbers characters with the byte offsets of
the error, cut off at the byte length of the source. -/
def report (e : TemplateError) (source filename : String) : String :=
  let message := "Error: " ++ e.message
  let rows :=
    match e.span? with
    | none => []
    | some span =>
      let bytes := source.utf8ByteSize
      frameRows filename source.toList ⟨min span.start bytes, min span.stop bytes, e.note⟩
  String.join ((message :: rows).map (· ++ "\n"))

end TemplateError

end AtTemplate
