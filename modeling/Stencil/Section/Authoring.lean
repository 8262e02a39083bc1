import Stencil.Section.Marker
import Stencil.Template.Basic
import Stencil.InvalidInput

/-! Adding sections to a template. A template records each section once, with its latest rules. -/

namespace Stencil

open Section

/-- The section as it is written between comments. -/
def Section.block (name content : String) : String :=
  "<!-- BEGIN " ++ name ++ " -->" ++ content ++ "<!-- END " ++ name ++ " -->"

namespace Template

/-- Adds a section at the end of the content, two lines below what is there. The rules of an earlier
section of that name are forgotten. -/
def appendSection (t : Template) (name content : String) (rules : List Rule) : Template :=
  let block := Section.block name content
  { t with
    content := if t.content.isEmpty then block else t.content ++ "\n\n" ++ block
    sections := t.sections.filter (fun s => s.name ≠ name) ++ [⟨name, rules⟩] }

/-- Adds a section. The name loses the blanks around it and may then hold characters of names only;
neither the name nor the content may be blank. -/
def addSection (t : Template) (name content : String) (rules : List Rule) :
    Except InvalidInput Template :=
  if Text.allBlank name.toList then .error .noSectionName
  else if Text.allBlank content.toList then .error .noSectionContent
  else
    let name := String.ofList (Text.strip name.toList)
    if name.toList.all nameChar.has then .ok (t.appendSection name content rules)
    else .error (.badSectionName name)

end Template

end Stencil
