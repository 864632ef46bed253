import Gazette.Json.Reader
import Gazette.Libraries
import Gazette.Scaffold.Error
import Gazette.Scaffold.Render
import Gazette.Scaffold.Template

/-!
# Generating a project

The checker reports what a set of templates would leave open, and the generator makes the files. A
strict generator refuses what the checker reports as unresolved.
-/
namespace Gazette.Scaffold
open Gazette.Files

structure ProjectFile where
  /-- Relative to the project. -/
  path : Path
  contents : String
  /-- The name of the template. -/
  template : String
  unresolved : List String
deriving DecidableEq, Repr, Inhabited

structure CheckReport where
  /-- The templates with names that stay unresolved, and these names. -/
  unresolved : List (String × List String) := []
  /-- The parameters that no template mentions. -/
  unused : List String := []
  /-- The parameters whose names no template could mention. -/
  invalidNames : List String := []
deriving DecidableEq, Repr, Inhabited

def CheckReport.isClean (report : CheckReport) : Bool :=
  report.unresolved.isEmpty && report.unused.isEmpty && report.invalidNames.isEmpty

/-- The names that a template mentions, in its path or its contents. -/
def Template.names (template : Template) : List String :=
  (placeholders template.output ++ placeholders template.contents).map (·.name)

/-- The names that stay unresolved in a template: first those in its path, then the others. -/
def Template.unresolved (template : Template) (params : Params) : List String :=
  appendNew (render template.output params).unresolved
    (render template.contents params).unresolved

def check (templates : TemplateSet) (params : Params) : CheckReport where
  unresolved := templates.filterMap fun template =>
    let names := template.unresolved params
    if names = [] then none else some (template.fileName, names)
  unused := params.names.filter fun name =>
    isParamName name && !(templates.flatMap Template.names).contains name
  invalidNames := params.names.filter fun name => !isParamName name

/-- Makes the file of one template. -/
def Template.generate [Libraries] (template : Template) (params : Params) (strict : Bool) :
    Except ScaffoldError ProjectFile := do
  let path : Path := ⟨(render template.output params).text⟩
  if !path.isInside then .error (.unsafePath path)
  let contents := (render template.contents params).text
  let unresolved := template.unresolved params
  if strict && !unresolved.isEmpty then .error (.unresolved template.fileName unresolved)
  if path.extension? = some "json" && !Json.isValid contents then
    .error (.invalidJson path (Libraries.jsonFault contents))
  .ok { path, contents, template := template.fileName, unresolved }

/-- Makes the files of all templates, or none. -/
def generate [Libraries] (templates : TemplateSet) (params : Params) (strict : Bool) :
    Except ScaffoldError (List ProjectFile) :=
  templates.mapM fun template => template.generate params strict

end Gazette.Scaffold
