import Gazette.Scaffold.Placeholder

/-!
# Templates

A project is made from three templates, each of which gives the path of one file and its contents.
The contents can be replaced, the paths cannot.
-/
namespace Gazette.Scaffold

structure Template where
  /-- The name under which the template can be replaced. -/
  fileName : String
  /-- The path of the file, relative to the project. It is a template too. -/
  output : String
  contents : String
  /-- The path of the file the contents come from, if they were replaced. -/
  source : Option String := none
deriving DecidableEq, Repr, Inhabited

abbrev TemplateSet := List Template

/-- Lines of text, each with an end. -/
def ofLines (lines : List String) : String :=
  String.join (lines.map (· ++ "\n"))

/-- A component of the interface. -/
def componentLines : List String :=
  [ "import React from 'react';",
    "",
    "const \x7b\x7b component_name|default:'App' \x7d\x7d = " ++
      "(\x7b children, className = '' \x7d) => \x7b",
    "  const classes = ['\x7b\x7b base_classes|default:'p-4' \x7d\x7d', className]" ++
      ".filter(Boolean).join(' ');",
    "",
    "  return (",
    "    <div className=\x7bclasses\x7d>",
    "      \x7bchildren\x7d",
    "    </div>",
    "  );",
    "\x7d;",
    "",
    "export default \x7b\x7b component_name|default:'App' \x7d\x7d;" ]

/-- The page that the interface is shown on. -/
def pageLines : List String :=
  [ "<!DOCTYPE html>",
    "<html lang=\"en\">",
    "  <head>",
    "    <meta charset=\"utf-8\" />",
    "    <meta name=\"viewport\" content=\"width=device-width, initial-scale=1\" />",
    "    <meta name=\"theme-color\" content=\"#000000\" />",
    "    <meta name=\"description\" content=\"\x7b\x7b description|default:" ++
      "'Web site created using create-react-app' \x7d\x7d\" />",
    "    <title>\x7b\x7b project_name \x7d\x7d</title>",
    "  </head>",
    "  <body>",
    "    <noscript>You need to enable JavaScript to run this app.</noscript>",
    "    <div id=\"root\"></div>",
    "  </body>",
    "</html>" ]

/-- The manifest of the project. -/
def manifestLines : List String :=
  [ "\x7b",
    "  \"name\": \"\x7b\x7b project_name \x7d\x7d\",",
    "  \"version\": \"\x7b\x7b version|default:'1.0.0' \x7d\x7d\",",
    "  \"private\": true,",
    "  \"description\": \"\x7b\x7b description|default:'' \x7d\x7d\",",
    "  \"author\": \"\x7b\x7b author|default:'' \x7d\x7d\",",
    "  \"license\": \"\x7b\x7b license|default:'MIT' \x7d\x7d\",",
    "  \"keywords\": [\x7b\x7b keywords|default:'\"react\"' \x7d\x7d],",
    "  \"dependencies\": \x7b",
    "    \"react\": \"^18.2.0\",",
    "    \"react-dom\": \"^18.2.0\",",
    "    \"react-scripts\": \"5.0.1\"",
    "  \x7d,",
    "  \"scripts\": \x7b",
    "    \"start\": \"react-scripts start\",",
    "    \"build\": \"react-scripts build\",",
    "    \"test\": \"react-scripts test\",",
    "    \"eject\": \"react-scripts eject\",",
    "    \"lint\": \"eslint src\"",
    "  \x7d,",
    "  \"eslintConfig\": \x7b",
    "    \"extends\": [\"react-app\", \"react-app/jest\"]",
    "  \x7d,",
    "  \"browserslist\": \x7b",
    "    \"production\": [\">0.2%\", \"not dead\", \"not op_mini all\"],",
    "    \"development\": [\"last 1 chrome version\", \"last 1 firefox version\", " ++
      "\"last 1 safari version\"]",
    "  \x7d",
    "\x7d" ]

/-- The templates that are used unless they are replaced. -/
def TemplateSet.bundled : TemplateSet :=
  [ { fileName := "component.js.tpl"
      output := "src/components/\x7b\x7b component_name|default:'App' \x7d\x7d.js"
      contents := ofLines componentLines },
    { fileName := "index.html.tpl"
      output := "public/index.html"
      contents := ofLines pageLines },
    { fileName := "package.json.tpl"
      output := "package.json"
      contents := ofLines manifestLines } ]

end Gazette.Scaffold
