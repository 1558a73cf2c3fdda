import OntologyStructs.Json.Printer
import OntologyStructs.Struct

namespace OntologyStructs

namespace Field

def goType (f : Field) : Text := if f.refers then "[]*" ++ f.typeName else f.typeName

def goTag (f : Field) : Text := "`json:" ++ Json.asciiString f.tag ++ "`"

end Field

namespace GoFile

def rows (fields : List Field) : List Text :=
  let nameWidth := ((fields.map fun f ↦ f.name.length).max?).getD 0
  let typeWidth := ((fields.map fun f ↦ f.goType.length).max?).getD 0
  fields.map fun f ↦
    f.name.padRight nameWidth ++ " " ++ f.goType.padRight typeWidth ++ " " ++ f.goTag

def docLine (line : Text) : Text := if line.isEmpty then "//" else "// " ++ line

def structLines (s : Struct) : List Text :=
  [] :: s.doc.map docLine ++ ["type " ++ s.name ++ " struct \x7b"]
    ++ (rows s.fields).map (("\t" : Text) ++ ·) ++ [("\x7d" : Text)]

def lines (package : Text) (ss : List Struct) : List Text :=
  [("// Code generated by schemagen. DO NOT EDIT." : Text), [], "package " ++ package]
    ++ ss.flatMap structLines

def render (package : Text) (ss : List Struct) : Text :=
  (lines package ss).flatMap fun line ↦ line ++ "\n"

/-- Whether Go takes the text as a name. A line feed at the end is let through. -/
def isIdentifier (t : Text) : Bool :=
  match t.withoutFinalLineFeed with
  | [] => false
  | c :: r => (c.isLetter || c = '_') && r.all fun c ↦ c.isAlphanumeric || c = '_'

def nameRecord? (s : Struct) : Option Record :=
  if isIdentifier s.name then none
  else some ⟨.warning, .goFile,
    "Type name " ++ s.name.quoted ++ " for " ++ s.source ++ " is not a valid Go identifier"⟩

def log (package : Text) (ss : List Struct) : Log :=
  ss.filterMap nameRecord? ++ [⟨.info, .goFile,
    "Rendered " ++ Text.ofNat ss.length ++ " Go declarations ("
      ++ Text.ofNat (render package ss).length ++ " bytes)"⟩]

end GoFile

end OntologyStructs
