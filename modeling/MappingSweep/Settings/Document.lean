import MappingSweep.Ini.Reader
import MappingSweep.Json.Reader
import MappingSweep.Json5.Reader
import MappingSweep.Ron.Reader
import MappingSweep.Toml.Reader
import MappingSweep.Yaml.Node
import MappingSweep.Yaml.Token.Lexer

/-!
# Settings documents

Settings are written in one of several formats, told apart by the extension of the file.  Whatever
the format, the top level is a table.
-/

namespace MappingSweep

abbrev SettingsTable : Type := List (String × Setting)

inductive SettingsFormat where
  | toml
  | json
  | yaml
  | ini
  | ron
  | json5
deriving DecidableEq, Repr

namespace SettingsFormat

def extensions : List (String × SettingsFormat) :=
  [("toml", .toml), ("json", .json), ("yaml", .yaml), ("yml", .yaml), ("ini", .ini), ("ron", .ron),
    ("json5", .json5)]

def ofExtension? (extension : String) : Option SettingsFormat :=
  extensions.lookup extension

end SettingsFormat

namespace Setting

def infinityWords : List String := [".inf", ".Inf", ".INF", "+.inf", "+.Inf", "+.INF"]

/-- Words that are floats by their look and cannot be read as such. -/
def unreadableFloats : List String :=
  infinityWords ++ ["-.inf", "-.Inf", "-.INF", ".nan", ".NAN"]

def prefixedInt? : List Char → Option Int
  | '0' :: 'x' :: rest => Number.readSignedWord 16 rest
  | '0' :: 'o' :: rest => Number.readSignedWord 8 rest
  | _ => none

/-- What a plain scalar without a tag stands for. -/
def ofPlain? (s : String) : Option Setting :=
  let cs := s.toList
  if s = "" ∨ s = "~" ∨ s = "null" then some .null
  else if s = "true" then some (.bool true)
  else if s = "false" then some (.bool false)
  else if s ∈ unreadableFloats then none
  else match prefixedInt? cs with
    | some n => some (.int n)
    | none =>
      match Number.readSignedWord 10 cs with
      | some n => some (.int n)
      | none =>
        match Number.readBinary64 cs with
        | some x => some (.float x)
        | none => some (.text s)

def typeTag (name : String) : Option String :=
  some ("tag:yaml.org,2002:" ++ name)

/-- What a plain scalar with a tag stands for; text that does not fit its type is null. -/
def ofTagged? (tag : Option String) (s : String) : Option Setting :=
  let cs := s.toList
  if tag = typeTag "bool" then
    some (if s = "true" then .bool true else if s = "false" then .bool false else .null)
  else if tag = typeTag "int" then
    some (((Number.readSignedWord 10 cs).map Setting.int).getD .null)
  else if tag = typeTag "float" then
    if s ∈ unreadableFloats then none
    else some (((Number.readBinary64 cs).map Setting.float).getD .null)
  else if tag = typeTag "null" then some .null
  else some (.text s)

def ofScalar? (tag : Option String) (s : String) (style : Yaml.ScalarStyle) : Option Setting :=
  if style ≠ .plain then some (.text s)
  else if tag.isNone then ofPlain? s
  else ofTagged? tag s

def keyText? : Setting → Option String
  | .text s => some s
  | .int n => some (Number.decimalInt n)
  | _ => none

def ofNode? (anchored : List (Nat × Yaml.Node)) : Nat → Yaml.Node → Option Setting
  | 0, _ => none
  | _ + 1, .scalar tag s style => ofScalar? tag s style
  | depth + 1, .sequence _ items => do
    return .list (← items.mapM (ofNode? anchored depth))
  | depth + 1, .mapping _ entries => do
    let entries ← entries.mapM fun e => do
      return (← keyText? (← ofNode? anchored depth e.1), ← ofNode? anchored depth e.2)
    return .table (entries.foldl (fun acc e => Setting.setEntry e.1 e.2 acc) [])
  | depth + 1, .alias number =>
    match anchored.lookup number with
    | some n => ofNode? anchored depth n
    | none => some .null

def nodeDepth : Nat := 1000

/-- The value of a document; a text without a document is an empty table. -/
def readYaml? (text : String) : Option Setting := do
  let tokens ← (Yaml.tokenize text.toList).toOption
  let doc ← (Yaml.Document.ofTokens? tokens.toList).toOption
  match doc.root with
  | none => some (.table [])
  | some n => ofNode? doc.anchored nodeDepth n

end Setting

def SettingsFormat.read? (format : SettingsFormat) (text : String) : Option SettingsTable := do
  let v ← match format with
    | .toml => Setting.table <$> Toml.read? text
    | .json => Json.read? text
    | .yaml => Setting.readYaml? text
    | .ini => Setting.table <$> Ini.read? text
    | .ron => Ron.read? text
    | .json5 => Json5.read? text
  match v with
  | .table entries => some entries
  | _ => none

end MappingSweep
