import MappingSweep.Error
import MappingSweep.Settings.Layer

/-!
# Sources of settings

Files in the order in which they are listed, then the environment, then the command line.  A file
may be named without its extension.  A variable counts if its name starts with the prefix in any
case; its text is taken as a truth value, an integer or a float if it is one, and as a list between
commas where a list is wanted.
-/

namespace MappingSweep

structure Overrides where
  baseConfig : Option String := none
  outputDir : Option String := none
  autoClean : Bool := false
  verbose : Bool := false
  noPlot : Bool := false
deriving DecidableEq, Repr

namespace Overrides

def layer (o : Overrides) : SettingsTable :=
  let given := fun key (v : Option Setting) => v.toList.map fun v => (key, v)
  let flag := fun key (set value : Bool) => if set then [(key, .bool value)] else []
  given "base_config" (o.baseConfig.map .text) ++ given "output_dir" (o.outputDir.map .text) ++
    flag "auto_clean" o.autoClean true ++ flag "verbose" o.verbose true ++
    flag "plot" o.noPlot false

end Overrides

abbrev Environment : Type :=
  List (String × String)

namespace Environment

def namePrefix : List Char := "dse_".toList

def variableName (key : String) : String :=
  String.ofList (namePrefix.map Char.toUpper) ++ key.map Char.toUpper

def listKeys : List String := ["mappings", "commands"]

def valueOf (key : String) (value : String) : Setting :=
  let cs := value.toList
  let word := Setting.lowered value
  if word = "true" then .bool true
  else if word = "false" then .bool false
  else match Number.readSignedWord 10 cs with
    | some n => .int n
    | none =>
      match Number.readBinary64 cs with
      | some x => .float x
      | none =>
        if key ∈ listKeys then
          .list ((Text.splitOn ',' cs).map fun piece => .text (String.ofList piece))
        else .text value

/-- A letter of the name of a variable in lower case.  All keys of a plan are ASCII, and of the
letters outside ASCII the Kelvin sign alone has an ASCII letter for its lower case.  So a name with
any other of them gives no key of a plan, whatever becomes of it. -/
def lowered (c : Char) : Char :=
  if c = '\u212a' then 'k' else Number.lower c

/-- The setting that a variable gives, if it gives one. -/
def settingOf? (name value : String) : Option (String × Setting) :=
  let lower := name.toList.map lowered
  if namePrefix.isPrefixOf lower then
    let key := String.ofList (lower.drop namePrefix.length)
    some (key, valueOf key value)
  else none

def layer (env : Environment) : SettingsTable :=
  env.filterMap fun v => settingOf? v.1 v.2

end Environment

namespace SettingsFile

/-- The part of the last component behind its last point, if that point is not in front. -/
def extension (p : Path) : String :=
  match p.components.getLast? with
  | none => ""
  | some last =>
    let pieces := Text.splitOn '.' last.toList
    match pieces.dropLast, pieces.getLast? with
    | [], _ => ""
    | [[]], _ => ""
    | _, some ext => String.ofList ext
    | _, none => ""

def isFile (fs : FileSystem) (p : Path) : Bool :=
  (fs.readBytes p).isOk

/-- The path with an extension behind its last component, which has to be a name. -/
def withExtension? (p : Path) (extension : String) : Option Path :=
  match p.components.getLast? with
  | none => none
  | some last =>
    if last = ".." then none
    else some (Path.ofComponents p.isAbsolute
      (p.components.dropLast ++ [last ++ "." ++ extension]))

/-- The file that is meant, with its format. -/
def resolve (fs : FileSystem) (p : Path) : Except FormatFault (Path × SettingsFormat) :=
  if isFile fs p then
    match SettingsFormat.ofExtension? (extension p) with
    | some format => .ok (p, format)
    | none => .error .unknownFormat
  else
    let candidates := SettingsFormat.extensions.filterMap fun (ext, format) =>
      (withExtension? p ext).map (·, format)
    match candidates.find? fun c => isFile fs c.1 with
    | some found => .ok found
    | none => .error .missingFile

def layer (fs : FileSystem) (p : Path) : Except LoadFault SettingsTable := do
  let (file, format) ← (resolve fs p).mapError .format
  let text ← (fs.readText file).mapError .io
  match format.read? text with
  | some table => return table
  | none => throw (.format .malformed)

end SettingsFile

def settingsLayers (fs : FileSystem) (files : List Path) (env : Environment)
    (overrides : Overrides) : Except LoadFault (List SettingsTable) := do
  let layers ← files.mapM (SettingsFile.layer fs)
  return layers ++ [Environment.layer env, overrides.layer]

end MappingSweep
