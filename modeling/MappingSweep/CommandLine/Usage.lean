import MappingSweep.CommandLine.Argument

/-!
# Usage

What each flag is for, and the texts that the program prints instead of running: its help, its
version, and what is wrong with a command line.  Like the shell they are part of the outer layer.
-/

namespace MappingSweep

namespace Flag

def purpose : Flag → String
  | .valued .generate => "Generate completion for the given shell"
  | .valued .config => "base simulator config yaml, overrides `base_config`"
  | .valued .outputDir => "output log folder, must not exist yet"
  | .switch .autoClean => "delete access logs and command traces once their figures are drawn"
  | .switch .verbose => "print detail info"
  | .switch .noPlot => "skip the per trial figures"
  | .switch .help => "Print help information"
  | .switch .version => "Print version information"

def takesValue : Flag → Bool
  | .valued _ => true
  | .switch _ => false

def letter? (f : Flag) : Option Char :=
  (shortNames.find? (·.2 = f)).map (·.1)

def longName (f : Flag) : String :=
  ((longNames.find? (·.2 = f)).map (·.1)).getD ""

def spellings (f : Flag) : List String :=
  (f.letter?.map fun c => String.ofList ['-', c]).toList ++ ["--" ++ f.longName]

end Flag

namespace Usage

def programName : String :=
  "mapping_dse"

def version : String :=
  programName ++ " 0.1.1\n"

def flagLine (f : Flag) : String :=
  let value := if f.takesValue then " <" ++ f.longName ++ ">" else ""
  "    " ++ ", ".intercalate f.spellings ++ value ++ "\n            " ++ f.purpose ++ "\n"

def help : String :=
  "sweep address mappings x traces through a memory simulator\n\nUSAGE:\n    " ++ programName ++
    " [OPTIONS] [SETTINGS_FILES]...\n\nOPTIONS:\n" ++
    String.join (Flag.longNames.map fun entry => flagLine entry.2)

end Usage

def ArgumentFault.message : ArgumentFault → String
  | emptyValue o => "The argument '--" ++ (Flag.valued o).longName ++ "' requires a value"
  | unknownArgument text => "Found argument '" ++ text ++ "' which is not known"
  | tooManyValues s => "The argument '--" ++ (Flag.switch s).longName ++ "' takes no value"
  | repeated f => "The argument '--" ++ f.longName ++ "' was given more than once"
  | invalidShell text => "\"" ++ text ++ "\" is not a shell that completion is known for"
  | displayHelp => Usage.help
  | displayVersion => Usage.version

end MappingSweep
