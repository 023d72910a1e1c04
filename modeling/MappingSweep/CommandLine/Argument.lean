import MappingSweep.Settings.Source

/-!
# Arguments

What may stand on the command line: switches, options with a value, and settings files.  Every
switch and option may be given once.
-/

namespace MappingSweep

inductive CompletionShell where
  | bash
  | elvish
  | fish
  | powershell
  | zsh
deriving DecidableEq, Repr

namespace CompletionShell

def all : List CompletionShell :=
  [bash, elvish, fish, powershell, zsh]

def name : CompletionShell → String
  | bash => "bash"
  | elvish => "elvish"
  | fish => "fish"
  | powershell => "powershell"
  | zsh => "zsh"

def ofName? (s : String) : Option CompletionShell :=
  all.find? (·.name == s)

end CompletionShell

inductive Switch where
  | autoClean
  | verbose
  | noPlot
  | help
  | version
deriving DecidableEq, Repr

inductive ValueOption where
  | generate
  | config
  | outputDir
deriving DecidableEq, Repr

inductive Flag where
  | switch (s : Switch)
  | valued (o : ValueOption)
deriving DecidableEq, Repr

namespace Flag

def longNames : List (String × Flag) :=
  [("generate", .valued .generate), ("config", .valued .config),
    ("output-dir", .valued .outputDir), ("auto-clean", .switch .autoClean),
    ("verbose", .switch .verbose), ("no-plot", .switch .noPlot), ("help", .switch .help),
    ("version", .switch .version)]

def shortNames : List (Char × Flag) :=
  [('g', .valued .generate), ('c', .valued .config), ('o', .valued .outputDir),
    ('v', .switch .verbose), ('h', .switch .help), ('V', .switch .version)]

end Flag

/-- Why a command line is refused, or that it asks for something else than a run. -/
inductive ArgumentFault where
  | emptyValue (o : ValueOption)
  | unknownArgument (text : String)
  | tooManyValues (s : Switch)
  | repeated (f : Flag)
  | invalidShell (text : String)
  | displayHelp
  | displayVersion
deriving DecidableEq, Repr

namespace ArgumentFault

def kind : ArgumentFault → String
  | emptyValue _ => "EmptyValue"
  | unknownArgument _ => "UnknownArgument"
  | tooManyValues _ => "TooManyValues"
  | repeated _ => "UnexpectedMultipleUsage"
  | invalidShell _ => "InvalidValue"
  | displayHelp => "DisplayHelp"
  | displayVersion => "DisplayVersion"

end ArgumentFault

structure Arguments where
  generator : Option CompletionShell := none
  config : Option String := none
  outputDir : Option String := none
  autoClean : Bool := false
  verbose : Bool := false
  noPlot : Bool := false
  settingsFiles : List String := []
deriving DecidableEq, Repr

def Arguments.overrides (a : Arguments) : Overrides where
  baseConfig := a.config
  outputDir := a.outputDir
  autoClean := a.autoClean
  verbose := a.verbose
  noPlot := a.noPlot

end MappingSweep
