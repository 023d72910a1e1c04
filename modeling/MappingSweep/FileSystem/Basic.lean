import MappingSweep.FileSystem.Path
import MappingSweep.Number.Numeral
import MappingSweep.Text.Quoted

/-!
# The file system

A finite tree of directories and files below a working directory, as the list of its entries.  A
place is the list of components from the working directory down; `"/"` and `".."` stand as first
components for what lies outside.  Operations resolve a path component by component and fail as a
file system does, with the first obstacle on the way.
-/

namespace MappingSweep

inductive OsError where
  | notFound
  | permissionDenied
  | fileExists
  | notADirectory
  | isADirectory
  | nameTooLong
  | execFormat
  | nulInPath
deriving DecidableEq, Repr

namespace OsError

def code : OsError → Nat
  | notFound => 2
  | execFormat => 8
  | permissionDenied => 13
  | fileExists => 17
  | notADirectory => 20
  | isADirectory => 21
  | nameTooLong => 36
  | nulInPath => 0

def reason : OsError → String
  | notFound => "No such file or directory"
  | execFormat => "Exec format error"
  | permissionDenied => "Permission denied"
  | fileExists => "File exists"
  | notADirectory => "Not a directory"
  | isADirectory => "Is a directory"
  | nameTooLong => "File name too long"
  | nulInPath => "file name contained an unexpected NUL byte"

def kind : OsError → String
  | notFound => "NotFound"
  | execFormat => "Uncategorized"
  | permissionDenied => "PermissionDenied"
  | fileExists => "AlreadyExists"
  | notADirectory => "NotADirectory"
  | isADirectory => "IsADirectory"
  | nameTooLong => "InvalidFilename"
  | nulInPath => "InvalidInput"

/-- The reason with its code.  A name that never reached the system has no code. -/
def message (e : OsError) : String :=
  match e with
  | nulInPath => e.reason
  | _ => e.reason ++ " (os error " ++ Number.decimal e.code ++ ")"

def details (e : OsError) : String :=
  "Os \x7b code: " ++ Number.decimal e.code ++ ", kind: " ++ e.kind ++ ", message: " ++
    Text.quoted e.reason ++ " \x7d"

end OsError

abbrev Place : Type := List String

namespace Place

/-- One step along a path, whatever is there. -/
def enter (here : Place) (component : String) : Place :=
  if component = ".." then
    if here.isEmpty ∨ here.all (· == "..") then ".." :: here
    else if here = ["/"] then here else here.dropLast
  else here ++ [component]

/-- The places that a path passes from `here` on, with the one where it ends. -/
def passed (here : Place) : List String → List Place
  | [] => [here]
  | c :: rest => here :: passed (here.enter c) rest

end Place

namespace Path

def start (p : Path) : Place :=
  if p.isAbsolute then ["/"] else []

/-- Where a path leads when nothing is in its way. -/
def place (p : Path) : Place :=
  p.components.foldl Place.enter p.start

def stations (p : Path) : List Place :=
  Place.passed p.start p.components

end Path

instance decidableEqContent : DecidableEq ByteArray := fun a b =>
  match decEq a.data b.data with
  | isTrue h => isTrue (ByteArray.ext h)
  | isFalse h => isFalse fun e => h (congrArg ByteArray.data e)

inductive Entry where
  | file (content : ByteArray) (executable : Bool)
  | directory
deriving DecidableEq, Inhabited

structure FileSystem where
  entries : List (Place × Entry) := []
deriving DecidableEq, Inhabited

namespace FileSystem

/-- The longest component, in octets. -/
def componentBound : Nat := 255

/-- The longest path, in octets. -/
def pathBound : Nat := 4095

/-- The working directory and what lies outside it are always there. -/
def isRoot (p : Place) : Bool :=
  p == ["/"] || p.all (· == "..")

def entryAt (fs : FileSystem) (p : Place) : Option Entry :=
  if isRoot p then some .directory else fs.entries.lookup p

def set (fs : FileSystem) (p : Place) (e : Entry) : FileSystem :=
  ⟨(p, e) :: fs.entries.filter (·.1 ≠ p)⟩

def removeTree (fs : FileSystem) (p : Place) : FileSystem :=
  ⟨fs.entries.filter fun e => !p.isPrefixOf e.1⟩

def isDirectory (fs : FileSystem) (p : Place) : Bool :=
  fs.entryAt p = some .directory

theorem entryAt_set_self (fs : FileSystem) {p : Place} (e : Entry) (h : isRoot p = false) :
    (fs.set p e).entryAt p = some e := by
  simp [entryAt, set, h]

theorem lookup_filter_ne {α β : Type} [BEq α] [LawfulBEq α] [DecidableEq α] {p q : α}
    (h : p ≠ q) (l : List (α × β)) :
    (l.filter (fun e => decide (e.1 ≠ p))).lookup q = l.lookup q := by
  induction l with
  | nil => rfl
  | cons e l ih =>
    obtain ⟨k, v⟩ := e
    simp only [ne_eq, decide_not] at ih
    by_cases hk : k = p
    · subst hk
      have : (q == k) = false := by simpa using fun hq : q = k => h hq.symm
      simp [List.lookup_cons, this, ih]
    · simp [hk, List.lookup_cons, ih]

theorem entryAt_set_of_ne (fs : FileSystem) {p q : Place} (e : Entry) (h : p ≠ q) :
    (fs.set p e).entryAt q = fs.entryAt q := by
  unfold entryAt set
  split
  · rfl
  · have : (q == p) = false := by simpa using fun hq : q = p => h hq.symm
    simp only [List.lookup_cons, this]
    exact lookup_filter_ne h fs.entries

/-! ## Resolving paths -/

/-- What is wrong with a place that should be a directory. -/
def notDirectory (fs : FileSystem) (here : Place) : OsError :=
  if (fs.entryAt here).isNone then .notFound else .notADirectory

def descend (fs : FileSystem) (here : Place) (component : String) : Except OsError Place :=
  if ¬ fs.isDirectory here then .error (fs.notDirectory here)
  else if component ≠ ".." ∧ componentBound < component.utf8ByteSize then .error .nameTooLong
  else .ok (here.enter component)

/-- Where a path leads.  Everything but the last component has to be a directory, and with a single
dot at the end that one too. -/
def locate (fs : FileSystem) (p : Path) : Except OsError Place :=
  if p.text.toList.contains '\x00' then .error .nulInPath
  else if p.text.isEmpty then .error .notFound
  else if pathBound < p.text.utf8ByteSize then .error .nameTooLong
  else do
    let place ← p.components.foldlM fs.descend p.start
    if p.endsWithDot ∧ ¬ fs.isDirectory place then throw (fs.notDirectory place)
    return place

def find (fs : FileSystem) (p : Path) : Except OsError (Place × Entry) := do
  let place ← fs.locate p
  match fs.entryAt place with
  | some (.file content executable) =>
    if p.endsWithSlash then throw .notADirectory else return (place, .file content executable)
  | some .directory => return (place, .directory)
  | none => throw .notFound

/-! ## Operations -/

def pathExists (fs : FileSystem) (p : Path) : Bool :=
  (fs.find p).isOk

def pathIsDirectory (fs : FileSystem) (p : Path) : Bool :=
  match fs.find p with
  | .ok (_, .directory) => true
  | _ => false

def readBytes (fs : FileSystem) (p : Path) : Except OsError ByteArray := do
  match ← fs.find p with
  | (_, .file content _) => return content
  | (_, .directory) => throw .isADirectory

/-- Replaces the content of a file, creating the file if it is not there. -/
def writeBytes (fs : FileSystem) (p : Path) (content : ByteArray) : Except OsError FileSystem := do
  let place ← fs.locate p
  match fs.entryAt place with
  | some .directory => throw .isADirectory
  | some (.file _ executable) =>
    if p.endsWithSlash then throw .notADirectory
    return fs.set place (.file content executable)
  | none =>
    if p.endsWithSlash then throw .isADirectory
    return fs.set place (.file content false)

def createFile (fs : FileSystem) (p : Path) (content : ByteArray) : Except OsError FileSystem := do
  let place ← fs.locate p
  if (fs.entryAt place).isSome then throw .fileExists
  fs.writeBytes p content

def appendBytes (fs : FileSystem) (p : Path) (content : ByteArray) : Except OsError FileSystem := do
  let old := match fs.readBytes p with
    | .ok old => old
    | .error _ => .empty
  fs.writeBytes p (old ++ content)

/-- Adds to the end of the file that was opened at a place.  Nothing is there to be seen of one that
was taken away. -/
def extend (fs : FileSystem) (place : Place) (content : ByteArray) : FileSystem :=
  match fs.entryAt place with
  | some (.file old executable) => fs.set place (.file (old ++ content) executable)
  | _ => fs

def makeDirectory (fs : FileSystem) (p : Path) : Except OsError FileSystem := do
  let place ← fs.locate p
  if (fs.entryAt place).isSome then throw .fileExists
  return fs.set place .directory

/-- Creates a directory unless it is there, given that its parents were taken care of. -/
def ensureDirectory (fs : FileSystem) (p : Path) : Except OsError FileSystem :=
  match fs.makeDirectory p with
  | .ok fs => .ok fs
  | .error e => if fs.pathIsDirectory p then .ok fs else .error e

/-- Creates a directory and its missing parents; directories made before an obstacle stay. -/
def makeDirectories : Nat → FileSystem → Path → Except OsError Unit × FileSystem
  | 0, fs, _ => (.error .notFound, fs)
  | fuel + 1, fs, p =>
    if p.text.isEmpty then (.ok (), fs) else
    match fs.makeDirectory p with
    | .ok fs => (.ok (), fs)
    | .error .notFound =>
      match p.parent? with
      | none => (.error .notFound, fs)
      | some parent =>
        match makeDirectories fuel fs parent with
        | (.error e, fs) => (.error e, fs)
        | (.ok (), fs) =>
          match fs.ensureDirectory p with
          | .ok fs => (.ok (), fs)
          | .error e => (.error e, fs)
    | .error e => if fs.pathIsDirectory p then (.ok (), fs) else (.error e, fs)

def createDirectories (fs : FileSystem) (p : Path) : Except OsError Unit × FileSystem :=
  makeDirectories (p.components.length + 2) fs p

def removeDirectory (fs : FileSystem) (p : Path) : Except OsError FileSystem := do
  match ← fs.find p with
  | (place, .directory) => return fs.removeTree place
  | (_, .file ..) => throw .notADirectory

def removeFile (fs : FileSystem) (p : Path) : Except OsError FileSystem := do
  match ← fs.find p with
  | (place, .file ..) => return ⟨fs.entries.filter (·.1 ≠ place)⟩
  | (_, .directory) => throw .isADirectory

def parents (p : Place) : List Place :=
  (List.range p.length).map (p.take ·) |>.filter (!isRoot ·)

/-- Puts a file at a place together with the directories above it. -/
def install (fs : FileSystem) (p : Path) (content : ByteArray) : FileSystem :=
  let place := p.components
  let fs := (parents place).foldl
    (fun fs d => if fs.isDirectory d then fs else fs.set d .directory) fs
  fs.set place (.file content false)

/-- Marks a file as one that may be executed. -/
def makeExecutable (fs : FileSystem) (p : Path) : FileSystem :=
  match fs.find p with
  | .ok (place, .file content _) => fs.set place (.file content true)
  | _ => fs

def shownEntry (e : Place × Entry) : String :=
  match e with
  | (p, .directory) => "/".intercalate p ++ "/"
  | (p, .file ..) => "/".intercalate p

/-- Everything below the working directory in the order of the written paths. -/
def listing (fs : FileSystem) : List String :=
  let inside := fs.entries.filter fun e => e.1.head? != some "/" && e.1.head? != some ".."
  (inside.map shownEntry).mergeSort fun a b => decide (a ≤ b)

end FileSystem
end MappingSweep
