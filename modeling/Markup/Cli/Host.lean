import Markup.Text

/-! # Files and hosts

What the program needs from where it runs: files, and two streams to write to. A `Host` can be the
real system or a value (`Machine`): a disk together with what was written.

A `Disk` holds files and directories by location, and every name on the way must lead from a
directory to something that exists; `FileError` says why a path cannot be used.

Times of changes are kept in nanoseconds, but what is told of a file has its time as a
floating-point number of seconds (`statTime`). -/

namespace Markup.Cli

/-! ### Paths

A path is a sequence of names from a starting point: the root of the files, or the directory that
the program was started in. Names that say nothing, the empty one and the single point, are
dropped when a path is read; `..` stays, since what it means depends on the files. -/

/-- A path. It starts with nothing, one slash or two. -/
structure Path where
  root : String := ""
  names : List String := []
deriving DecidableEq, Repr, Inhabited

namespace Path

/-- The start of a path: exactly two slashes are kept, any other number counts as one. -/
def rootOf (cs : List Char) : String :=
  match (cs.takeWhile (· == '/')).length with
  | 0 => ""
  | 2 => "//"
  | _ => "/"

/-- Reads a path. -/
def ofString (s : String) : Path where
  root := rootOf s.toList
  names := ((s.toList.splitOn '/').map String.ofList).filter fun name => name != "" && name != "."

/-- Whether the path starts at the root. -/
def isAbsolute (p : Path) : Bool := p.root != ""

/-- The path as it is shown; without any name it is a point. -/
def text (p : Path) : String :=
  let shown := p.root ++ "/".intercalate p.names
  if shown = "" then "." else shown

/-- The path without its last name. -/
def parent (p : Path) : Path := { p with names := p.names.dropLast }

/-- The path followed by a name. -/
def child (p : Path) (name : String) : Path := { p with names := p.names ++ [name] }

end Path

/-! ### Errors -/

/-- Why a file cannot be used. A file may stand where a directory is needed (`notDirectory`), and
the other way round. -/
inductive FileCause where
  | missing
  | notDirectory
  | isDirectory
  | tooLong
  | nulInPath
  | other (number : Nat) (message : String)
deriving DecidableEq, Repr, Inhabited

/-- The number and wording of a cause. -/
def FileCause.describe : FileCause → Nat × String
  | missing => (2, "No such file or directory")
  | notDirectory => (20, "Not a directory")
  | isDirectory => (21, "Is a directory")
  | tooLong => (36, "File name too long")
  | nulInPath => (22, "embedded null byte")
  | other number message => (number, message)

/-- A file that cannot be used. -/
structure FileError where
  cause : FileCause
  path : Path
deriving DecidableEq, Repr, Inhabited

/-- The wording of an error. -/
def FileError.message (e : FileError) : String :=
  let (number, wording) := e.cause.describe
  "[Errno " ++ toString number ++ "] " ++ wording ++ ": " ++ Text.quoted e.path.text

/-! ### Locations -/

/-- Names from the root, without `..`. -/
abbrev Location := List String

/-- What stands at a location. -/
inductive FileNode where
  | file (bytes : ByteArray)
  | directory
deriving Inhabited

/-- What stands at a location, and when it was last changed, in nanoseconds. -/
structure Stored where
  node : FileNode
  modified : Int
deriving Inhabited

/-! ### Times -/

/-- The number with at most 53 binary digits that is nearest to `n`, zeros at its end apart; of two
that are, it is the one whose last digit is zero. -/
def roundNat (n : Nat) : Nat :=
  let step := Nat.pow 2 (n.log2 + 1 - 53)
  let kept := n / step
  let left := n % step
  if 2 * left < step ∨ (2 * left = step ∧ kept % 2 = 0) then kept * step else (kept + 1) * step

/-- The number with at most 53 binary digits that is nearest to `n`. -/
def roundInt (n : Int) : Int := if n < 0 then -roundNat n.natAbs else roundNat n.natAbs

/-- Number of steps of a second in which floating-point times are counted, two to the power of 82.
Every such time is a multiple of a step. -/
def stepsOfSecond : Int := 4835703278458516698824704

/-- The floating-point number nearest to a thousand-millionth, in steps. -/
def nanosecond : Int := 4835703278458517

/-- A time in nanoseconds as a floating-point number of seconds, in steps: the seconds, plus the
nanoseconds left over times a thousand-millionth, rounded after each operation. -/
def statTime (time : Int) : Int :=
  let seconds := roundInt (time / 1000000000)
  let left := roundInt (time % 1000000000 * nanosecond)
  roundInt (seconds * stepsOfSecond + left)

/-- What can be told of a file or directory without reading it; `modified` is a floating-point
number of seconds, in steps. -/
structure Status where
  isFile : Bool
  modified : Int
deriving DecidableEq, Repr, Inhabited

/-- What can be told without reading. -/
def Stored.status (s : Stored) : Status where
  isFile := match s.node with
    | .file _ => true
    | .directory => false
  modified := statTime s.modified

/-! ### Disks -/

/-- All files and directories. Paths start from `home`, and the next change gets the time `now`. -/
structure Disk where
  entries : List (Location × Stored) := []
  home : Location := []
  now : Int := 1
deriving Inhabited

namespace Disk

/-- What stands at a location; the root is always there. -/
def find? (d : Disk) (here : Location) : Option Stored :=
  match d.entries.lookup here, here with
  | some s, _ => some s
  | none, [] => some ⟨.directory, 1⟩
  | none, _ :: _ => none

/-- Puts something at a location. -/
def set (d : Disk) (here : Location) (s : Stored) : Disk :=
  { d with entries := (here, s) :: d.entries.filter fun e => e.1 != here }

/-- Removes what stands at a location, and all below it. -/
def erase (d : Disk) (here : Location) : Disk :=
  { d with entries := d.entries.filter fun e => !here.isPrefixOf e.1 }

/-- Makes every directory on the way to a location that is not there yet. -/
def makeParents (d : Disk) (here : Location) : Disk :=
  (List.range here.length).foldl (fun d n =>
    match d.find? (here.take n) with
    | some _ => d
    | none => d.set (here.take n) ⟨.directory, d.now⟩) d

/-- Where a name leads from a directory. -/
def step (here : Location) (name : String) : Location :=
  if name = ".." then here.dropLast else here ++ [name]

/-- The longest name, in bytes. -/
def maxName : Nat := 255

/-- The longest path, in bytes. -/
def maxPath : Nat := 4095

/-- Where names lead from a location. -/
def walk (d : Disk) : Location → List String → Except FileCause Location
  | here, [] => .ok here
  | here, name :: rest =>
    match d.find? here with
    | none => .error .missing
    | some ⟨.file _, _⟩ => .error .notDirectory
    | some ⟨.directory, _⟩ =>
      if maxName < name.utf8ByteSize then .error .tooLong else walk d (step here name) rest

/-- Where a path leads. -/
def locate (d : Disk) (p : Path) : Except FileCause Location :=
  if p.text.toList.contains (Char.ofNat 0) then .error .nulInPath
  else if maxPath < p.text.utf8ByteSize then .error .tooLong
  else d.walk (if p.isAbsolute then [] else d.home) p.names

/-- What a path leads to. -/
def at? (d : Disk) (p : Path) : Except FileError Stored :=
  match d.locate p with
  | .error cause => .error ⟨cause, p⟩
  | .ok here =>
    match d.find? here with
    | some s => .ok s
    | none => .error ⟨.missing, p⟩

/-- What can be told of a path. -/
def status (d : Disk) (p : Path) : Except FileError Status := (d.at? p).map Stored.status

/-- The bytes of a file. -/
def readFile (d : Disk) (p : Path) : Except FileError ByteArray :=
  match d.at? p with
  | .error e => .error e
  | .ok ⟨.file bytes, _⟩ => .ok bytes
  | .ok ⟨.directory, _⟩ => .error ⟨.isDirectory, p⟩

/-- Writes a file, a new one if there is none. -/
def writeFile (d : Disk) (p : Path) (text : String) : Except FileError Disk :=
  match d.locate p with
  | .error cause => .error ⟨cause, p⟩
  | .ok here =>
    match d.find? here with
    | some ⟨.directory, _⟩ => .error ⟨.isDirectory, p⟩
    | _ => .ok { d.set here ⟨.file text.toUTF8, d.now⟩ with now := d.now + 1 }

/-- The files below the directory that paths start from, by their names from there. -/
def files (d : Disk) : List (List String × ByteArray) :=
  d.entries.filterMap fun (here, s) =>
    match s.node with
    | .directory => none
    | .file bytes =>
      if d.home.isPrefixOf here then some (here.drop d.home.length, bytes) else none

end Disk

/-! ### Hosts -/

/-- What a run can do. -/
class Host (m : Type → Type) where
  status : Path → m (Except FileError Status)
  readFile : Path → m (Except FileError ByteArray)
  writeFile : Path → String → m (Except FileError Unit)
  putOut : String → m Unit
  putErr : String → m Unit

/-- What a run has written to its streams. -/
structure Streams where
  out : String := ""
  err : String := ""
deriving DecidableEq, Repr, Inhabited

/-- A host that is a value. Its streams hold what was written since the last pause, and `past` what
was written before each. -/
structure Machine where
  disk : Disk := {}
  streams : Streams := {}
  past : List Streams := []
deriving Inhabited

namespace Machine

/-- A pause: what has been written is set aside, and the files may change. -/
def pause (change : Disk → Disk) : StateM Machine Unit :=
  modify fun s => ⟨change s.disk, {}, s.past ++ [s.streams]⟩

instance : Host (StateM Machine) where
  status p := return (← get).disk.status p
  readFile p := return (← get).disk.readFile p
  writeFile p text := do
    match (← get).disk.writeFile p text with
    | .ok disk =>
      modify fun s => { s with disk }
      return .ok ()
    | .error e => return .error e
  putOut text := modify fun s => { s with streams.out := s.streams.out ++ text }
  putErr text := modify fun s => { s with streams.err := s.streams.err ++ text }

end Machine

end Markup.Cli
