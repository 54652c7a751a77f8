import Markup.Cli.Program

/-! # The command line

The program on the real system: its files, its two streams, and half a second between two looks at
a watched input. -/

namespace Markup.Cli

/-- The cause with a number, which some calls of the system give with a minus sign. -/
def causeOfNumber (number : UInt32) (details : String) : FileCause :=
  let number := if number < 0x80000000 then number else 0 - number
  if number = 2 then .missing
  else if number = 20 then .notDirectory
  else if number = 21 then .isDirectory
  else if number = 36 then .tooLong
  else .other number.toNat details

/-- Why the system refuses a file. -/
def causeOf : IO.Error → FileCause
  | .noFileOrDirectory _ number details | .interrupted _ number details
  | .alreadyExists _ number details | .invalidArgument _ number details
  | .permissionDenied _ number details | .resourceExhausted _ number details
  | .inappropriateType _ number details | .noSuchThing _ number details
  | .otherError number details | .resourceBusy number details
  | .resourceVanished number details | .unsupportedOperation number details
  | .hardwareFault number details | .unsatisfiedConstraints number details
  | .illegalOperation number details | .protocolError number details
  | .timeExpired number details => causeOfNumber number details
  | .unexpectedEof => .other 5 "Input/output error"
  | .userError details => .other 5 details

/-- What the system tells of a path. -/
def systemStatus (p : Path) : IO (Except FileError Status) := do
  if p.text.toList.contains (Char.ofNat 0) then return .error ⟨.nulInPath, p⟩
  let directory ← IO.currentDir
  match ← (directory / p.text).metadata.toBaseIO with
  | .ok found => return .ok {
      isFile := found.type matches .file
      modified := statTime (found.modified.sec * 1000000000 + found.modified.nsec.toNat) }
  | .error e => return .error ⟨causeOf e, p⟩

/-- Carries out an action on a path that may lead to a file, but not to a directory. -/
def onFile {α : Type} (p : Path) (action : IO α) : IO (Except FileError α) := do
  match ← systemStatus p with
  | .ok ⟨false, _⟩ => return .error ⟨.isDirectory, p⟩
  | .error ⟨.nulInPath, _⟩ => return .error ⟨.nulInPath, p⟩
  | _ =>
    match ← action.toBaseIO with
    | .ok a => return .ok a
    | .error e => return .error ⟨causeOf e, p⟩

instance : Host IO where
  status := systemStatus
  readFile p := onFile p (IO.FS.readBinFile p.text)
  writeFile p text := onFile p (IO.FS.writeFile p.text text)
  putOut text := do
    let out ← IO.getStdout
    out.putStr text
    out.flush
  putErr text := do (← IO.getStderr).putStr text

/-- Watches the input until the program is interrupted or breaks off. -/
partial def watchForever (o : Options) (seen : Int) : IO Crash := do
  match ← watchTurn o seen with
  | .error crash => return crash
  | .ok seen =>
    IO.sleep 500
    watchForever o seen

/-- The exit code of a run on the real system. -/
def runSystem (args : List String) : IO UInt32 := do
  let crashed (crash : Crash) : IO UInt32 := do
    tell ("error: " ++ crash.message)
    return 1
  match ← start args with
  | .error crash => crashed crash
  | .ok (.exit exit) => return exit.code.toUInt32
  | .ok (.go o) =>
    if o.watch then
      tell (watchGreeting o)
      crashed (← watchForever o neverSeen)
    else
      match ← runOnce o with
      | .error crash => crashed crash
      | .ok exit => return exit.code.toUInt32

end Markup.Cli

/-- Runs the program. -/
def main (args : List String) : IO UInt32 := Markup.Cli.runSystem args
