import EffectLink.Command

/-! The executable. It has no shader frontend, so stages of targets that need compiled units do not
compile. -/

namespace EffectLink.Main

def noFrontend : Frontend := fun _ _ => .error (.syntactic "no shader frontend")

/-- Loads a file if it is there. -/
def load (disk : Disk) (path : String) : IO Disk := do
  try
    let contents ← IO.FS.readBinFile path
    return disk.plant path (.file contents.toList)
  catch
    | .inappropriateType .. => return disk.plant path .directory
    | _ => return disk

/-- The files next to a manifest that hold its stage code. -/
def codeFiles (disk : Disk) (path : String) : List String :=
  match Manifest.readFile disk path >>= Manifest.parse path with
  | .error _ => []
  | .ok m => m.functions.filterMap fun e =>
      e.codeFile.map fun relative => Path.join ((Path.parent? path).getD "") relative

def absolute (place : Place) : String := "/" ++ "/".intercalate place

/-- One name further, whether it is there or not. -/
def further (place : Place) (name : String) : Place :=
  if name = "" ∨ name = "." then place
  else if name = ".." then place.dropLast
  else place ++ [name]

/-- The places that a path leads through, itself included. Some of them may be there only after others
have been made. -/
def way (disk : Disk) (path : String) : List String :=
  let names := Path.names path
  (List.range names.length).map fun n =>
    absolute ((names.take (n + 1)).foldl further (disk.origin path))

/-- The disk as far as a command looks at it. -/
def loadAll (disk : Disk) : List String → IO Disk
  | "compile" :: rest =>
    match CompileOptions.parse rest with
    | .error _ => return disk
    | .ok options => do
      let loaded ← load disk options.manifest
      (codeFiles loaded options.manifest ++ way disk options.outDir).foldlM load loaded
  | "dump" :: path :: _ => load disk path
  | _ => return disk

def store (file : Place × Bytes) : IO Unit :=
  IO.FS.writeBinFile (absolute file.1) ⟨file.2.toArray⟩

end EffectLink.Main

open EffectLink EffectLink.Main in
def main (arguments : List String) : IO UInt32 := do
  let home := (Path.names (← IO.currentDir).toString).filter (· != "")
  let disk ← loadAll (Disk.rooted home) arguments
  let outcome := Command.run arguments noFrontend disk (← (← IO.getStderr).isTty)
  (disk.newDirectories outcome.disk).forM fun place => IO.FS.createDirAll (absolute place)
  (disk.changedFiles outcome.disk).forM store
  IO.print outcome.stdout
  IO.eprint outcome.stderr
  return UInt32.ofNat outcome.code
