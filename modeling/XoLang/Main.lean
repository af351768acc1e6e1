import Std.Data.HashMap
import XoLang.Command.Run

/-!
# The program

The outer layer: what a run can see of the machine is taken into a disk, the run is a function of
it, and what the run changed is put back. Links are not followed. No command is started from here,
so the formatter counts as not found and code stays as it was generated. Names of files are
characters here.
-/

namespace XoLang.Program

/-- The path of a place for the machine. -/
def pathOf (place : List CodeText) : String := (Path.text [Path.slash] place).text

/-- The names of the files of which a run may read or write the content. -/
def contentNames (request : Command.Request) : List CodeText :=
  [Path.lastName request.file, Command.outputName request.file] ++
    request.configPath.toList.map Path.lastName ++ Settings.fileNames

/-- What is below a folder, a folder before what it holds. Only files with some names are read. -/
partial def below (names : List CodeText) (folder : List CodeText) :
    IO (List (List CodeText × Entry)) := do
  let mut found := []
  for inner in ← ((← IO.currentDir) / pathOf folder).readDir do
    let name := CodeText.ofString inner.fileName
    let place := folder ++ [name]
    match (← inner.path.symlinkMetadata).type with
    | .dir => found := found ++ (place, .folder) :: (← below names place)
    | .file =>
      let content ← if names.contains name then IO.FS.readBinFile inner.path
        else pure ByteArray.empty
      found := found ++ [(place, .file content)]
    | _ => pure ()
  return found

/-- A disk with the file at a place, if there is one. -/
def withFileAt (disk : Disk) (place : List CodeText) : IO Disk := do
  let path := (← IO.currentDir) / pathOf place
  if (disk.get? place).isNone && (← path.pathExists) && !(← path.isDir) then
    return disk.withFile place (← IO.FS.readBinFile path)
  else return disk

/-- The places of the settings files that may count for a folder. -/
def settingsPlaces (folder : List CodeText) : List (List CodeText) :=
  (List.range (folder.length + 1)).flatMap fun n =>
    Settings.fileNames.map fun name => folder.take n ++ [name]

/-- The disk that a request can see: all below the current directory and below the build directory
that is asked for, the files that the request names, and the settings files above them. -/
def look (cwd : List CodeText) (request : Command.Request) : IO Disk := do
  let names := contentNames request
  let source := Path.absolute cwd request.file
  let mut disk := Disk.mk (((Disk.empty.withFolders cwd).entries) ++ (← below names cwd))
  if let .build (some dir) _ := request.action then
    let folder := Path.absolute cwd dir
    if !(folder = cwd || Disk.isBelow cwd folder) then
      if ← ((← IO.currentDir) / pathOf folder).isDir then
        disk := disk.withFolders folder
        disk := ⟨disk.entries ++ (← below names folder)⟩
  for place in source :: request.configPath.toList.map (Path.absolute cwd) do
    disk ← withFileAt disk place
  for place in settingsPlaces source.dropLast do
    disk ← withFileAt disk place
  return disk

/-- Put what a run changed back: first what is gone, the inner before the outer, then what is
new. -/
def settle (before after : Disk) : IO Unit := do
  let named := fun (disk : Disk) => disk.entries.map fun e => (pathOf e.1, e.2)
  let seen := Std.HashMap.ofList (named before)
  let kept := Std.HashMap.ofList (named after)
  for (path, entry) in (named before).reverse do
    if (kept.get? path).isNone then
      match entry with
      | .folder => IO.FS.removeDir path
      | .file _ => IO.FS.removeFile path
  for (path, entry) in named after do
    if seen.get? path ≠ some entry then
      match entry with
      | .folder => IO.FS.createDirAll path
      | .file content => IO.FS.writeBinFile path content

/-- The text of a fault that stopped a run. -/
def faultText : Command.Fault → String
  | .disk fault => fault.reason
  | .notText => "a file is not UTF-8 text"
  | .value fault => fault.message
  | .noSettingsPath => "the option for the settings file has no value"
  | .formatter failure => failure
  | .unsupported kind => "cannot emit " ++ kind

/-- Run the program and put its result onto the machine. -/
def perform (arguments : List String) : IO Nat := do
  let stdout ← IO.getStdout
  let stderr ← IO.getStderr
  let cwd := Path.absolute [] (toString (← IO.currentDir))
  let colour := (← stdout.isTty) && (← IO.getEnv "NO_COLOR").isNone
  let disk ← match Command.readArguments arguments with
    | .run _ request => look cwd request
    | _ => pure (Disk.empty.withFolders cwd)
  let reader := Settings.Reader.standard id "the text breaks a rule of its format"
  let result := Command.run ⟨disk, cwd, colour, fun _ => .notFound, reader⟩ arguments
  settle disk result.disk
  stdout.putStr result.stdout
  stderr.putStr result.stderr
  match result.ending with
  | .exit status => return status
  | .fault fault =>
    stderr.putStrLn (faultText fault)
    return 1

end XoLang.Program

/-- Run the program on the arguments of the command line. -/
def main (arguments : List String) : IO UInt32 := do
  return (← XoLang.Program.perform arguments).toUInt32
