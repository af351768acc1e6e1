import XoLang.Path

/-!
# Disks

A disk holds files and folders at absolute places; the root is always a folder. A path is walked
name by name: every name but the last must lead to a folder, and a slash at the end asks for one.
Names have at most 255 bytes and paths at most 4095. A path with a code point that has no bytes
leads nowhere.
Operations that fail tell why; those that fail half-way also give the disk that they left.
-/

namespace XoLang

/-- What stands at a place. -/
inductive Entry where
  | file (content : ByteArray)
  | folder

/-- Files are equal if they hold the same bytes. -/
instance : DecidableEq Entry
  | .file a, .file b =>
    if h : a.data = b.data then .isTrue (by cases a; cases b; cases h; rfl)
    else .isFalse (by intro same; cases same; exact h rfl)
  | .folder, .folder => .isTrue rfl
  | .file _, .folder => .isFalse nofun
  | .folder, .file _ => .isFalse nofun

/-- A disk: its entries with their places. -/
structure Disk where
  entries : List (List CodeText × Entry)

/-- Why an operation on a disk fails. -/
inductive DiskFault where
  | missing
  | notFolder
  | isFolder
  | alreadyThere
  /-- A folder cannot be removed under the name `.`, nor can the root. -/
  | invalid
  /-- The path or one of its names is too long. -/
  | tooLong
  /-- The path holds a null character. -/
  | nullCharacter
  /-- A code point of the path has no bytes. -/
  | noBytes
  deriving DecidableEq, Repr

/-- What a fault says. -/
def DiskFault.reason : DiskFault → String
  | .missing => "[Errno 2] No such file or directory"
  | .notFolder => "[Errno 20] Not a directory"
  | .isFolder => "[Errno 21] Is a directory"
  | .alreadyThere => "[Errno 17] File exists"
  | .invalid => "[Errno 22] Invalid argument"
  | .tooLong => "[Errno 36] File name too long"
  | .nullCharacter => "embedded null byte"
  | .noBytes => "surrogates not allowed"

/-- The text of a fault of an operation on a path. -/
def DiskFault.message (fault : DiskFault) (path : CodeText) : String :=
  fault.reason ++ ": " ++ path.quoted

namespace Disk

/-- The disk with nothing but its root. -/
def empty : Disk := ⟨[]⟩

/-- What stands at a place. -/
def get? (disk : Disk) (place : List CodeText) : Option Entry :=
  if place = [] then some .folder else disk.entries.lookup place

/-- The disk with something at a place, which replaces what was there. -/
def put (disk : Disk) (place : List CodeText) (entry : Entry) : Disk :=
  ⟨disk.entries.filter (fun e => e.1 ≠ place) ++ [(place, entry)]⟩

/-- The disk without what stands at a place. -/
def drop (disk : Disk) (place : List CodeText) : Disk :=
  ⟨disk.entries.filter fun e => e.1 ≠ place⟩

/-- Whether a place lies below another. -/
def isBelow (folder place : List CodeText) : Bool :=
  folder.isPrefixOf place && place.length ≠ folder.length

/-- The disk without what stands below a place. -/
def clear (disk : Disk) (folder : List CodeText) : Disk :=
  ⟨disk.entries.filter fun e => !isBelow folder e.1⟩

/-- The disk with a folder at every place on the way to a place. -/
def withFolders (disk : Disk) (place : List CodeText) : Disk :=
  (List.range place.length).foldl
    (fun disk n =>
      let folder := place.take (n + 1)
      if (disk.get? folder).isSome then disk else disk.put folder .folder) disk

/-- The disk with a file and the folders on the way to it. -/
def withFile (disk : Disk) (place : List CodeText) (content : ByteArray) : Disk :=
  (disk.withFolders place.dropLast).put place (.file content)

/-- Whether a name has too many bytes. -/
def nameTooLong (name : CodeText) : Bool := 255 < Path.size name

/-- What speaks against a path before it is walked. -/
def pathFault? (path : CodeText) : Option DiskFault :=
  if path.any fun point => (Path.pointSize? point).isNone then some .noBytes
  else if path.contains (.char (Char.ofNat 0)) then some .nullCharacter
  else if path.isEmpty then some .missing
  else if 4095 < Path.size path then some .tooLong
  else none

/-- Walk names from a place; where they lead must exist. -/
def walk (disk : Disk) (place : List CodeText) : List CodeText → Except DiskFault (List CodeText)
  | [] => if (disk.get? place).isSome then .ok place else .error .missing
  | name :: names =>
    match disk.get? place with
    | none => .error .missing
    | some (.file _) => .error .notFolder
    | some .folder =>
      if nameTooLong name then .error .tooLong else walk disk (Path.follow place name) names

/-- The place that a path leads to. -/
def resolve (disk : Disk) (cwd : List CodeText) (path : CodeText) :
    Except DiskFault (List CodeText) :=
  match pathFault? path with
  | some fault => .error fault
  | none => disk.walk (if Path.isAbsolute path then [] else cwd) (Path.names path)

/-- What a path leads to. -/
def find (disk : Disk) (cwd : List CodeText) (path : CodeText) : Except DiskFault Entry :=
  match disk.resolve cwd path with
  | .error fault => .error fault
  | .ok place =>
    match disk.get? place with
    | some entry => .ok entry
    | none => .error .missing

/-- Whether a path leads to anything. -/
def has (disk : Disk) (cwd : List CodeText) (path : CodeText) : Bool :=
  match disk.resolve cwd path with
  | .ok _ => true
  | .error _ => false

/-- Whether a path leads to a file. -/
def isFile (disk : Disk) (cwd : List CodeText) (path : CodeText) : Bool :=
  match disk.find cwd path with
  | .ok (.file _) => true
  | _ => false

/-- Whether a path leads to a folder. -/
def isFolder (disk : Disk) (cwd : List CodeText) (path : CodeText) : Bool :=
  match disk.find cwd path with
  | .ok .folder => true
  | _ => false

/-- The content of the file that a path leads to. -/
def read (disk : Disk) (cwd : List CodeText) (path : CodeText) : Except DiskFault ByteArray :=
  match disk.find cwd path with
  | .ok (.file content) => .ok content
  | .ok .folder => .error .isFolder
  | .error fault => .error fault

/-- The folder in which the last name of a path stands, and that name. Slashes at the end do not
count; the root has no name. -/
def parent (disk : Disk) (cwd : List CodeText) (path : CodeText) :
    Except DiskFault (List CodeText × Option CodeText) :=
  match pathFault? path with
  | some fault => .error fault
  | none =>
    let names := (Path.names path).reverse.dropWhile (· = []) |>.reverse
    match disk.walk (if Path.isAbsolute path then [] else cwd) names.dropLast with
    | .error fault => .error fault
    | .ok folder =>
      match disk.get? folder with
      | some .folder =>
        if names.getLast?.any nameTooLong then .error .tooLong else .ok (folder, names.getLast?)
      | _ => .error .notFolder

/-- Make a folder. -/
def makeFolder (disk : Disk) (cwd : List CodeText) (path : CodeText) : Except DiskFault Disk :=
  match disk.parent cwd path with
  | .error fault => .error fault
  | .ok (_, none) => .error .alreadyThere
  | .ok (folder, some name) =>
    if name = Path.here || name = Path.up || (disk.get? (folder ++ [name])).isSome then
      .error .alreadyThere
    else .ok (disk.put (folder ++ [name]) .folder)

/-- A disk, and a fault if the operation that led to it failed. -/
structure Change where
  disk : Disk
  fault : Option DiskFault

/-- A change that either happened or left the disk alone. -/
def Change.of (disk : Disk) : Except DiskFault Disk → Change
  | .ok next => ⟨next, none⟩
  | .error fault => ⟨disk, some fault⟩

/-- The path of the names before the last one of a path, given last first. -/
def pathOf (absolute : Bool) (reversed : List CodeText) : CodeText :=
  (if absolute then [Path.slash] else []) ++ Path.join reversed.reverse

/-- Make a folder and the folders on the way to it; the names of its path come last first. A
folder on the way that is there already is no fault; the last name `.` needs no folder of its own
once the one before it has been made. -/
def makeFoldersTo (cwd : List CodeText) (absolute : Bool) : List CodeText → Disk → Change
  | [], disk => .of disk (disk.makeFolder cwd (pathOf absolute []))
  | name :: above, disk =>
    let path := pathOf absolute (name :: above)
    let head := pathOf absolute above
    if head.isEmpty || disk.has cwd head then .of disk (disk.makeFolder cwd path)
    else
      let made := makeFoldersTo cwd absolute above disk
      match made.fault with
      | some .alreadyThere | none =>
        if name = Path.here then ⟨made.disk, none⟩
        else .of made.disk (made.disk.makeFolder cwd path)
      | some fault => ⟨made.disk, some fault⟩

/-- Make a folder and the folders on the way to it. -/
def makeFolders (disk : Disk) (cwd : List CodeText) (path : CodeText) : Change :=
  makeFoldersTo cwd (Path.isAbsolute path)
    (((Path.names path).filter (· ≠ [])).reverse) disk

/-- Remove a folder under a path: first all below it, then the folder itself. -/
def removeFolder (disk : Disk) (cwd : List CodeText) (path : CodeText) : Change :=
  match disk.resolve cwd path with
  | .error fault => ⟨disk, some fault⟩
  | .ok place =>
    let cleared := disk.clear place
    match cleared.parent cwd path with
    | .error fault => ⟨cleared, some fault⟩
    | .ok (_, none) => ⟨cleared, some .invalid⟩
    | .ok (_, some name) =>
      if name = Path.here || name = Path.up then ⟨cleared, some .invalid⟩
      else ⟨cleared.drop place, none⟩

/-- Write a file. -/
def write (disk : Disk) (cwd : List CodeText) (path : CodeText) (content : ByteArray) : Change :=
  match disk.parent cwd path with
  | .error fault => ⟨disk, some fault⟩
  | .ok (_, none) => ⟨disk, some .isFolder⟩
  | .ok (folder, some name) =>
    match disk.get? (folder ++ [name]) with
    | some .folder => ⟨disk, some .isFolder⟩
    | _ => ⟨disk.put (folder ++ [name]) (.file content), none⟩

/-- The files below a folder and the folders below it that hold nothing, with the names that lead
there. -/
def listing (disk : Disk) (folder : List CodeText) : List (List CodeText × Entry) :=
  (disk.entries.filter fun e =>
    isBelow folder e.1 &&
      (e.2 ≠ .folder || !disk.entries.any fun inner => isBelow e.1 inner.1)).map
    fun e => (e.1.drop folder.length, e.2)

end Disk

end XoLang
