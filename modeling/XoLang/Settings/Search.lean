import XoLang.Disk

/-!
# Finding the settings file

The nearest folder that has a settings file counts, from a folder upwards; in it the first name in
the order of priority. Folders with such a name do not count.
-/

namespace XoLang.Settings

/-- The names of settings files in the order of priority. -/
def fileNames : List CodeText :=
  [".xorc.yml", ".xorc.yaml", ".xorc.json", "xo.config.yml", "xo.config.json"]

/-- The path of the settings file in a folder; `root` is how paths start. -/
def inFolder? (disk : Disk) (root : CodeText) (folder : List CodeText) : Option CodeText :=
  (fileNames.map fun name => Path.text root (folder ++ [name])).find? (disk.isFile [])

/-- The path of the nearest settings file; the names of the folder come last first. -/
def nearest? (disk : Disk) (root : CodeText) : List CodeText → Option CodeText
  | [] => inFolder? disk root []
  | name :: above =>
    match inFolder? disk root (name :: above).reverse with
    | some path => some path
    | none => nearest? disk root above

/-- The path of the settings file for a folder. -/
def find? (disk : Disk) (cwd : List CodeText) (folder : CodeText) : Option CodeText :=
  nearest? disk (Path.root folder) (Path.absolute cwd folder).reverse

end XoLang.Settings
