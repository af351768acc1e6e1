import XoLang.Text.CodePoint
import XoLang.Text.Lines

/-!
# Paths

A path is a text of code points, with slashes between names. An absolute place is a list of names
from the root of a disk. `absolute` resolves a path by its text alone: empty names and `.` stay,
`..` goes up, and the root is its own parent.

On a disk a path is bytes, the characters in UTF-8. The second halves of surrogate pairs from U+DC80
to U+DCFF stand for single bytes; other halves have none. Such bytes that write a character are that
character.
-/

namespace XoLang.Path

/-- What stands between two names. -/
def slash : CodePoint := .char '/'

/-- The name that stays where it is. -/
def here : CodeText := [.char '.']

/-- The name that goes up. -/
def up : CodeText := [.char '.', .char '.']

/-- The names of a path in order, empty ones included. -/
def names (path : CodeText) : List CodeText := Text.pieces slash path

/-- Whether a path starts at the root. -/
def isAbsolute (path : CodeText) : Bool := path.head? = some slash

/-- Whether a name stays where it is. -/
def isHere (name : CodeText) : Bool := name = [] || name = here

/-- Follow one name by its text. -/
def follow (place : List CodeText) (name : CodeText) : List CodeText :=
  if isHere name then place else if name = up then place.dropLast else place ++ [name]

/-- The place of a path by its text alone. -/
def absolute (cwd : List CodeText) (path : CodeText) : List CodeText :=
  (names path).foldl follow (if isAbsolute path then [] else cwd)

/-- Names in order with a slash between each two. -/
def join : List CodeText → CodeText
  | [] => []
  | [name] => name
  | name :: rest => name ++ slash :: join rest

/-- How the text of a place starts that a path leads to: two slashes at the start of a path stay,
and otherwise there is one. -/
def root (path : CodeText) : CodeText :=
  if (path.takeWhile (· = slash)).length = 2 then [slash, slash] else [slash]

/-- The text of a place. -/
def text (root : CodeText) (place : List CodeText) : CodeText := root ++ join place

/-- A name below a path: a slash is added unless one is there or the path is empty. -/
def child (path name : CodeText) : CodeText :=
  if path.isEmpty || path.getLast? = some slash then path ++ name else path ++ slash :: name

/-- The last name of a path; it is empty behind a slash. -/
def lastName (path : CodeText) : CodeText := (names path).getLastD []

/-- A name without its extension: what follows its last dot, unless only dots stand before it. -/
def stem (name : CodeText) : CodeText :=
  let behind := name.reverse.takeWhile (· ≠ .char '.')
  let before := name.take (name.length - behind.length - 1)
  if behind.length = name.length || before.all (· = .char '.') then name else before

/-- How many bytes a code point has in a path. -/
def pointSize? : CodePoint → Option Nat
  | .char c => some c.utf8Size
  | .low bits => if 0x80 ≤ bits.val && bits.val < 0x100 then some 1 else none
  | .high _ => none

/-- How many bytes a path has. -/
def size : CodeText → Nat
  | [] => 0
  | point :: rest => (pointSize? point).getD 0 + size rest

/-- The bytes that halves of pairs at the start of a path stand for. -/
def strayBytes : CodeText → List UInt8
  | .low bits :: rest =>
    if 0x80 ≤ bits.val && bits.val < 0x100 then bits.val.toUInt8 :: strayBytes rest else []
  | _ => []

/-- The character that bytes start with. -/
def firstChar? (bytes : List UInt8) : Option Char :=
  [2, 3, 4].findSome? fun size =>
    match (String.fromUTF8? (ByteArray.mk (bytes.take size).toArray)).map String.toList with
    | some [c] => some c
    | _ => none

/-- A path on a disk, once some code points have been left out. -/
def onDiskAfter : Nat → CodeText → CodeText
  | _, [] => []
  | count + 1, _ :: rest => onDiskAfter count rest
  | 0, point :: rest =>
    match firstChar? (strayBytes (point :: rest)) with
    | some c => .char c :: onDiskAfter (c.utf8Size - 1) rest
    | none => point :: onDiskAfter 0 rest

/-- A path on a disk: bytes that write a character are that character. -/
def onDisk (path : CodeText) : CodeText := onDiskAfter 0 path

/-- Characters are not changed. -/
@[simp] theorem onDisk_ofString (path : String) : onDisk (.ofString path) = .ofString path := by
  have nothing : firstChar? [] = none := by decide
  simp only [onDisk, CodeText.ofString, CodeText.ofChars]
  induction path.toList with
  | nil => rfl
  | cons c cs ih => simp [onDiskAfter, strayBytes, nothing, ih]

end XoLang.Path
