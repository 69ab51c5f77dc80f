/-
The places at which log files can be opened. A path is read from the root or
from the working directory, and detours in it are cut short, so that a place
is the list of names that lead to it from the root. To open a file for writing
is to find a directory for it, and nothing else than a file in its place; a
file that is not there is made, unless the directory is closed to new ones.
Names and paths have a greatest length. What is written to a device that has
no room is held back, and lost when the file is closed.
-/
import ReversePolish.Datum

namespace ReversePolish
namespace Log

/-- The names on the way from the root. -/
abbrev Place := List String

namespace Place

/-- The place to which a name leads: an empty one and a dot lead nowhere, and two dots lead
back. Nothing is behind the root. -/
def enter (place : Place) (name : String) : Place :=
  if name = "" ∨ name = "." then place
  else if name = ".." then place.dropLast
  else place ++ [name]

end Place

structure Path where
  place : Place
  /-- Is it written with two slashes at the start? Any other number is written as one. -/
  doubled : Bool
  deriving DecidableEq, Repr

namespace Path

/-- Reads a path, from the working directory unless it starts with a slash. -/
def ofText (working : Place) (s : String) : Path where
  place := (s.splitOn "/").foldl Place.enter (if s.startsWith "/" then [] else working)
  doubled := s.startsWith "//" && !s.startsWith "///"

def text (p : Path) : String :=
  (if p.doubled then "//" else "/") ++ "/".intercalate p.place

end Path

inductive FileError where
  | missing (path : Path)
  /-- Something on the way is no directory. -/
  | notDirectory (path : Path)
  | isDirectory (path : Path)
  /-- The path, or a name on the way, is longer than any can be. -/
  | tooLong (path : Path)
  /-- The path leads to a device that is not connected. -/
  | unconnected (path : Path)
  | noRoom
  /-- A path that holds the null character leads nowhere. -/
  | nullCharacter
  /-- What is given is no path but of the type that the word is for. -/
  | notPath (typeWord : String)
  deriving DecidableEq, Repr

def FileError.message : FileError → String
  | .missing path => "[Errno 2] No such file or directory: " ++ quoted path.text
  | .notDirectory path => "[Errno 20] Not a directory: " ++ quoted path.text
  | .isDirectory path => "[Errno 21] Is a directory: " ++ quoted path.text
  | .tooLong path => "[Errno 36] File name too long: " ++ quoted path.text
  | .unconnected path => "[Errno 6] No such device or address: " ++ quoted path.text
  | .noRoom => "[Errno 28] No space left on device"
  | .nullCharacter => "embedded null byte"
  | .notPath typeWord => "expected str, bytes or os.PathLike object, not " ++ typeWord

/-- What can be at a place, besides directories and the files that are made. -/
inductive Device where
  /-- Takes lines and keeps none that anyone looks at. -/
  | sink
  /-- Has no room for lines. -/
  | full
  | unconnected
  deriving DecidableEq, Repr

structure FileSystem where
  /-- The directory from which paths are read. -/
  working : Place
  directories : List Place
  /-- The directories in which nothing is made. -/
  closed : List Place
  devices : List (Place × Device)
  /-- The files that were made, each with its new lines. -/
  files : List (Place × List String)
  /-- The places at which lines are held back. -/
  held : List Place
  deriving DecidableEq, Repr

namespace FileSystem

/-- An empty working directory among those that are usual. -/
def usual : FileSystem where
  working := ["tmp", "work"]
  directories := [[], ["tmp"], ["tmp", "work"], ["bin"], ["boot"], ["dev"], ["dev", "shm"], ["etc"],
    ["home"], ["lib"], ["media"], ["mnt"], ["opt"], ["proc"], ["root"], ["run"], ["sbin"], ["srv"],
    ["sys"], ["usr"], ["usr", "bin"], ["usr", "lib"], ["usr", "local"], ["var"], ["var", "log"],
    ["var", "tmp"]]
  closed := [["proc"]]
  devices := [(["dev", "null"], .sink), (["dev", "zero"], .sink), (["dev", "full"], .full),
    (["dev", "random"], .sink), (["dev", "urandom"], .sink), (["dev", "tty"], .unconnected),
    (["etc", "hostname"], .sink), (["etc", "hosts"], .sink), (["etc", "passwd"], .sink)]
  files := []
  held := []

def longestName : Nat := 255

def longestPath : Nat := 4095

/-- Is there something at the place that is no directory? -/
def isOccupied (fs : FileSystem) (place : Place) : Bool :=
  (fs.devices.lookup place).isSome || (fs.files.lookup place).isSome

/-- What keeps the file of a path from being opened, when the path leads to the directory `here`
and on along the names that are given. -/
def obstacle? (fs : FileSystem) (path : Path) (here : Place) : List String → Option FileError
  | [] => some (.isDirectory path)
  | name :: rest =>
    let next := here ++ [name]
    if longestName < name.utf8ByteSize then some (.tooLong path)
    else if fs.directories.contains next then fs.obstacle? path next rest
    else if rest.isEmpty then
      if fs.devices.lookup next = some .unconnected then some (.unconnected path)
      else if fs.closed.contains here && !fs.isOccupied next then some (.missing path)
      else none
    else if fs.isOccupied next then some (.notDirectory path)
    else some (.missing path)

def place? (fs : FileSystem) (given : Datum) : Except FileError Place :=
  match given with
  | .text s =>
    if s.contains '\x00' then .error .nullCharacter
    else
      let path := Path.ofText fs.working s
      if longestPath < path.text.utf8ByteSize then .error (.tooLong path)
      else match fs.obstacle? path [] path.place with
        | none => .ok path.place
        | some cause => .error cause
  | d => .error (.notPath d.typeWord)

/-- The same with a file at a place, unless something is there. -/
def make (fs : FileSystem) (place : Place) : FileSystem :=
  if fs.isOccupied place then fs else { fs with files := fs.files ++ [(place, [])] }

def append (fs : FileSystem) (place : Place) (lines : List String) : FileSystem :=
  if fs.devices.lookup place = some .full then { fs with held := place :: fs.held }
  else { fs with files := fs.files.map fun entry =>
      if entry.1 == place then (place, entry.2 ++ lines) else entry }

def close (fs : FileSystem) (place : Place) : FileSystem × Option FileError :=
  if fs.held.contains place then
    ({ fs with held := fs.held.filter (· != place) }, some .noRoom)
  else (fs, none)

def seen (fs : FileSystem) : FileSystem :=
  { fs with files := fs.files.map fun entry => (entry.1, []) }

/-- The files in the working directory by name, with their new lines. -/
def listing (fs : FileSystem) : List (String × List String) :=
  fs.files.filterMap fun (place, lines) => match place.getLast? with
    | some name => if place.dropLast = fs.working then some (name, lines) else none
    | none => none

end FileSystem
end Log
end ReversePolish
