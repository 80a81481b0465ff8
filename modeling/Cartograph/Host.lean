import Cartograph.Error
import Cartograph.Keyed
import Cartograph.Snapshot

/-!
# Hosts

What a run needs from the world around it: files, and a stamp for snapshots. It is a record of
actions in some monad (`Host`), so that everything built on it can be run on a real file system,
and reasoned about on a directory held in memory (`Store.host`).

Paths are relative to the directory of the run. A path names a file of the store if it has the same
parts; a path may lead through the directories that the files lie in, and nowhere else. Of the paths
that begin at the root there is only the one that takes everything and keeps nothing (`sink`).
-/

namespace Cartograph

/-- Actions on the world. -/
structure Host (m : Type → Type) where
  /-- The text of a file. -/
  read : String → m (Except IoKind String)
  /-- Sets the text of a file, which is made if it is not there. -/
  write : String → String → m (Except IoKind Unit)
  remove : String → m (Except IoKind Unit)
  /-- What marks a snapshot taken now. -/
  stamp : m Stamp

/-- Files in memory, by the parts of their paths. -/
structure Store where
  files : List (List String × String)

namespace Store

/-- The parts of a path; a part `..` takes back the part before it. -/
def parts (path : String) : List String :=
  ((path.toList.splitOn '/').map String.ofList).foldl (fun done part =>
    if part = "" ∨ part = "." then done
    else if part = ".." then done.dropLast
    else done ++ [part]) []

/-- Whether a path names a directory: the top, or what files lie in. -/
def isDirectory (s : Store) (ps : List String) : Bool :=
  ps.isEmpty || s.files.any fun (f, _) => ps.length < f.length && ps.isPrefixOf f

/-- Whether a path ends in a mark that only a directory's path may have. -/
def claimsDirectory (path : String) : Bool := path.toList.getLast? == some '/'

/-- What is wrong with a path that names neither a file nor a directory. -/
def missing (s : Store) (ps : List String) : IoKind :=
  if (List.range ps.length).any fun n => (Keyed.find? (ps.take n) s.files).isSome then
    .notADirectory
  else .notFound

/-- The path of the file that is always empty. -/
def sink : String := "/dev/null"

/-- Whether a path begins at the root. -/
def isAbsolute (path : String) : Bool := path.toList.head? == some '/'

/-- The text of a file. -/
def read (s : Store) (path : String) : Except IoKind String :=
  let ps := parts path
  if path = sink then .ok ""
  else if path = "" ∨ isAbsolute path then .error .notFound
  else match Keyed.find? ps s.files with
    | some text => if claimsDirectory path then .error .notADirectory else .ok text
    | none => .error (if s.isDirectory ps then .isADirectory else s.missing ps)

/-- Sets the text of a file. -/
def write (s : Store) (path text : String) : Except IoKind Store :=
  let ps := parts path
  if path = sink then .ok s
  else if path = "" ∨ isAbsolute path then .error .notFound
  else if s.isDirectory ps ∨ claimsDirectory path then .error .isADirectory
  else if s.isDirectory ps.dropLast then .ok ⟨Keyed.put ps text s.files⟩
  else .error (s.missing ps.dropLast)

/-- Removes a file. -/
def remove (s : Store) (path : String) : Except IoKind Store :=
  match s.read path with
  | .ok _ => if path = sink then .ok s else .ok ⟨Keyed.erase (parts path) s.files⟩
  | .error e => .error e

/-- The store of some files. -/
def ofFiles (files : List (String × String)) : Store :=
  ⟨Keyed.ordered (files.map fun (path, text) => (parts path, text))⟩

/-- A change that may fail, and then changes nothing. -/
def attempt (change : Store → Except IoKind Store) : StateM Store (Except IoKind Unit) := fun s =>
  match change s with
  | .ok t => (.ok (), t)
  | .error e => (.error e, s)

/-- The host whose files are those of the store. All its snapshots have one stamp. -/
def host (stamp : Stamp) : Host (StateM Store) where
  read path := do pure ((← get).read path)
  write path text := attempt fun s => s.write path text
  remove path := attempt fun s => s.remove path
  stamp := pure stamp

end Store

end Cartograph
