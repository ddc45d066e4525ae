import InstrumentResponse.Selection

/-!
# Finding files of records

A file of records is named after its channel, `RESP.NET.STA.LOC.CHA` or `RESP.NET.STA.CHA`.  Files are
looked up in a tree of directories.

* `ChannelId.ofFileName?`: the channel of a file name.
* `FileTree.scan`: the selected files of one directory.
* `FileTree.find`: the selected files of the local directory, and those of a second directory that
  they do not hide; or an explicit file or directory.
-/

namespace InstrumentResponse

/-- The channel that a file of records is named after. -/
def ChannelId.ofFileName? (name : String) : Option ChannelId :=
  match Text.pieces '.' name with
  | ["RESP", network, station, location, channel] => some ⟨network, station, location, channel⟩
  | ["RESP", network, station, channel] => some ⟨network, station, "", channel⟩
  | _ => none

/-- A file, or a directory with named entries. -/
inductive FileTree where
  | file
  | directory (entries : List (String × FileTree))

/-- Why files cannot be found. -/
inductive SearchFault where
  /-- The variable names a directory that does not exist. -/
  | noSeedDirectory (path : String)
  | notFound (path : String)
  /-- A directory cannot be read. -/
  | unreadable (path : String)
deriving DecidableEq, Repr

def SearchFault.message : SearchFault → String
  | noSeedDirectory path => "SEEDRESP points to a non-existent directory: " ++ path
  | notFound path => "RESP file or directory not found: " ++ path
  | unreadable path => "Failed to read directory " ++ path

/-! ### Paths -/

/-- An entry of a directory by its path. -/
def joinPath (directory name : String) : String :=
  if directory.isEmpty || directory.endsWith "/" then directory ++ name
  else directory ++ "/" ++ name

namespace FileTree

def isFile : FileTree → Bool
  | file => true
  | directory _ => false

/-- The entries of a directory. -/
def entries? : FileTree → Option (List (String × FileTree))
  | file => none
  | directory entries => some entries

/-- Where some steps lead, with the directories on the way, the innermost first: each comes with the
name of its entry that was taken.  Empty steps and points stay in the directory, two points lead out
of it. -/
def walk (here : FileTree) (above : List (String × FileTree)) :
    List String → Option (FileTree × List (String × FileTree))
  | [] => some (here, above)
  | step :: steps =>
    match here with
    | file => none
    | directory entries =>
      if step = "" ∨ step = "." then walk here above steps
      else if step = ".." then
        match above with
        | [] => walk here [] steps
        | (_, parent) :: rest => walk parent rest steps
      else
        match entries.lookup step with
        | none => none
        | some next => walk next ((step, here) :: above) steps

/-- What stands at a path. -/
def lookup? (t : FileTree) (path : String) : Option FileTree :=
  (walk t [] (Text.pieces '/' path)).map (·.1)

/-- The steps from the top to what stands at a path, without ways up. -/
def canonical? (t : FileTree) (path : String) : Option (List String) :=
  (walk t [] (Text.pieces '/' path)).map fun (_, above) => (above.map (·.1)).reverse

/-- The entries of the directory at a path. -/
def list? (t : FileTree) (path : String) : Option (List (String × FileTree)) := do
  (← t.lookup? path).entries?

/-! ### Searching -/

/-- Is an entry a file of records of a selected channel? -/
def isSelected (selection : Selection) (entry : String × FileTree) : Bool :=
  entry.2.isFile && (ChannelId.ofFileName? entry.1).any selection.acceptsId

/-- The names of the selected files among some entries, in order. -/
def selectedNames (selection : Selection) (entries : List (String × FileTree)) : List String :=
  ((entries.filter (isSelected selection)).map (·.1)).mergeSort

/-- The names of the selected files of the directory at a path. -/
def scan (t : FileTree) (selection : Selection) (path : String) :
    Except SearchFault (List String) :=
  match t.list? path with
  | some entries => .ok (selectedNames selection entries)
  | none => .error (.unreadable path)

/-- Do two paths lead to the same place? -/
def isSame (t : FileTree) (path other : String) : Bool :=
  match t.canonical? path, t.canonical? other with
  | some a, some b => a == b
  | _, _ => false

/-- The directory that a variable names; blanks around it do not count, and a blank value is as good
as none. -/
def seedDirectory (t : FileTree) (named : Option String) :
    Except SearchFault (Option String) :=
  match named.map Text.trim with
  | none | some "" => .ok none
  | some path => if (t.list? path).isSome then .ok (some path) else .error (.noSeedDirectory path)

/-- The selected files of a local and a second directory.  A file of the second one is hidden by a
local file of the same name, and the same directory is not searched twice. -/
def findIn (t : FileTree) (selection : Selection) (home : String) (seed : Option String) :
    Except SearchFault (List String) := do
  let names ← t.scan selection home
  let found := names.map (joinPath home)
  match seed.filter fun path => !t.isSame path home with
  | none => return found
  | some path =>
    let others ← t.scan selection path
    return found ++ (others.filter (!names.contains ·)).map (joinPath path)

/-- The files to read: an explicit file, the selected files of an explicit directory, or those of
the local and the second directory. -/
def find (t : FileTree) (selection : Selection) (explicit : Option String) (home : String)
    (seed : Option String) : Except SearchFault (List String) :=
  match explicit with
  | none => t.findIn selection home seed
  | some path =>
    match t.lookup? path with
    | some file => .ok [path]
    | some (directory entries) => .ok ((selectedNames selection entries).map (joinPath path))
    | none => .error (.notFound path)

end FileTree

end InstrumentResponse
