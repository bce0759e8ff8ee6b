/-!
# WorkerGuard.Project.Path

Paths: texts whose parts stand between slashes.

* `Path.join`: a path that starts in a folder.
* `Path.place`: the parts without detours. Paths of one place lead to one file.
* `Path.ancestors`: the places of the folders on the way, the outermost first.
* `Path.within`: a path as it is seen from a folder.
-/

namespace WorkerGuard.Path

/-- A path that starts with a slash does not depend on the folder. -/
def join (folder path : String) : String :=
  if path.startsWith "/" || folder.isEmpty then path
  else if folder.endsWith "/" then folder ++ path
  else folder ++ "/" ++ path

/-- Parts that lead nowhere. -/
def isIdle (part : String) : Bool := part == "" || part == "."

def parts (path : String) : List String := (path.splitOn "/").filter fun p => !isIdle p

/-- One part further; nothing is above the top, and `absolute` says that the way started there. -/
def step (absolute : Bool) (way : List String) (part : String) : List String :=
  if part = ".." then
    match way.getLast? with
    | none => if absolute then [] else [".."]
    | some ".." => way ++ [".."]
    | some _ => way.dropLast
  else way ++ [part]

def way (path : String) : List String :=
  (parts path).foldl (step (path.startsWith "/")) []

def ofWay (absolute : Bool) (ps : List String) : String :=
  (if absolute then "/" else "") ++ String.intercalate "/" ps

def place (path : String) : String := ofWay (path.startsWith "/") (way path)

def ancestors (path : String) : List String :=
  ((List.range (way path).length).drop 1).map fun n =>
    ofWay (path.startsWith "/") ((way path).take n)

/-- A path that ends in a slash can only be a folder. -/
def isFolder (path : String) : Bool := path.endsWith "/" || (way path).isEmpty

/-- A path that does not lead into the folder stays as it is. -/
def within (folder path : String) : String :=
  let top := folder.splitOn "/"
  let all := path.splitOn "/"
  if top.isPrefixOf all then
    let rest := (all.drop top.length).dropWhile isIdle
    String.intercalate "/" (rest.reverse.dropWhile isIdle).reverse
  else path

end WorkerGuard.Path
