import ElmBindgen.Value

/-!
# Paths

A path names a file below a search path. Its parts are walked one after another:
a dot stays where it is, two dots go up, and any other part is the name of a
directory. A route never leaves the search path that it starts in, so a path that
does has none.

## Main definitions

* `joinPath`: a path continued by another one
* `Route`: the directories that a path passes, and the file that it ends at
* `Route.ofPath?`: the route of a path
-/

namespace ElmBindgen

/-- A path continued by another one; an absolute one replaces it. -/
def joinPath (path next : String) : String :=
  if next.startsWith "/" then next
  else if path = "" ∨ path.endsWith "/" then path ++ next
  else path ++ "/" ++ next

/-- A way through the directories below a search path. A directory is given by the
names that lead down to it, so the search path itself is the empty list. -/
structure Route where
  passed : List (List String)
  directory : List String
  name : String

namespace Route

/-- A route that goes on to a directory. -/
def enter (route : Route) (directory : List String) : Route :=
  { route with passed := directory :: route.passed, directory := directory }

/-- A route that goes on by one part of a path. -/
def step (route : Route) (part : String) : Option Route :=
  if part = "" ∨ part = "." then some route
  else if part = ".." then
    if route.directory = [] then none else some (route.enter route.directory.dropLast)
  else some (route.enter (route.directory ++ [part]))

/-- The route of a path. -/
def ofPath? (path : String) : Option Route :=
  if path.startsWith "/" then none
  else
    let parts := path.splitOn "/"
    parts.dropLast.foldlM step ⟨[[]], [], parts.getLast?.getD ""⟩

/-- Whether two routes end at the same file. -/
def meets (route other : Route) : Bool :=
  route.directory == other.directory && route.name == other.name

/-- Whether every directory that a route passes is one of those given. -/
def isOpen (route : Route) (directories : List (List String)) : Bool :=
  route.passed.all directories.contains

end Route

end ElmBindgen
