/-!
# Paths

A path is a text in which `/` separates names. It is kept as it was written: the paths of files
found below a directory begin with the directory's own spelling.

* `Path.components` — the names between the slashes, the empty ones included;
* `Path.head`, `Path.base` — what stands before and after the last slash;
* `Path.join` — a path below another.
-/

namespace ComponentSpec.Path

/-- The pieces of a text between its slashes. -/
def pieces : List Char → List (List Char)
  | [] => [[]]
  | c :: cs =>
    if c = '/' then [] :: pieces cs
    else match pieces cs with
      | w :: ws => (c :: w) :: ws
      | [] => [[c]]

def components (path : String) : List String := (pieces path.toList).map String.ofList

def isAbsolute (path : String) : Bool := path.toList.head? == some '/'

/-- The characters after the last slash. -/
def baseChars (cs : List Char) : List Char := (cs.reverse.takeWhile (· ≠ '/')).reverse

/-- **The last name of a path**, empty after a slash at the end. -/
def base (path : String) : String := String.ofList (baseChars path.toList)

/-- **What stands before the last name**, without the slashes at its end unless it has no others. -/
def head (path : String) : String :=
  let cs := path.toList
  let front := cs.take (cs.length - (baseChars cs).length)
  String.ofList (if front.all (· = '/') then front else (front.reverse.dropWhile (· = '/')).reverse)

/-- **The path `name` below `directory`.** An absolute path stands for itself. -/
def join (directory name : String) : String :=
  if isAbsolute name then name
  else if directory.isEmpty || directory.toList.getLast? == some '/' then directory ++ name
  else directory ++ "/" ++ name

end ComponentSpec.Path
