import Abacus.Transcript

namespace Abacus

structure FileTree where
  files : List (List String × String)

namespace FileTree

def parts (path : String) : List String :=
  (go path.toList).map String.ofList
where
  go : List Char → List (List Char)
    | [] => [[]]
    | c :: cs =>
      if c = '/' then [] :: go cs
      else match go cs with
        | []            => [[c]]
        | part :: parts => (c :: part) :: parts

def names (path : String) : List String :=
  (parts path).foldl go []
where
  go (names : List String) (part : String) : List String :=
    if part = "" ∨ part = "." then names
    else if part = ".." then names.dropLast
    else names ++ [part]

-- Of two files in the same place the later one stands.
def ofList (files : List (String × String)) : FileTree where
  files := files.reverse.map fun (path, content) => (names path, content)

inductive Place
  | outside
  | directory (names : List String)
  | file (content : String)
  deriving DecidableEq, Repr

def entry? (t : FileTree) (names : List String) : Option Place :=
  match t.files.lookup names with
  | some content => some (.file content)
  | none         =>
    if t.files.any fun (path, _) => names.isPrefixOf path then some (.directory names) else none

def maxName : Nat := 255

def maxPath : Nat := 4096

def enter (t : FileTree) (path : String) (place : Place) (name : String) : Except FileError Place :=
  match place with
  | .file _ => .error (.notDirectory path)
  | .outside =>
    if name = "" ∨ name = "." ∨ name = ".." then .ok .outside
    else .error (if maxName < name.utf8ByteSize then .tooLong path else .missing path)
  | .directory names =>
    if name = "" ∨ name = "." then .ok (.directory names)
    else if name = ".." then .ok (if names = [] then .outside else .directory names.dropLast)
    else match t.entry? (names ++ [name]) with
      | some place => .ok place
      | none       => .error (if maxName < name.utf8ByteSize then .tooLong path else .missing path)

def read (t : FileTree) (path : String) : Except FileError String :=
  if '\x00' ∈ path.toList then .error .embeddedNull
  else if path = "" then .error (.missing path)
  else if maxPath ≤ path.utf8ByteSize then .error (.tooLong path)
  else
    let start := if path.toList.head? = some '/' then .outside else .directory []
    match (parts path).foldlM (t.enter path) start with
    | .error e                       => .error e
    | .ok (.file content)            => .ok content
    | .ok .outside | .ok (.directory _) => .error (.isDirectory path)

end FileTree

end Abacus
