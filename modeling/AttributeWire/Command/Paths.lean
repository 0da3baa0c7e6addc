/-
**Paths to files and sockets.**

A path is followed one name at a time, from the root if it begins with a slash and from the current
directory otherwise.  Every name on the way has to be that of a directory; a name that is too long
leads nowhere, but only after the names before it were found.

Main definitions:

* `Resource` — what a path leads to;
* `FileTree` — what there is, by the names on the way to it;
* `FileTree.find` — what a path leads to, or why it leads nowhere;
* `Environment`, `Environment.read`, `Environment.connect` — the surroundings of the command, and
  what can be done with paths in them.
-/

import AttributeWire.Channel
import AttributeWire.Text.Lines

set_option relaxedAutoImplicit false
set_option autoImplicit false

namespace AttributeWire

/-- What a path leads to. -/
inductive Resource where
  /-- A file. -/
  | file (contents : Bytes)
  /-- A socket on which a service listens. -/
  | socket (service : Service)
  /-- A directory. -/
  | directory
deriving DecidableEq, Repr

/-! ### Faults -/

namespace Fault

/-- A name on the way is not that of a directory. -/
def notADirectory : Fault := ⟨.other, "Not a directory (os error 20)"⟩

/-- A directory cannot be read. -/
def isADirectory : Fault := ⟨.other, "Is a directory (os error 21)"⟩

/-- A name, or the whole path, is too long. -/
def nameTooLong : Fault := ⟨.other, "File name too long (os error 36)"⟩

/-- A socket cannot be read like a file. -/
def notReadable : Fault := ⟨.other, "No such device or address (os error 6)"⟩

/-- Nobody listens. -/
def refused : Fault := ⟨.other, "Connection refused (os error 111)"⟩

/-- The path is too long for a socket. -/
def socketPathTooLong : Fault := ⟨.invalidInput, "path must be shorter than SUN_LEN"⟩

end Fault

/-! ### Trees -/

/-- A part of a file system. -/
structure FileTree where
  /-- The names on the way from the root to the current directory. -/
  current : List String
  /-- What there is besides the root, by the names on the way to it. -/
  entries : List (List String × Resource)

namespace FileTree

/-- How many bytes a name may have. -/
def nameLimit : Nat := 255

/-- How many bytes a path has to stay below. -/
def pathLimit : Nat := 4096

/-- What is at a place. -/
def get? (tree : FileTree) (place : List String) : Option Resource :=
  if place = [] then some .directory
  else (tree.entries.find? fun entry => entry.1 = place).map Prod.snd

/-- The root is a directory. -/
@[simp] theorem get?_nil (tree : FileTree) : tree.get? [] = some .directory := rfl

/-- One name further from a place that was found. -/
def stepTo (tree : FileTree) (place : List String) (name : String) :
    Except Fault (List String) :=
  if tree.get? place ≠ some .directory then .error .notADirectory
  else if name = "" ∨ name = "." then .ok place
  else if name = ".." then .ok place.dropLast
  else if nameLimit < name.utf8ByteSize then .error .nameTooLong
  else
    match tree.get? (place ++ [name]) with
    | some _ => .ok (place ++ [name])
    | none => .error (.ofKind .notFound)

/-- The place that names lead to from another one. -/
def walk (tree : FileTree) (place : List String) : List String → Except Fault (List String)
  | [] => .ok place
  | name :: names =>
      match tree.stepTo place name with
      | .error fault => .error fault
      | .ok next => tree.walk next names

/-- The names in a path.  A slash at an end makes an empty one. -/
def namesOf (path : String) : List String := (Lines.pieces '/' path.toList).map String.ofList

/-- What a path leads to. -/
def find (tree : FileTree) (path : String) : Except Fault Resource :=
  if path = "" then .error (.ofKind .notFound)
  else if pathLimit ≤ path.utf8ByteSize then .error .nameTooLong
  else
    let start := if path.toList.head? = some '/' then [] else tree.current
    match tree.walk start (namesOf path) with
    | .error fault => .error fault
    | .ok place =>
        match tree.get? place with
        | some resource => .ok resource
        | none => .error (.ofKind .notFound)

end FileTree

/-! ### Surroundings -/

/-- The surroundings of the command. -/
structure Environment where
  /-- The standard input. -/
  stdin : Stream
  /-- What a path leads to, or why it leads nowhere. -/
  resource : String → Except Fault Resource
  /-- The setting for the log, if there is one. -/
  logSetting : Option String

namespace Environment

/-- The contents of the file at a path. -/
def read (env : Environment) (path : String) : Except Fault Bytes :=
  match env.resource path with
  | .ok (.file contents) => .ok contents
  | .ok (.socket _) => .error .notReadable
  | .ok .directory => .error .isADirectory
  | .error fault => .error fault

/-- How many bytes the path of a socket has to stay below. -/
def socketPathLimit : Nat := 108

/-- A channel to the service at a path.  Only a socket has one. -/
def connect (env : Environment) (path : String) (config : Config) : Except Fault Channel :=
  if socketPathLimit ≤ path.utf8ByteSize then .error .socketPathTooLong
  else
    match env.resource path with
    | .ok (.socket service) => Channel.connect path (some service) config
    | .ok _ => .error .refused
    | .error fault => .error fault

end Environment

end AttributeWire
