import DeviceLink.Ascending
import DeviceLink.Text.Utf8

/-! A directory of files, as a value. Only what a store asks of it is there: no times, no owners,
and no failures but those that come from what a name stands for. -/
namespace DeviceLink.Store

/-- What a name in a directory stands for. -/
inductive Node
  | file (content : Octets)
  /-- A directory inside the directory. Its content is of no concern, only the octets that it is
  said to take up. -/
  | folder (size : Nat)
  deriving DecidableEq, Repr

def Node.size : Node → Nat
  | .file content => content.length
  | .folder size => size

/-- Names in ascending order, each with its node. -/
structure Directory where
  nodes : List (String × Node)
  deriving DecidableEq, Repr

namespace Directory

def empty : Directory := ⟨[]⟩

def ofFiles (files : List (String × Octets)) : Directory :=
  ⟨Ascending.ofList (files.map fun f => (f.1, .file f.2))⟩

def names (d : Directory) : List String := d.nodes.map Prod.fst

def read? (d : Directory) (name : String) : Option Octets :=
  match Ascending.find? name d.nodes with
  | some (.file content) => some content
  | _ => none

/-- A file with new content, made where there is none; a folder is not overwritten. -/
def write? (d : Directory) (name : String) (content : Octets) : Option Directory :=
  match Ascending.find? name d.nodes with
  | some (.folder _) => none
  | _ => some ⟨Ascending.insert name (.file content) d.nodes⟩

/-- The directory without a file; there must be one. -/
def remove? (d : Directory) (name : String) : Option Directory :=
  match Ascending.find? name d.nodes with
  | some (.file _) => some ⟨Ascending.erase name d.nodes⟩
  | _ => none

/-- A new folder, of one block where no size is given; the name must be free. -/
def makeFolder? (d : Directory) (name : String) (size : Nat := 4096) : Option Directory :=
  match Ascending.find? name d.nodes with
  | some _ => none
  | none => some ⟨Ascending.insert name (.folder size) d.nodes⟩

end Directory

inductive Place
  | free
  | file
  | directory (d : Directory)
  deriving DecidableEq, Repr

inductive OpenError
  /-- The system refuses, in words of its own that are left out here. -/
  | io
  deriving DecidableEq, Repr

/-- The directory at a path, made where the path is free; no directory is made in a file's place. -/
def Place.open : Place → Except OpenError Directory
  | .free => .ok .empty
  | .file => .error .io
  | .directory d => .ok d
end DeviceLink.Store
