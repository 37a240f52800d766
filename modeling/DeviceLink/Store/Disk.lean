import DeviceLink.Envelope
import DeviceLink.Log
import DeviceLink.Settings
import DeviceLink.Store.Directory
import DeviceLink.Store.Order

/-! Messages waiting in a directory, one file a message. Files are numbered in the order of their
arrival, and what is found in the directory at the start counts as having arrived before. -/
namespace DeviceLink.Store

/-- A stored message: the number of its file, and the size of the file when it was indexed. -/
structure Entry where
  number : Nat
  size : Nat
  deriving DecidableEq, Repr

namespace Entry

def stem : String := "reading_"

def fileName (number : Nat) : String := stem ++ String.ofList (Text.decimal number)

/-- The number in a file's name; a sign and leading zeros do not count. -/
def number? (name : String) : Option Nat :=
  (stem.toList.isPrefixOf? name.toList).bind (Text.natural? limit64)

/-- By number, and by size between equal numbers. -/
def le (a b : Entry) : Bool := a.number < b.number || (a.number = b.number && a.size ≤ b.size)

def ofDirectory (d : Directory) : List Entry :=
  (d.nodes.filterMap fun (name, node) =>
    (number? name).map fun number => ⟨number, node.size⟩).mergeSort le

def total : List Entry → Nat
  | [] => 0
  | e :: rest => e.size + total rest

end Entry

structure Disk where
  directory : Directory
  order : Order
  /-- The octets that the messages may take; zero means no limit. -/
  limit : Nat
  /-- The stored messages, the oldest first. -/
  entries : List Entry
  /-- The number of the next message. Behind `2 ^ 64 - 1` it is one that no file can have. -/
  next : Nat
  /-- The octets that the messages take. -/
  total : Nat
  deriving Repr

namespace Disk

def openAt (d : Directory) (order : Order) : Logged Disk :=
  let entries := Entry.ofDirectory d
  ⟨{ directory := d
     order := order
     limit := 0
     entries := entries
     next := (entries.getLast?.map fun e => e.number + 1).getD 0
     total := Entry.total entries },
   [⟨.debug, "Opened message persistence", [("stored", .number entries.length)]⟩]⟩

def evictFile (d : Directory) (e : Entry) : Logged Directory :=
  match d.remove? (Entry.fileName e.number) with
  | some d => ⟨d, [⟨.debug, "Evicted persisted message over size limit",
      [("number", .number e.number), ("size", .number e.size)]⟩]⟩
  | none => ⟨d, [⟨.warn, "Failed to evict persisted message", [("number", .number e.number)]⟩]⟩

/-- Removes the oldest messages while all together exceed the limit; the newest always stays. -/
def evictFrom (limit : Nat) (d : Directory) (total : Nat) :
    List Entry → Logged (Directory × Nat × List Entry)
  | [] => ⟨(d, total, []), []⟩
  | [e] => ⟨(d, total, [e]), []⟩
  | e :: e' :: rest =>
    if total ≤ limit then ⟨(d, total, e :: e' :: rest), []⟩
    else
      let removed := evictFile d e
      let others := evictFrom limit removed.value (total - e.size) (e' :: rest)
      ⟨others.value, removed.log ++ others.log⟩

/-- Brings the messages below the limit, if there is one. -/
def evict (s : Disk) : Logged Disk :=
  if s.limit = 0 then ⟨s, []⟩
  else
    let r := evictFrom s.limit s.directory s.total s.entries
    let (directory, total, entries) := r.value
    ⟨{ s with directory := directory, total := total, entries := entries }, r.log⟩

/-- Sets the limit, which holds at once. -/
def withLimit (s : Disk) (limit : Nat) : Logged Disk := evict { s with limit := limit }

/-- Opens a directory with the limit that an environment sets. -/
def openIn (env : Environment) (d : Directory) (order : Order) : Logged Disk :=
  let opened := openAt d order
  let limited := opened.value.withLimit (Settings.storageLimit env)
  ⟨limited.value, opened.log ++ limited.log⟩

/-- Opens what is found at a path: the limit is the one that an environment sets, or none where no
environment is asked. -/
def openPlace (env : Option Environment) (p : Place) (order : Order) :
    Except OpenError (Logged Disk) :=
  p.open.map fun d => env.elim (openAt d order) fun env => openIn env d order

/-- Stores a message, and tells whether that succeeded. It fails where the file cannot be written;
an envelope can always be put into text. -/
def push (s : Disk) (e : Envelope) : Logged (Disk × Bool) :=
  let content := Text.encode (Envelope.stored.render e)
  match s.directory.write? (Entry.fileName s.next) content with
  | none => ⟨(s, false), [⟨.error, "Failed to persist message", [("number", .number s.next)]⟩]⟩
  | some d =>
    let r := evict
      { s with
        directory := d
        entries := s.entries ++ [⟨s.next, content.length⟩]
        next := s.next + 1
        total := s.total + content.length }
    ⟨(r.value, true), r.log⟩

def pop (s : Disk) : Logged Disk :=
  match s.order.next? s.entries with
  | none => ⟨s, []⟩
  | some e =>
    let s' := { s with entries := s.order.rest s.entries, total := s.total - e.size }
    match s.directory.remove? (Entry.fileName e.number) with
    | some d => ⟨{ s' with directory := d }, []⟩
    | none =>
      ⟨s', [⟨.warn, "Failed to remove persisted message", [("number", .number e.number)]⟩]⟩

def front (s : Disk) : Logged (Option Envelope) :=
  match s.order.next? s.entries with
  | none => ⟨none, []⟩
  | some e =>
    match s.directory.read? (Entry.fileName e.number) with
    | none =>
      ⟨none, [⟨.error, "Failed to read persisted message", [("number", .number e.number)]⟩]⟩
    | some content =>
      match Envelope.stored.parse content with
      | .ok message => ⟨some message, []⟩
      | .error _ =>
        ⟨none, [⟨.error, "Failed to decode persisted message", [("number", .number e.number)]⟩]⟩

def size (s : Disk) : Nat := s.entries.length

def isEmpty (s : Disk) : Bool := s.entries.isEmpty

/-- Takes out messages for as long as the next one can be read. -/
def drainFrom : Nat → Disk → Logged (Disk × List Envelope)
  | 0, s => ⟨(s, []), []⟩
  | bound + 1, s =>
    let f := s.front
    match f.value with
    | none => ⟨(s, []), f.log⟩
    | some e =>
      let p := s.pop
      let r := drainFrom bound p.value
      ⟨(r.value.1, e :: r.value.2), f.log ++ p.log ++ r.log⟩

/-- Takes out the stored messages in order, up to one that cannot be read. -/
def drain (s : Disk) : Logged (Disk × List Envelope) := drainFrom s.size s

end Disk
end DeviceLink.Store
