import DeviceLink.Json.Shape

/-! File transfers: progress, failures, descriptions of files, and chunks of file data. -/
namespace DeviceLink

inductive FileTransferStatus
  | awaitingDevice
  | fileTransfer
  | fileReady
  | error
  | aborted
  deriving DecidableEq, Repr

namespace FileTransferStatus

def all : List FileTransferStatus := [.awaitingDevice, .fileTransfer, .fileReady, .error, .aborted]

def token : FileTransferStatus → String
  | .awaitingDevice => "AWAITING_DEVICE"
  | .fileTransfer => "FILE_TRANSFER"
  | .fileReady => "FILE_READY"
  | .error => "ERROR"
  | .aborted => "ABORTED"

def ofToken? (token : String) : Option FileTransferStatus := all.find? fun s => s.token = token

end FileTransferStatus

inductive FileTransferError
  | unspecifiedError
  | transferProtocolDisabled
  | unsupportedFileSize
  | malformedUrl
  | fileHashMismatch
  | fileSystemError
  | retryCountExceeded
  deriving DecidableEq, Repr

namespace FileTransferError

def all : List FileTransferError :=
  [.unspecifiedError, .transferProtocolDisabled, .unsupportedFileSize, .malformedUrl,
    .fileHashMismatch, .fileSystemError, .retryCountExceeded]

/-- The number that a reason travels as. -/
def code : FileTransferError → Nat
  | .unspecifiedError => 0
  | .transferProtocolDisabled => 1
  | .unsupportedFileSize => 2
  | .malformedUrl => 3
  | .fileHashMismatch => 4
  | .fileSystemError => 5
  | .retryCountExceeded => 10

def ofCode? (code : Nat) : Option FileTransferError := all.find? fun e => e.code = code

def name : FileTransferError → String
  | .unspecifiedError => "UnspecifiedError"
  | .transferProtocolDisabled => "TransferProtocolDisabled"
  | .unsupportedFileSize => "UnsupportedFileSize"
  | .malformedUrl => "MalformedUrl"
  | .fileHashMismatch => "FileHashMismatch"
  | .fileSystemError => "FileSystemError"
  | .retryCountExceeded => "RetryCountExceeded"

end FileTransferError

/-- A file with its size in octets and its hash in hexadecimal digits. -/
structure FileInformation where
  name : String
  size : UInt64
  hash : String
  deriving DecidableEq, Repr

namespace FileInformation

/-- A file as a JSON record, stored and sent alike. -/
def shape : Json.Shape FileInformation :=
  .refine
    (.record (.required "name" .text (.required "size" .uint64 (.required "hash" .text .nil))))
    (fun (name, size, hash, ()) => .ok ⟨name, size, hash⟩)
    fun f => (f.name, f.size, f.hash, ())

end FileInformation

/-- A chunk of a file between the hash of the chunk before and its own. -/
structure FileChunk where
  previousHash : Octets
  data : Octets
  currentHash : Octets
  deriving DecidableEq, Repr

namespace FileChunk

def hashSize : Nat := 32

def empty : FileChunk := ⟨[], [], []⟩

/-- The parts of a frame; one that has no room for data between two hashes is empty. -/
def ofFrame (frame : Octets) : FileChunk :=
  if frame.length ≤ 2 * hashSize then empty
  else
    let rest := frame.drop hashSize
    ⟨frame.take hashSize, rest.take (rest.length - hashSize), rest.drop (rest.length - hashSize)⟩

/-- The three parts in a row. -/
def frame (c : FileChunk) : Octets := c.previousHash ++ c.data ++ c.currentHash

def isEmpty (c : FileChunk) : Bool := c = empty

end FileChunk
end DeviceLink
