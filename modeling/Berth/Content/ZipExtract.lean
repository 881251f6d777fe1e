import Berth.Data.Volume
import Berth.Session.Messages

/-!
Unpacking a zip archive, as the hub and the agent do it. Their two `unpack_zip` differ in how they
report errors, and in nothing else.
-/

namespace Berth.ZipExtract

open Interleave

/-- What `entry.size()` says is independent of what the entry decompresses to; `broken` is the error
that its stream ends with. -/
instance neZeroSizes : NeZero (2 ^ 64) := ⟨by decide⟩

structure ZipEntry where
  name : String
  isDir : Bool
  size : Fin (2 ^ 64)
  data : Bytes
  broken : Option String := none
  deriving DecidableEq

/-- `by_index` finds an entry or fails. -/
abbrev Archive : Type := List (Except String ZipEntry)

/-- How the errors of the `zip` crate and of the filesystem are passed on. -/
structure Reports (ε : Type) where
  zip : String → ε
  io : String → ε

def hubReports : Reports AppError := ⟨.zip, fun message => .io ⟨.other, message⟩⟩

def agentReports : Reports String := ⟨fun message => message, fun message => message⟩

abbrev Path : Type := List String

abbrev Act : Type := Disk.Act String UInt8

abbrev Async (ε α : Type) : Type := Fallible Act Disk.Res Empty ε α

section Functions

variable {ε : Type} (reports : Reports ε) (enclosedName : String → Option Path)

def liftExcept {α : Type} (toError : String → ε) (result : Except String α) : Async ε α :=
  ExceptT.mk (pure (result.mapError toError))

def io (action : Act) : Async ε Unit :=
  ExceptT.mk do
    let result ← Program.perform action
    pure (result.mapError reports.io)

def enclosedPath (entry : ZipEntry) : Except String Path :=
  match enclosedName entry.name with
  | some path => .ok path
  | none => .error "entry path escapes the destination directory"

/-- `u64::MAX`. -/
def u64Max : Fin (2 ^ 64) := ⟨2 ^ 64 - 1, by decide⟩

/-- `u64::saturating_add`. -/
def saturatingAdd (a b : Fin (2 ^ 64)) : Fin (2 ^ 64) :=
  if fits : a.val + b.val < 2 ^ 64 then ⟨a.val + b.val, fits⟩ else u64Max

/-- The first pass. -/
def totalSize (total : Fin (2 ^ 64)) : Archive → Except String (Fin (2 ^ 64))
  | [] => .ok total
  | .error message :: _ => .error message
  | .ok entry :: rest =>
      match enclosedPath enclosedName entry with
      | .error message => .error message
      | .ok _ => totalSize (saturatingAdd total entry.size) rest

def withinLimit (total maxUncompressedBytes : Fin (2 ^ 64)) : Except String Unit :=
  if total > maxUncompressedBytes then
    .error "uncompressed size exceeds the configured limit"
  else .ok ()

/-- `io::copy(&mut entry, &mut out_file)`. -/
def copy (outPath : Path) (entry : ZipEntry) : Async ε Unit := do
  io reports (.write outPath entry.data)
  match entry.broken with
  | some message => throw (reports.io message)
  | none => pure ()

def extractTo (outPath : Path) (entry : ZipEntry) : Async ε Unit :=
  if entry.isDir then
    io reports (.createDirAll outPath)
  else do
    io reports (.createDirAll outPath.dropLast)
    io reports (.createFile outPath)
    copy reports outPath entry

def extractEntry (dest : Path) (found : Except String ZipEntry) : Async ε Unit := do
  let entry ← liftExcept reports.zip found
  let relativePath ← liftExcept reports.zip (enclosedPath enclosedName entry)
  extractTo reports (dest ++ relativePath) entry

def unpackZip (reader : Except String Archive) (dest : Path)
    (maxUncompressedBytes : Fin (2 ^ 64)) : Async ε (Fin (2 ^ 64)) := do
  let archive ← liftExcept reports.zip reader
  let total ← liftExcept reports.zip (totalSize enclosedName 0 archive)
  liftExcept reports.zip (withinLimit total maxUncompressedBytes)
  Fallible.forEach (extractEntry reports enclosedName dest) archive
  pure total

end Functions

/-- `berth-hub`'s `unpack_zip`. -/
def Hub.unpackZip (enclosedName : String → Option Path) (reader : Except String Archive)
    (dest : Path) (maxUncompressedBytes : Fin (2 ^ 64)) : Async AppError (Fin (2 ^ 64)) :=
  ZipExtract.unpackZip hubReports enclosedName reader dest maxUncompressedBytes

/-- `berth-agent`'s `unpack_zip`. -/
def Agent.unpackZip (enclosedName : String → Option Path) (reader : Except String Archive)
    (dest : Path) (maxUncompressedBytes : Fin (2 ^ 64)) : Async String (Fin (2 ^ 64)) :=
  ZipExtract.unpackZip agentReports enclosedName reader dest maxUncompressedBytes

end Berth.ZipExtract
