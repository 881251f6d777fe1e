import Berth.Data.AsyncFile
import Berth.Models
import Berth.Session.Messages

/-!
Uploads on their way to the disk. The agent and the hub both write what they receive into a file
that they drop without a flush, and then open it again to unpack it.
-/

namespace Berth.Received

open Interleave AsyncFile

/-- `receive_zip`: what it writes of the chunks its channel gives, and how it ends. -/
def receiveZip : List Chunk → List Bytes × Except String Unit
  | [] => ([], .error "hub closed the upload stream before sending a final chunk")
  | chunk :: rest =>
      if chunk.isFinal then ([chunk.data], .ok ())
      else (chunk.data :: (receiveZip rest).1, (receiveZip rest).2)

structure UploadField where
  name : Option String
  chunks : List (Except String Bytes)

def streamField (maxUploadBytes total : Nat) : List (Except String Bytes) → List Bytes × AppResult Nat
  | [] => ([], .ok total)
  | .error message :: _ => ([], .error (.multipart message))
  | .ok chunk :: rest =>
      let total := total + chunk.length
      if total > maxUploadBytes then ([], .error .tooLarge)
      else (chunk :: (streamField maxUploadBytes total rest).1,
        (streamField maxUploadBytes total rest).2)

/-- `stream_upload_to_disk`, likewise. -/
def streamUploadToDisk (maxUploadBytes : Nat) : List UploadField → List Bytes × AppResult Nat
  | [] => ([], .error .missingUploadFile)
  | field :: rest =>
      if field.name ≠ some "file" then streamUploadToDisk maxUploadBytes rest
      else streamField maxUploadBytes 0 field.chunks

inductive Upload where
  | receiveZip (chunks : List Chunk)
  | streamUploadToDisk (maxUploadBytes : Nat) (fields : List UploadField)

/-- The slices that have been written when the function returns. -/
def Upload.slices : Upload → List Bytes
  | receiveZip chunks => (Received.receiveZip chunks).1
  | streamUploadToDisk maxUploadBytes fields =>
      (Received.streamUploadToDisk maxUploadBytes fields).1

def Upload.returnsOk : Upload → Bool
  | receiveZip chunks => (Received.receiveZip chunks).2.isOk
  | streamUploadToDisk maxUploadBytes fields =>
      (Received.streamUploadToDisk maxUploadBytes fields).2.isOk

/-- In some order of the background writes, `extract_and_place` or `stage_deployment_files` opens
the file with this content. -/
def Upload.Opens (upload : Upload) (content : Bytes) : Prop :=
  upload.returnsOk = true ∧
    ∃ writing, (writer upload.slices).Reachable writing ∧ writing.found = some content

/-- An upload is found whole in every order exactly where it has failed or has no bytes. -/
theorem opens_whole_iff (upload : Upload) :
    (∀ content, upload.Opens content → content = upload.slices.flatten) ↔
      (upload.returnsOk = true → ∀ slice ∈ upload.slices, slice = []) := by
  rw [← List.flatten_eq_nil_iff]
  constructor
  · intro whole ok
    exact always_found_iff.1 fun writing reachable content found =>
      whole content ⟨ok, writing, reachable, found⟩
  · rintro empty content ⟨ok, writing, reachable, found⟩
    exact always_found_iff.2 (empty ok) writing reachable content found

theorem opens_whole_of_settled (upload : Upload) {writing : Writing UInt8} {content : Bytes}
    (settled : (writer upload.slices).ReachableBy Settled writing)
    (found : writing.found = some content) : content = upload.slices.flatten :=
  found_of_settled settled content found

/-- The last chunk with data is still in flight when the archive is opened. -/
theorem opens_cut : ¬ ∀ (upload : Upload) (content : Bytes), upload.Opens content →
    content = upload.slices.flatten := by
  intro whole
  let upload := Upload.receiveZip [⟨[80, 75], false⟩, ⟨[], true⟩]
  obtain ⟨last, reachable, found⟩ := Machine.exists_of_play (writer upload.slices) (fun _ _ => True)
    (fun _ _ => true) (fun writing => decide (writing.found = some [])) (fun _ _ _ => trivial) rfl
    [.write, .write, .openAgain] (by decide)
  have all := whole upload [] ⟨by decide, last, reachable, by simpa using found⟩
  exact absurd all (by decide)

end Berth.Received
