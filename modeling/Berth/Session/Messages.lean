import Berth.Agent

/-!
The messages of a `Session` that carry a payload in pieces: a zip upload, and an HTTP request that
is relayed to a container.
-/

namespace Berth

abbrev Bytes : Type := List UInt8

structure Chunk where
  data : Bytes
  isFinal : Bool
  deriving DecidableEq

structure UploadZipAndExtractRequest where
  deploymentId : String
  maxUncompressedBytes : Nat
  chunk : Option Chunk
  deriving DecidableEq

structure HttpHeader where
  name : String
  value : String
  deriving DecidableEq

structure RelayHttpRequestHead where
  method : String
  path : String
  headers : List HttpHeader
  containerName : String
  containerPort : Nat
  deriving DecidableEq

/-- The `part` of a `RelayHttpRequest`. -/
inductive RelayHttpRequest where
  | head (head : RelayHttpRequestHead)
  | bodyChunk (chunk : Chunk)
  deriving DecidableEq

structure RelayHttpResponseHead where
  status : Nat
  headers : List HttpHeader
  deriving DecidableEq

/-- The `part` of a `RelayHttpResponse`. -/
inductive RelayHttpResponse where
  | head (head : RelayHttpResponseHead)
  | bodyChunk (chunk : Chunk)
  | error (err : AgentError)
  deriving DecidableEq

end Berth
