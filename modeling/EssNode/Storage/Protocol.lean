import EssNode.Storage.Objects

/-!
# The Storage Protocol

The requests of the storage protocol, the node that answers them, and the client
that asks for a chunk.

The requests are about chunks: one is stored, or asked for, by the name of its object
and its index. The node that answers takes the data of a request for a whole object,
and answers with a whole object. The client wants a chunk and takes an object for an
error. So no chunk is ever fetched, whatever was stored before.
-/

namespace EssNode

open Authority Bincode Text

namespace Storage

/-! ### Messages -/

inductive StorageRequest where
  | put (objectId : String) (chunkIndex totalChunks : Nat) (data signature : List UInt8)
      (replicationNodes : List String)
  | get (objectId : String) (chunkIndex : Nat)
deriving DecidableEq, Repr

def Chunk.codec : Codec Chunk :=
  (string.pair <| (word 8).pair <| bytes.pair <| (array 12).pair string).refine
    (fun (objectId, chunkIndex, encryptedData, nonce, hash) =>
      some ⟨objectId, chunkIndex, encryptedData, nonce, hash⟩)
    (fun c => (c.objectId, c.chunkIndex, c.encryptedData, c.nonce, c.hash)) (fun _ => rfl)

namespace StorageResponse

/-- The number of a response's variant, and its fields. -/
def encode : StorageResponse → List UInt8
  | .chunk chunkIndex data => (word 4).encode 0 ++ ((word 8).pair bytes).encode (chunkIndex, data)
  | .object data => (word 4).encode 1 ++ bytes.encode data
  | .success => (word 4).encode 2
  | .error message => (word 4).encode 3 ++ string.encode message

/-- The fields of the variant with a number. -/
def decodeVariant : Nat → Decoder StorageResponse
  | 0 => (fun (chunkIndex, data) => .chunk chunkIndex data) <$> ((word 8).pair bytes).decode
  | 1 => .object <$> bytes.decode
  | 2 => pure .success
  | 3 => .error <$> string.decode
  | _ => StateT.lift none

def Fits : StorageResponse → Prop
  | .chunk chunkIndex data => ((word 8).pair bytes).Fits (chunkIndex, data)
  | .object data => bytes.Fits data
  | .success => True
  | .error message => string.Fits message

theorem decode_variant {tag : Nat} (htag : tag < 256 ^ 4) (rest : List UInt8) :
    ((word 4).decode >>= decodeVariant) ((word 4).encode tag ++ rest) = decodeVariant tag rest :=
  Decoder.bind_of_eq ((word 4).decode_encode tag rest htag)

def codec : Codec StorageResponse where
  encode := encode
  decode := (word 4).decode >>= decodeVariant
  Fits := Fits
  decode_encode r rest h := by
    cases r with
    | chunk chunkIndex data =>
      rw [encode, List.append_assoc, decode_variant (by decide)]
      exact Decoder.map_of_eq (((word 8).pair bytes).decode_encode _ rest h)
    | object data =>
      rw [encode, List.append_assoc, decode_variant (by decide)]
      exact Decoder.map_of_eq (bytes.decode_encode data rest h)
    | success =>
      rw [encode, decode_variant (by decide)]
      rfl
    | error message =>
      rw [encode, List.append_assoc, decode_variant (by decide)]
      exact Decoder.map_of_eq (string.decode_encode message rest h)

end StorageResponse

/-! ### The node that answers -/

/-- How a request goes: what a call of `put_object` meets, and what a call of
    `get_object` does. -/
structure RequestEvents where
  put : PutEvents
  load : Option LoadFault
  answers : String → KadReply

section Server

variable (env : StorageEnv)

namespace StorageLayer

variable (self : StorageLayer)

/-- Answer a request of a peer. Nothing is said about a peer whose name is not one. -/
def handleRequest (events : RequestEvents) (request : StorageRequest) (peerId : String) :
    StorageLayer × Option StorageResponse :=
  if (env.parsePeerId peerId).any fun pid => !self.authority.isAllowed pid .connect then
    (self, some (.error "Access denied"))
  else
    match request with
    -- Neither the index nor the number of chunks is looked at.
    | .put objectId _ _ data _ _ =>
      let outcome := self.putObject env events.put objectId data
      (outcome.layer, outcome.response)
    | .get objectId _ =>
      let (layer, response) := self.getObject env events.load events.answers objectId
      (layer, some response)

def serve (requests : List (RequestEvents × StorageRequest × String)) : StorageLayer :=
  requests.foldl (fun layer (events, request, peerId) =>
    (layer.handleRequest env events request peerId).1) self

theorem handleRequest_get (events : RequestEvents) (objectId : String) (chunkIndex : Nat)
    (peerId : String) :
    (∃ data, (self.handleRequest env events (.get objectId chunkIndex) peerId).2
        = some (.object data)) ∨
      ∃ message, (self.handleRequest env events (.get objectId chunkIndex) peerId).2
        = some (.error message) := by
  unfold handleRequest
  split
  · exact Or.inr ⟨_, rfl⟩
  · rcases self.getObject_cases env events.load events.answers objectId with
      ⟨message, hget⟩ | ⟨metadata, data, -, -, hget⟩
    · exact Or.inr ⟨message, by simp only [hget]⟩
    · exact Or.inl ⟨data, by simp only [hget]⟩

end StorageLayer

end Server

/-! ### The client -/

/-- What comes back for a request: the bytes of the response, unless it is lost. -/
def respond (lost : String) : Option StorageResponse → Except String (List UInt8)
  | some response => .ok (StorageResponse.codec.serialize response)
  | none => .error lost

/-- Ask a peer for a chunk. What the format says of bytes it cannot read is taken from
    elsewhere. -/
def fetchChunkFromPeer (unreadable : List UInt8 → String)
    (sendDirectMessage : StorageRequest → Except String (List UInt8)) (objectId : String)
    (chunkIndex : Nat) : Except String (Option Chunk) := do
  let respBytes ← sendDirectMessage (.get objectId chunkIndex)
  match StorageResponse.codec.deserialize respBytes with
  | none => .error (unreadable respBytes)
  | some (.chunk _ data) =>
    match Chunk.codec.option.deserialize data with
    | some chunk => .ok chunk
    | none => .error (unreadable data)
  | some (.object _) => .error "Unexpected Object response for single chunk"
  | some _ => .error "Invalid response"

theorem deserialize_not_chunk {response : StorageResponse}
    (hvariant : (∃ object, response = .object object) ∨ ∃ message, response = .error message)
    (chunkIndex : Nat) (data : List UInt8) :
    StorageResponse.codec.deserialize (StorageResponse.codec.serialize response)
      ≠ some (.chunk chunkIndex data) := by
  intro h
  obtain ⟨⟨read, rest⟩, hdecode, hread⟩ := Option.map_eq_some_iff.mp h
  obtain rfl : read = .chunk chunkIndex data := hread
  change ((word 4).decode >>= StorageResponse.decodeVariant) response.encode = _ at hdecode
  rcases hvariant with ⟨object, rfl⟩ | ⟨message, rfl⟩
  · rw [StorageResponse.encode, StorageResponse.decode_variant (by decide)] at hdecode
    obtain ⟨object', -, hobject⟩ := Decoder.map_eq_some hdecode
    exact absurd hobject (by simp)
  · rw [StorageResponse.encode, StorageResponse.decode_variant (by decide)] at hdecode
    obtain ⟨message', -, hmessage⟩ := Decoder.map_eq_some hdecode
    exact absurd hmessage (by simp)

/-- Whatever requests a node has answered, in whatever order, asking it for a chunk
    gives an error. -/
theorem no_chunk_fetched (env : StorageEnv) (unreadable : List UInt8 → String) (lost : String)
    (layer : StorageLayer) (requests : List (RequestEvents × StorageRequest × String))
    (events : RequestEvents) (peerId objectId : String) (chunkIndex : Nat) :
    ∃ e, fetchChunkFromPeer unreadable (fun request =>
        respond lost ((layer.serve env requests).handleRequest env events request peerId).2)
      objectId chunkIndex = .error e := by
  obtain ⟨response, hresponse, hvariant⟩ : ∃ response,
      ((layer.serve env requests).handleRequest env events (.get objectId chunkIndex) peerId).2
        = some response ∧
      ((∃ object, response = .object object) ∨ ∃ message, response = .error message) := by
    rcases (layer.serve env requests).handleRequest_get env events objectId chunkIndex peerId with
      ⟨data, hget⟩ | ⟨message, hget⟩
    · exact ⟨_, hget, Or.inl ⟨data, rfl⟩⟩
    · exact ⟨_, hget, Or.inr ⟨message, rfl⟩⟩
  unfold fetchChunkFromPeer
  simp only [hresponse, respond, bind, Except.bind]
  cases hread : StorageResponse.codec.deserialize (StorageResponse.codec.serialize response) with
  | none => exact ⟨_, rfl⟩
  | some read =>
    cases read with
    | chunk index data => exact absurd hread (deserialize_not_chunk hvariant index data)
    | object data => exact ⟨_, rfl⟩
    | success => exact ⟨_, rfl⟩
    | error message => exact ⟨_, rfl⟩

/-! ### An object of two chunks -/

/-- A node that lets a peer in. -/
def openLayer : StorageLayer :=
  { clearLayer with authority := { AuthorityState.default with supernodes := ["peer"] } }

/-- A request in which nothing fails and the DHT knows nothing. -/
def smoothRequest : RequestEvents :=
  { put := smoothly, load := none, answers := fun _ => .replied (.ok none) }

/-- The two chunks of an object, in their order. -/
def twoChunks : List (RequestEvents × StorageRequest × String) :=
  [(smoothRequest, .put "a" 0 2 [1, 2] [] [], "peer"),
    (smoothRequest, .put "a" 1 2 [3] [] [], "peer")]

/-- Both chunks are stored with success. Asked for the first, the node answers with an
    object that is the second, and the client reports an error. -/
theorem twoChunks_not_fetched :
    (openLayer.handleRequest clearEnv smoothRequest (.put "a" 0 2 [1, 2] [] []) "peer").2
        = some .success ∧
      ((openLayer.serve clearEnv (twoChunks.take 1)).handleRequest clearEnv smoothRequest
        (.put "a" 1 2 [3] [] []) "peer").2 = some .success ∧
      ((openLayer.serve clearEnv twoChunks).handleRequest clearEnv smoothRequest
        (.get "a" 0) "peer").2 = some (.object [3]) ∧
      (fetchChunkFromPeer (fun _ => "unreadable") (fun request => respond "lost"
          ((openLayer.serve clearEnv twoChunks).handleRequest clearEnv smoothRequest request
            "peer").2) "a" 0).toOption = none := by
  decide +kernel

end Storage

end EssNode
