import EssNode.Authority
import EssNode.Lib.Separated
import EssNode.Lib.Text

/-!
# Object Storage

How a node stores an object in the network and gets it back.

An object is cut into chunks, or into the shards of an erasure code. Each is
encrypted under a key derived for the object and put under a key made of the
object's name and the chunk's index, into a cache in memory and into the DHT. What
the object is made of, with the hash of its data, goes into a database beforehand.
To get the object back, the node looks up its metadata, collects the chunks, each
from the cache or else from the DHT, decrypts them, and compares the hash.

The database keeps what was written when the node restarts, and so does the DHT;
the cache does not. The DHT is not trusted: what comes back for a key is an
argument of the functions that ask. What can go wrong with the database and with
the DHT during a call is an argument too. A call that panics gives no response.

Hashing, the cipher and the erasure code are taken from elsewhere. The cipher never
fails to encrypt. Sizes and counts are natural numbers.
-/

namespace EssNode

open Authority Bincode Text

namespace Storage

/-- A master key, the key of an object, or a hash. -/
abbrev Key := Vector UInt8 32

abbrev Nonce := Vector UInt8 12

/-- An erasure code for a number of data and parity shards. -/
structure ReedSolomon where
  encode : List (List UInt8) → Except String (List (List UInt8))
  reconstruct : List (Option (List UInt8)) → Except String (List (Option (List UInt8)))

/-- What storage takes from other crates: SHA-256, AES-256-GCM, erasure codes, and the
    text form of peer identifiers. -/
structure StorageEnv where
  sha256 : List UInt8 → Key
  encrypt : Key → Nonce → List UInt8 → List UInt8
  decrypt : Key → Nonce → List UInt8 → Option (List UInt8)
  reedSolomon : Nat → Nat → Except String ReedSolomon
  parsePeerId : String → Option String

def StorageEnv.hexDigest (env : StorageEnv) (data : List UInt8) : String :=
  hexEncode (env.sha256 data).toList

theorem StorageEnv.hexDigest_eq_iff (env : StorageEnv) {data data' : List UInt8} :
    env.hexDigest data = env.hexDigest data' ↔ env.sha256 data = env.sha256 data' := by
  constructor
  · intro h
    exact Vector.toList_inj.mp (hexEncode_injective h)
  · intro h
    rw [hexDigest, h, hexDigest]

/-! ### Chunks -/

/-- An encrypted piece of an object. -/
structure Chunk where
  objectId : String
  chunkIndex : Nat
  encryptedData : List UInt8
  nonce : Nonce
  hash : String
deriving DecidableEq

def chunkKey (objectId : String) (index : Nat) : String := objectId ++ ":" ++ Nat.repr index

namespace Chunk

variable (env : StorageEnv)

def encrypt (nonce : Nonce) (objectId : String) (chunkIndex : Nat) (plainData : List UInt8)
    (key : Key) : Chunk :=
  let encryptedData := env.encrypt key nonce plainData
  { objectId := objectId
    chunkIndex := chunkIndex
    encryptedData := encryptedData
    nonce := nonce
    hash := env.hexDigest encryptedData }

def decrypt (self : Chunk) (key : Key) : Except String (List UInt8) :=
  if env.hexDigest self.encryptedData ≠ self.hash then
    .error "Chunk integrity check failed – hash mismatch"
  else
    match env.decrypt key self.nonce self.encryptedData with
    | some plain => .ok plain
    | none => .error "decryption error: aead::Error"

def chunkId (self : Chunk) : String := chunkKey self.objectId self.chunkIndex

theorem decrypt_encrypt {env : StorageEnv} {key : Key}
    (hcipher : ∀ nonce plain, env.decrypt key nonce (env.encrypt key nonce plain) = some plain)
    (nonce : Nonce) (objectId : String) (chunkIndex : Nat) (plain : List UInt8) :
    (encrypt env nonce objectId chunkIndex plain key).decrypt env key = .ok plain := by
  unfold decrypt
  rw [if_neg (by simp [encrypt])]
  simp only [encrypt, hcipher]

end Chunk

def deriveObjectKey (env : StorageEnv) (masterKey : Key) (objectId : String) : Key :=
  env.sha256 (utf8 "ESS-STORAGE-OBJECT-KEY-v1" ++ masterKey.toList ++ utf8 objectId)

/-- The name of a chunk tells the object and the index: the index has no colon in it,
    whatever the object's name has. -/
theorem chunkKey_injective {objectId objectId' : String} {index index' : Nat}
    (h : chunkKey objectId index = chunkKey objectId' index') :
    objectId = objectId' ∧ index = index' := by
  have hdigits (n : Nat) : ':' ∉ (Nat.toDigits 10 n).reverse := by
    rw [List.mem_reverse]
    intro hmem
    exact absurd (Nat.isDigit_of_mem_toDigits (by decide) (by decide) hmem) (by decide)
  have hlist : objectId.toList ++ ':' :: Nat.toDigits 10 index
      = objectId'.toList ++ ':' :: Nat.toDigits 10 index' := by
    have htext := congrArg String.toList h
    simpa [chunkKey, Nat.repr_eq_ofList_toDigits] using htext
  -- Read from the end, the index is what stands in front of the first colon.
  have hback := congrArg List.reverse hlist
  simp only [List.reverse_append, List.reverse_cons] at hback
  obtain ⟨hindex, hname⟩ :=
    Separated.cancel_part (Or.inr (hdigits index)) (Or.inr (hdigits index')) hback
  refine ⟨String.toList_inj.mp (List.reverse_injective hname), ?_⟩
  have hvalue := congrArg (Nat.ofDigitChars 10 · 0) (List.reverse_injective hindex)
  simpa only [Nat.ofDigitChars_ten_toDigits] using hvalue

/-- The pieces of a given size, of which the last may be shorter. -/
def chunksOf (size : Nat) (data : List UInt8) : List (List UInt8) :=
  (List.range ((data.length + size - 1) / size)).map fun i => (data.drop (i * size)).take size

theorem flatten_chunksOf {size : Nat} (hsize : size ≠ 0) (data : List UInt8) :
    (chunksOf size data).flatten = data := by
  have hfirst (k : Nat) : ((List.range k).map fun i => (data.drop (i * size)).take size).flatten
      = data.take (k * size) := by
    induction k with
    | zero => simp
    | succ k ih =>
      rw [List.range_succ, List.map_append, List.flatten_append, ih, Nat.succ_mul, List.take_add]
      simp
  rw [chunksOf, hfirst]
  refine List.take_of_length_le ?_
  have hdiv := Nat.lt_div_mul_add (a := data.length + size - 1) (Nat.pos_of_ne_zero hsize)
  omega

/-! ### Erasure coding -/

structure ErasureConfig where
  dataShards : Nat := 4
  parityShards : Nat := 2

structure ErasureEncoder where
  config : ErasureConfig
  encoder : ReedSolomon

namespace ErasureEncoder

def new (env : StorageEnv) (config : ErasureConfig) : Except String ErasureEncoder := do
  let encoder ← env.reedSolomon config.dataShards config.parityShards
  .ok ⟨config, encoder⟩

/-- One data shard, filled up with zeros. The slice panics where it would start behind
    the end of the data. -/
def dataShard (data : List UInt8) (shardSize i : Nat) : Option (List UInt8) :=
  let start := i * shardSize
  let stop := min (start + shardSize) data.length
  if stop < start then none
  else
    some ((data.drop start).take (stop - start) ++ List.replicate (shardSize - (stop - start)) 0)

/-- The shards of an object. Nothing is returned if the encoder panics. -/
def encode (self : ErasureEncoder) (data : List UInt8) :
    Option (Except String (List (List UInt8))) :=
  if self.config.dataShards = 0 then none
  else do
    let shardSize := (data.length + self.config.dataShards - 1) / self.config.dataShards
    let shards ← (List.range self.config.dataShards).mapM (dataShard data shardSize)
    let parity := List.replicate self.config.parityShards (List.replicate shardSize 0)
    some (self.encoder.encode (shards ++ parity))

def decode (self : ErasureEncoder) (shards : List (Option (List UInt8))) (originalSize : Nat) :
    Except String (List UInt8) := do
  let shards ← self.encoder.reconstruct shards
  match (shards.take self.config.dataShards).mapM id with
  | none => .error "Missing data shard after reconstruction"
  | some parts => .ok (parts.flatten.take originalSize)

end ErasureEncoder

/-! ### The DHT -/

/-- What comes back for a key that was asked for in the network. -/
inductive KadReply where
  | noSwarm
  | timeout
  | dropped (e : String)
  | replied (result : Except String (Option Chunk))

inductive PutFault where
  | serialize (e : String)
  | noSwarm
  | putRecord (e : String)

/-- The cache in memory, and the last chunk that was put into the DHT under each key. -/
structure DhtStore where
  localCache : FinMap String Chunk
  published : FinMap String Chunk

namespace DhtStore

variable (self : DhtStore)

/-- Store a chunk. It is in the cache before the DHT is asked. -/
def putChunk (fault : Option PutFault) (chunk : Chunk) : DhtStore × Except String Unit :=
  let cached := { self with localCache := self.localCache.insert chunk.chunkId chunk }
  match fault with
  | some (.serialize e) => (self, .error e)
  | some .noSwarm => (cached, .error "Swarm not available")
  | some (.putRecord e) => (cached, .error e)
  | none => ({ cached with published := self.published.insert chunk.chunkId chunk }, .ok ())

def getChunkFromDht : KadReply → Except String (Option Chunk)
  | .noSwarm => .error "Swarm not available"
  | .timeout => .error "DHT get chunk timeout"
  | .dropped e => .error ("Channel receive error: " ++ e)
  | .replied (.ok chunk) => .ok chunk
  | .replied (.error e) => .error ("Kad query error: " ++ e)

def getChunk (answers : String → KadReply) (objectId : String) (index : Nat) :
    Except String (Option Chunk) :=
  let key := chunkKey objectId index
  match self.localCache[key]? with
  | some chunk => .ok (some chunk)
  | none => getChunkFromDht (answers key)

/-- Store chunks one after the other, up to the first that fails. -/
def storeAll (faults : Nat → Option PutFault) :
    DhtStore → List Chunk → DhtStore × Except String Unit
  | self, [] => (self, .ok ())
  | self, chunk :: rest =>
    match self.putChunk (faults chunk.chunkIndex) chunk with
    | (stored, .ok ()) => storeAll faults stored rest
    | (stored, .error e) =>
      (stored, .error ("Failed to store chunk " ++ Nat.repr chunk.chunkIndex ++ ": " ++ e))

/-- A store with one more chunk, in the cache and in the DHT. -/
def withChunk (chunk : Chunk) : DhtStore :=
  { localCache := self.localCache.insert chunk.chunkId chunk
    published := self.published.insert chunk.chunkId chunk }

theorem storeAll_eq_ok (faults : Nat → Option PutFault) (chunks : List Chunk)
    (h : (self.storeAll faults chunks).2 = .ok ()) :
    (self.storeAll faults chunks).1 = chunks.foldl withChunk self := by
  induction chunks generalizing self with
  | nil => rfl
  | cons chunk rest ih =>
    rw [storeAll] at h ⊢
    cases hfault : faults chunk.chunkIndex with
    | some fault =>
      rw [hfault] at h
      cases fault <;> exact absurd h (by simp [putChunk])
    | none =>
      rw [hfault] at h
      exact ih (self.withChunk chunk) h

end DhtStore

/-! ### Metadata -/

/-- What is known of a stored object. -/
structure ObjectMetadata where
  objectId : String
  totalChunks : Nat
  chunkHashes : List String
  hash : String
  originalSize : Nat
  useErasureCoding : Bool
  totalShards : Nat
deriving DecidableEq

/-- What goes wrong when metadata is written; a flush fails after the entry is in. -/
inductive SaveFault where
  | serialize (e : String)
  | insert (e : String)
  | flush (e : String)

inductive LoadFault where
  | read (e : String)
  | deserialize (e : String)

/-- The objects of the database, by name. -/
abbrev MetadataStore := FinMap String ObjectMetadata

namespace MetadataStore

def saveMetadata (self : MetadataStore) (fault : Option SaveFault) (metadata : ObjectMetadata) :
    MetadataStore × Except String Unit :=
  match fault with
  | some (.serialize e) => (self, .error ("Serialization error: " ++ e))
  | some (.insert e) => (self, .error ("DB insert error: " ++ e))
  | some (.flush e) =>
    (self.insert metadata.objectId metadata, .error ("DB flush error: " ++ e))
  | none => (self.insert metadata.objectId metadata, .ok ())

def loadMetadata (self : MetadataStore) (fault : Option LoadFault) (objectId : String) :
    Except String (Option ObjectMetadata) :=
  match fault with
  | some (.read e) => .error ("DB read error: " ++ e)
  | some (.deserialize e) => .error ("Deserialization error: " ++ e)
  | none => .ok self[objectId]?

end MetadataStore

/-! ### Objects -/

structure StorageLayerConfig where
  chunkSize : Nat := 1024 * 1024
  useErasureCoding : Bool := false
  maxObjectSize : Nat := 1024 * 1024 * 1024

structure StorageStats where
  objectsStored : Nat := 0
  chunksStored : Nat := 0
  bytesStored : Nat := 0
  chunksServed : Nat := 0
  bytesServed : Nat := 0

inductive StorageResponse where
  | chunk (chunkIndex : Nat) (data : List UInt8)
  | object (data : List UInt8)
  | success
  | error (message : String)
deriving DecidableEq, Repr

structure StorageLayer where
  config : StorageLayerConfig
  masterKey : Key
  authority : AuthorityState
  objects : MetadataStore
  dht : DhtStore
  stats : StorageStats
  erasureEncoder : Option ErasureEncoder

/-- How a call of `put_object` goes: the nonces that are drawn, and what fails. -/
structure PutEvents where
  nonces : Nat → Nonce
  save : Option SaveFault
  store : Nat → Option PutFault

/-- The node after a call of `put_object`, the response unless the call panicked, and
    whether the object's metadata got into the database. -/
structure PutOutcome where
  layer : StorageLayer
  response : Option StorageResponse
  saved : Bool := false

namespace StorageLayer

variable (env : StorageEnv)

/-- A node that starts, with what is in its database and in the DHT. -/
def new (config : StorageLayerConfig) (masterKey : Key) (authority : AuthorityState)
    (objects : MetadataStore) (published : FinMap String Chunk) : StorageLayer :=
  { config := config
    masterKey := masterKey
    authority := authority
    objects := objects
    dht := { localCache := ∅, published := published }
    stats := {}
    erasureEncoder :=
      if config.useErasureCoding then (ErasureEncoder.new env {}).toOption else none }

variable (self : StorageLayer) (events : PutEvents) (objectId : String) (data : List UInt8)

/-- Store all chunks of an object and count them. -/
def storeChunks (faults : Nat → Option PutFault) (chunks : List Chunk) :
    StorageLayer × StorageResponse :=
  match self.dht.storeAll faults chunks with
  | (dht, .error message) => ({ self with dht := dht }, .error message)
  | (dht, .ok ()) =>
    let stats := { self.stats with
      objectsStored := self.stats.objectsStored + 1
      chunksStored := self.stats.chunksStored + chunks.length
      bytesStored := self.stats.bytesStored + (chunks.map (·.encryptedData.length)).sum }
    ({ self with dht := dht, stats := stats }, .success)

/-- Write the metadata, then store the chunks. -/
def persist (events : PutEvents) (metadata : ObjectMetadata) (chunks : List Chunk) : PutOutcome :=
  match self.objects.saveMetadata events.save metadata with
  | (objects, .error e) =>
    -- A flush that fails comes after the insertion, which stays.
    { layer := { self with objects := objects }
      response := some (.error ("Metadata persist failed: " ++ e))
      saved := events.save matches some (.flush _) }
  | (objects, .ok ()) =>
    let stored := { self with objects := objects }.storeChunks events.store chunks
    { layer := stored.1, response := some stored.2, saved := true }

/-- Pieces of an object as chunks. -/
def encryptAll (nonces : Nat → Nonce) (objectId : String) (key : Key)
    (pieces : List (List UInt8)) : List Chunk :=
  pieces.zipIdx.map fun (piece, i) => Chunk.encrypt env (nonces i) objectId i piece key

def putObjectChunked (events : PutEvents) (objectId : String) (data : List UInt8) (key : Key)
    (objectHash : String) : PutOutcome :=
  -- Cutting into pieces of size zero panics.
  if self.config.chunkSize = 0 then { layer := self, response := none }
  else
    let chunks :=
      encryptAll env events.nonces objectId key (chunksOf self.config.chunkSize data)
    let metadata :=
      { objectId := objectId
        totalChunks := chunks.length
        totalShards := 0
        chunkHashes := chunks.map (·.hash)
        hash := objectHash
        originalSize := data.length
        useErasureCoding := false }
    self.persist events metadata chunks

def putObjectErasure (events : PutEvents) (objectId : String) (data : List UInt8) (key : Key)
    (objectHash : String) (encoder : ErasureEncoder) : PutOutcome :=
  match encoder.encode data with
  -- An index past the end of the data panics.
  | none => { layer := self, response := none }
  | some (.error e) =>
    { layer := self, response := some (.error ("Erasure encode error: " ++ e)) }
  | some (.ok shards) =>
    let chunks := encryptAll env events.nonces objectId key shards
    let metadata :=
      { objectId := objectId
        totalChunks := chunks.length
        totalShards := shards.length
        chunkHashes := chunks.map (·.hash)
        hash := objectHash
        originalSize := data.length
        useErasureCoding := true }
    self.persist events metadata chunks

/-- Store an object, in chunks or, if an encoder is there, in shards. -/
def putObject (events : PutEvents) (objectId : String) (data : List UInt8) : PutOutcome :=
  if data.length > self.config.maxObjectSize then
    { layer := self, response := some (.error "Object too large") }
  else
    let key := deriveObjectKey env self.masterKey objectId
    let objectHash := env.hexDigest data
    -- An encoder that could not be made is passed over.
    match self.config.useErasureCoding, self.erasureEncoder with
    | true, some encoder => self.putObjectErasure env events objectId data key objectHash encoder
    | _, _ => self.putObjectChunked env events objectId data key objectHash

/-- The plain data of one chunk. -/
def readChunk (answers : String → KadReply) (objectId : String) (key : Key) (i : Nat) :
    Except String (List UInt8) :=
  match self.dht.getChunk answers objectId i with
  | .ok (some chunk) =>
    match chunk.decrypt env key with
    | .ok plain => .ok plain
    | .error e => .error ("Decryption error chunk " ++ Nat.repr i ++ ": " ++ e)
  | .ok none => .error ("Chunk " ++ Nat.repr i ++ " not found on network")
  | .error e => .error ("DHT error chunk " ++ Nat.repr i ++ ": " ++ e)

/-- Count what was served. -/
def served (metadata : ObjectMetadata) (data : List UInt8) : StorageLayer :=
  { self with
    stats := { self.stats with
      chunksServed := self.stats.chunksServed + metadata.totalChunks
      bytesServed := self.stats.bytesServed + data.length } }

def getObjectChunked (answers : String → KadReply) (objectId : String)
    (metadata : ObjectMetadata) (key : Key) : StorageLayer × StorageResponse :=
  let readAll := (List.range metadata.totalChunks).foldlM (fun objectData i => do
    let plain ← self.readChunk env answers objectId key i
    .ok (objectData ++ plain)) []
  match readAll with
  | .error message => (self, .error message)
  | .ok objectData =>
    if env.hexDigest objectData ≠ metadata.hash then
      (self, .error "Object integrity check failed")
    else (self.served metadata objectData, .object objectData)

def getObjectErasure (answers : String → KadReply) (objectId : String)
    (metadata : ObjectMetadata) (key : Key) : StorageLayer × StorageResponse :=
  match self.erasureEncoder with
  | none => (self, .error "Erasure decoder not configured")
  | some encoder =>
    -- A shard that is not there or does not decrypt is left to the code.
    let shards := (List.range metadata.totalShards).map fun i =>
      match self.dht.getChunk answers objectId i with
      | .ok (some chunk) => (chunk.decrypt env key).toOption
      | _ => none
    match encoder.decode shards metadata.originalSize with
    | .error e => (self, .error ("Erasure decoding failed: " ++ e))
    | .ok objectData =>
      if env.hexDigest objectData ≠ metadata.hash then
        (self, .error "Erasure object integrity check failed")
      else (self.served metadata objectData, .object objectData)

/-- Get an object back. -/
def getObject (fault : Option LoadFault) (answers : String → KadReply) (objectId : String) :
    StorageLayer × StorageResponse :=
  match self.objects.loadMetadata fault objectId with
  | .ok none => (self, .error "Metadata not found in local DB")
  | .error e => (self, .error ("Failed to load metadata: " ++ e))
  | .ok (some metadata) =>
    let key := deriveObjectKey env self.masterKey objectId
    if metadata.useErasureCoding then self.getObjectErasure env answers objectId metadata key
    else self.getObjectChunked env answers objectId metadata key

/-! ### What the calls can do -/

/-- An object that is ready to be stored: its metadata, and its chunks. -/
structure Prepared (layer : StorageLayer) (events : PutEvents) (objectId : String)
    (data : List UInt8) (metadata : ObjectMetadata) (chunks : List Chunk) : Prop where
  named : metadata.objectId = objectId
  hash : metadata.hash = env.hexDigest data
  coded : metadata.useErasureCoding = true → layer.config.useErasureCoding = true
  plain : metadata.useErasureCoding = false →
    layer.config.chunkSize ≠ 0 ∧ metadata.totalChunks = chunks.length ∧
      chunks = encryptAll env events.nonces objectId (deriveObjectKey env layer.masterKey objectId)
        (chunksOf layer.config.chunkSize data)

theorem putObject_prepared :
    (∃ response, self.putObject env events objectId data = { layer := self, response := response } ∧
        response ≠ some .success) ∨
      ∃ metadata chunks, self.Prepared env events objectId data metadata chunks ∧
        self.putObject env events objectId data = self.persist events metadata chunks := by
  unfold putObject
  split
  · exact Or.inl ⟨_, rfl, by simp⟩
  · dsimp only
    split
    · rename_i hcoding hencoder
      unfold putObjectErasure
      split
      · exact Or.inl ⟨_, rfl, by simp⟩
      · exact Or.inl ⟨_, rfl, by simp⟩
      · exact Or.inr ⟨_, _, ⟨rfl, rfl, fun _ => hcoding, by simp⟩, rfl⟩
    · unfold putObjectChunked
      split
      · exact Or.inl ⟨_, rfl, by simp⟩
      · rename_i hsize
        exact Or.inr ⟨_, _, ⟨rfl, rfl, by simp, fun _ => ⟨hsize, rfl, rfl⟩⟩, rfl⟩

theorem persist_cases (metadata : ObjectMetadata) (chunks : List Chunk) :
    (∃ message, self.persist events metadata chunks
        = { layer := self, response := some (.error message) }) ∨
      ∃ dht stats response, self.persist events metadata chunks
          = { layer := { self with
                objects := self.objects.insert metadata.objectId metadata
                dht := dht
                stats := stats }
              response := some response
              saved := true } ∧
        (response = .success → dht = chunks.foldl DhtStore.withChunk self.dht) := by
  unfold persist
  cases hsave : events.save with
  | some fault =>
    cases fault with
    | serialize e => exact Or.inl ⟨_, rfl⟩
    | insert e => exact Or.inl ⟨_, rfl⟩
    | flush e => exact Or.inr ⟨self.dht, self.stats, _, rfl, by simp⟩
  | none =>
    refine Or.inr ?_
    dsimp only [MetadataStore.saveMetadata, storeChunks]
    have hstored := self.dht.storeAll_eq_ok events.store chunks
    cases hall : self.dht.storeAll events.store chunks with
    | mk dht result =>
      cases result with
      | error message => exact ⟨dht, self.stats, _, rfl, by simp⟩
      | ok u =>
        rw [hall] at hstored
        exact ⟨dht, _, _, rfl, fun _ => hstored rfl⟩

/-- Everything a call of `put_object` can do: it leaves the node as it was, or it puts
    the object's metadata into the database and, if it succeeds, all chunks under their
    keys. -/
theorem putObject_cases :
    (∃ response, self.putObject env events objectId data = { layer := self, response := response } ∧
        response ≠ some .success) ∨
      ∃ metadata chunks dht stats response,
        self.Prepared env events objectId data metadata chunks ∧
        self.putObject env events objectId data
          = { layer := { self with
                objects := self.objects.insert objectId metadata
                dht := dht
                stats := stats }
              response := some response
              saved := true } ∧
        (response = .success → dht = chunks.foldl DhtStore.withChunk self.dht) := by
  rcases self.putObject_prepared env events objectId data with
    hrefused | ⟨metadata, chunks, hprepared, hput⟩
  · exact Or.inl hrefused
  · rw [hput]
    rcases self.persist_cases events metadata chunks with
      ⟨message, hrefused⟩ | ⟨dht, stats, response, hsaved, hstored⟩
    · exact Or.inl ⟨_, hrefused, by simp⟩
    · rw [hprepared.named] at hsaved
      exact Or.inr ⟨metadata, chunks, dht, stats, response, hprepared, hsaved, hstored⟩

/-- Everything a call of `get_object` can do: an error, or data with the hash that was
    stored for the object. -/
theorem getObject_cases (fault : Option LoadFault) (answers : String → KadReply)
    (objectId : String) :
    (∃ message, self.getObject env fault answers objectId = (self, .error message)) ∨
      ∃ metadata data, self.objects[objectId]? = some metadata ∧
        env.hexDigest data = metadata.hash ∧
        self.getObject env fault answers objectId = (self.served metadata data, .object data) := by
  unfold getObject
  cases hload : self.objects.loadMetadata fault objectId with
  | error e => exact Or.inl ⟨_, rfl⟩
  | ok metadata? =>
    cases metadata? with
    | none => exact Or.inl ⟨_, rfl⟩
    | some metadata =>
      have hfound : self.objects[objectId]? = some metadata := by
        unfold MetadataStore.loadMetadata at hload
        split at hload
        · exact absurd hload (by simp)
        · exact absurd hload (by simp)
        · exact Except.ok.inj hload
      dsimp only
      split
      · unfold getObjectErasure
        split
        · exact Or.inl ⟨_, rfl⟩
        · dsimp only
          split
          · exact Or.inl ⟨_, rfl⟩
          · split
            · exact Or.inl ⟨_, rfl⟩
            · rename_i hhash
              exact Or.inr ⟨metadata, _, hfound, not_not.mp hhash, rfl⟩
      · unfold getObjectChunked
        dsimp only
        split
        · exact Or.inl ⟨_, rfl⟩
        · split
          · exact Or.inl ⟨_, rfl⟩
          · rename_i hhash
            exact Or.inr ⟨metadata, _, hfound, not_not.mp hhash, rfl⟩

end StorageLayer

end Storage

end EssNode
