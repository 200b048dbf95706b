import EssNode.Authority.Manager
import EssNode.Storage

/-!
# Stored Objects over Runs

What a node returns for an object after any run of its storage: calls of `put_object` and
`get_object` on any names, and restarts.

Seen from outside, storage is a map from names to data. The map changes with a call of
`put_object` whose metadata gets into the database, and with nothing else (`latest`). Two
invariants tie a node to that map. The first holds in every run: the database has the hash of
the data for each name in the map (`Recorded`). What `get_object` returns has that hash, so it
is the data, whatever the DHT hands out. The second needs calls that succeed and plain chunks:
the chunks of the data for each name in the map are the last ones that were put under their keys
(`Intact`). Keys of different objects differ, so a call on one name leaves the chunks of the
others alone.
-/

namespace EssNode

open Authority Bincode Text

namespace Storage

open StorageLayer

inductive Op where
  | put (events : PutEvents) (objectId : String) (data : List UInt8)
  | get (fault : Option LoadFault) (answers : String → KadReply) (objectId : String)
  | restart (config : StorageLayerConfig)

section Runs

variable (env : StorageEnv)

/-- The node after a call or a restart. The database and the DHT survive a restart. -/
def step (layer : StorageLayer) : Op → StorageLayer
  | .put events objectId data => (layer.putObject env events objectId data).layer
  | .get fault answers objectId => (layer.getObject env fault answers objectId).1
  | .restart config =>
    .new env config layer.masterKey layer.authority layer.objects layer.dht.published

def run : StorageLayer → List Op → StorageLayer := List.foldl (step env)

/-- What a call records for a name. -/
def Op.records (layer : StorageLayer) (objectId : String) : Op → Option (List UInt8)
  | .put events name data =>
    if name = objectId ∧ (layer.putObject env events name data).saved then some data else none
  | _ => none

/-- The data of the last call of a run that was recorded for a name. -/
def latest (objectId : String) : StorageLayer → List Op → Option (List UInt8)
  | _, [] => none
  | layer, op :: ops =>
    (latest objectId (step env layer op) ops).or (op.records env layer objectId)

/-- Every call of `put_object` in a run succeeds. -/
def Succeeds : StorageLayer → List Op → Prop
  | _, [] => True
  | layer, op :: ops =>
    (match op with
      | .put events objectId data =>
        (layer.putObject env events objectId data).response = some .success
      | _ => True) ∧ Succeeds (step env layer op) ops

/-- Objects are cut into chunks of at least one byte. -/
def StorageLayerConfig.Plain (config : StorageLayerConfig) : Prop :=
  1 ≤ config.chunkSize ∧ config.useErasureCoding = false

/-- A restart comes with plain chunks. -/
def Op.Plain : Op → Prop
  | .restart config => config.Plain
  | _ => True

/-- The DHT gives back the last chunk that was put under each key. -/
def Faithful (layer : StorageLayer) (answers : String → KadReply) : Prop :=
  ∀ key, answers key = .replied (.ok layer.dht.published[key]?)

end Runs

section Hashes

variable {env : StorageEnv} {layer : StorageLayer} {objects : String → Option (List UInt8)}

/-! ### Hashes -/

/-- The database has the hashes of the objects. -/
def Recorded (env : StorageEnv) (layer : StorageLayer) (objects : String → Option (List UInt8)) :
    Prop :=
  ∀ objectId, layer.objects[objectId]?.map ObjectMetadata.hash
    = (objects objectId).map env.hexDigest

theorem recorded_step (h : Recorded env layer objects) (op : Op) :
    Recorded env (step env layer op) fun objectId =>
      (op.records env layer objectId).or (objects objectId) := by
  intro objectId
  cases op with
  | put events name data =>
    rcases layer.putObject_cases env events name data with
      ⟨response, hput, -⟩ | ⟨metadata, chunks, dht, stats, response, hprepared, hput, -⟩
    · simp only [step, Op.records, hput]
      simpa using h objectId
    · simp only [step, Op.records, hput, FinMap.find_insert]
      by_cases hname : name = objectId
      · simp [hname, hprepared.hash]
      · simpa [hname] using h objectId
  | get fault answers name =>
    rcases layer.getObject_cases env fault answers name with
      ⟨message, hget⟩ | ⟨metadata, data, -, -, hget⟩
    · simp only [step, Op.records, hget]
      exact h objectId
    · simp only [step, Op.records, hget]
      exact h objectId
  | restart config => exact h objectId

theorem recorded_run (h : Recorded env layer objects) (ops : List Op) :
    Recorded env (run env layer ops) fun objectId =>
      (latest env objectId layer ops).or (objects objectId) := by
  induction ops generalizing layer objects with
  | nil => exact h
  | cons op ops ih =>
    have hrest := ih (recorded_step h op)
    intro objectId
    simp only [latest, Option.or_assoc]
    exact hrest objectId

/-- Whatever the DHT hands out, what is returned is the object or an error, unless the
    hash of the object has a collision. -/
theorem getObject_recorded (h : Recorded env layer objects) (fault : Option LoadFault)
    (answers : String → KadReply) {objectId : String}
    (hcollision : ∀ data, objects objectId = some data →
      ∀ data', env.sha256 data' = env.sha256 data → data' = data) :
    (∃ message, (layer.getObject env fault answers objectId).2 = .error message) ∨
      ∃ data, objects objectId = some data ∧
        (layer.getObject env fault answers objectId).2 = .object data := by
  rcases layer.getObject_cases env fault answers objectId with
    ⟨message, hget⟩ | ⟨metadata, data, hfound, hhash, hget⟩
  · exact Or.inl ⟨message, by rw [hget]⟩
  · have hrecorded := h objectId
    rw [hfound, Option.map_some, eq_comm, Option.map_eq_some_iff] at hrecorded
    obtain ⟨original, hobject, horiginal⟩ := hrecorded
    have hsame : data = original :=
      hcollision original hobject data (env.hexDigest_eq_iff.mp (hhash.trans horiginal.symm))
    exact Or.inr ⟨data, by rw [hobject, hsame], by rw [hget]⟩

end Hashes

/-! ### Chunks -/

section Chunks

variable {env : StorageEnv} {layer : StorageLayer} {objects : String → Option (List UInt8)}

/-- The chunks of some pieces are the last that were put under their keys. -/
def Published (env : StorageEnv) (published : FinMap String Chunk) (objectId : String) (key : Key)
    (pieces : List (List UInt8)) : Prop :=
  ∀ i piece, pieces[i]? = some piece → ∃ nonce,
    published[chunkKey objectId i]? = some (Chunk.encrypt env nonce objectId i piece key)

/-- The metadata and the chunks of an object are in place. -/
structure IntactObject (env : StorageEnv) (layer : StorageLayer) (objectId : String)
    (data : List UInt8) (metadata : ObjectMetadata) (pieces : List (List UInt8)) : Prop where
  found : layer.objects[objectId]? = some metadata
  plain : metadata.useErasureCoding = false
  hash : metadata.hash = env.hexDigest data
  total : metadata.totalChunks = pieces.length
  whole : pieces.flatten = data
  published : Published env layer.dht.published objectId
    (deriveObjectKey env layer.masterKey objectId) pieces

/-- The cache has nothing but what was put into the DHT. -/
def DhtStore.Coherent (dht : DhtStore) : Prop :=
  ∀ (key : String) (chunk : Chunk), dht.localCache[key]? = some chunk →
    dht.published[key]? = some chunk

/-- Plain chunks, a coherent cache, and every object in place. -/
structure Intact (env : StorageEnv) (layer : StorageLayer)
    (objects : String → Option (List UInt8)) : Prop where
  plain : layer.config.Plain
  cache : layer.dht.Coherent
  object : ∀ objectId data, objects objectId = some data →
    ∃ metadata pieces, IntactObject env layer objectId data metadata pieces

variable {objectId : String} {dht : DhtStore} {key : Key} {pieces : List (List UInt8)}
  {answers : String → KadReply} (nonces : Nat → Nonce) {i : Nat} {ops : List Op} {name : String}
  {chunk : Chunk} {data : List UInt8} {chunks : List Chunk}

theorem find_foldl_withChunk_of_ne {key : String} (hne : ∀ chunk ∈ chunks, chunk.chunkId ≠ key) :
    (chunks.foldl DhtStore.withChunk dht).published[key]? = dht.published[key]? := by
  induction chunks generalizing dht with
  | nil => rfl
  | cons chunk rest ih =>
    obtain ⟨hchunk, hrest⟩ := List.forall_mem_cons.mp hne
    rw [List.foldl_cons, ih hrest, DhtStore.withChunk, FinMap.find_insert, if_neg hchunk]

theorem find_foldl_withChunk (dht : DhtStore) (hkeys : (chunks.map Chunk.chunkId).Nodup)
    (hmem : chunk ∈ chunks) :
    (chunks.foldl DhtStore.withChunk dht).published[chunk.chunkId]? = some chunk := by
  induction chunks generalizing dht with
  | nil => simp at hmem
  | cons first rest ih =>
    rw [List.map_cons, List.nodup_cons] at hkeys
    rw [List.foldl_cons]
    rcases List.mem_cons.mp hmem with rfl | hrest
    · rw [find_foldl_withChunk_of_ne, DhtStore.withChunk, FinMap.find_insert, if_pos rfl]
      intro other hother heq
      exact hkeys.1 (List.mem_map.mpr ⟨other, hother, heq⟩)
    · exact ih _ hkeys.2 hrest

theorem DhtStore.Coherent.foldl_withChunk (h : dht.Coherent)
    (chunks : List Chunk) : (chunks.foldl DhtStore.withChunk dht).Coherent := by
  induction chunks generalizing dht with
  | nil => exact h
  | cons first rest ih =>
    refine ih fun key chunk => ?_
    simp only [DhtStore.withChunk, FinMap.find_insert]
    by_cases hkey : first.chunkId = key
    · rw [if_pos hkey, if_pos hkey]
      exact id
    · rw [if_neg hkey, if_neg hkey]
      exact h key chunk

theorem getElem?_encryptAll (objectId : String) (key : Key) (pieces : List (List UInt8)) (i : Nat) :
    (encryptAll env nonces objectId key pieces)[i]?
      = pieces[i]?.map fun piece => Chunk.encrypt env (nonces i) objectId i piece key := by
  rw [encryptAll, List.getElem?_map, List.getElem?_zipIdx, Option.map_map]
  simp [Function.comp_def]

theorem chunkId_of_getElem? {nonces : Nat → Nonce}
    (h : (encryptAll env nonces objectId key pieces)[i]? = some chunk) :
    chunk.chunkId = chunkKey objectId i := by
  rw [getElem?_encryptAll, Option.map_eq_some_iff] at h
  obtain ⟨piece, -, rfl⟩ := h
  rfl

theorem nodup_chunkIds (objectId : String) (key : Key) (pieces : List (List UInt8)) :
    ((encryptAll env nonces objectId key pieces).map Chunk.chunkId).Nodup := by
  rw [List.nodup_iff_injective_getElem]
  intro i j hij
  have hid (k : Fin ((encryptAll env nonces objectId key pieces).map
      Chunk.chunkId).length) :
      ((encryptAll env nonces objectId key pieces).map Chunk.chunkId)[k]
        = chunkKey objectId k := by
    simp only [Fin.getElem_fin, List.getElem_map]
    exact chunkId_of_getElem? (List.getElem?_eq_getElem _)
  simp only [Fin.getElem_fin] at hid hij
  rw [hid i, hid j] at hij
  exact Fin.ext (chunkKey_injective hij).2

theorem published_foldl (objectId : String) (key : Key) (pieces : List (List UInt8)) :
    Published env ((encryptAll env nonces objectId key pieces).foldl
      DhtStore.withChunk dht).published objectId key pieces := by
  intro i piece hpiece
  have hget : (encryptAll env nonces objectId key pieces)[i]?
      = some (Chunk.encrypt env (nonces i) objectId i piece key) := by
    rw [getElem?_encryptAll, hpiece, Option.map_some]
  have hfound := find_foldl_withChunk dht (nodup_chunkIds nonces objectId key pieces)
    (List.mem_of_getElem? hget)
  rw [chunkId_of_getElem? hget] at hfound
  exact ⟨nonces i, hfound⟩

theorem Published.foldl_other {key' : Key} (h : Published env dht.published objectId key pieces)
    (hname : name ≠ objectId) (nonces : Nat → Nonce) (pieces' : List (List UInt8)) :
    Published env ((encryptAll env nonces name key' pieces').foldl
      DhtStore.withChunk dht).published objectId key pieces := by
  intro i piece hpiece
  rw [find_foldl_withChunk_of_ne]
  · exact h i piece hpiece
  · intro chunk hmem heq
    obtain ⟨j, hj⟩ := List.mem_iff_getElem?.mp hmem
    rw [chunkId_of_getElem? hj] at heq
    exact hname (chunkKey_injective heq).1

theorem Intact.object_congr (h : Intact env layer objects) {layer' : StorageLayer}
    (hobjects : layer'.objects = layer.objects)
    (hpublished : layer'.dht.published = layer.dht.published)
    (hkey : layer'.masterKey = layer.masterKey) (objectId : String) (data : List UInt8)
    (hobject : objects objectId = some data) :
    ∃ metadata pieces, IntactObject env layer' objectId data metadata pieces := by
  obtain ⟨metadata, pieces, hintact⟩ := h.object objectId data hobject
  refine ⟨metadata, pieces, ?_, hintact.plain, hintact.hash, hintact.total, hintact.whole, ?_⟩
  · rw [hobjects]
    exact hintact.found
  · rw [hpublished, hkey]
    exact hintact.published

theorem intact_put (h : Intact env layer objects) {events : PutEvents}
    (hsuccess : (layer.putObject env events name data).response = some .success) :
    Intact env (layer.putObject env events name data).layer fun objectId =>
      ((Op.put events name data).records env layer objectId).or (objects objectId) := by
  rcases layer.putObject_cases env events name data with
    ⟨response, hput, hfailed⟩ | ⟨metadata, chunks, dht, stats, response, hprepared, hput, hstored⟩
  · rw [hput] at hsuccess
    exact absurd hsuccess hfailed
  · simp only [hput, Option.some.injEq] at hsuccess
    obtain rfl := hstored hsuccess
    -- No encoder is configured, so the object was cut into chunks.
    have hchunked : metadata.useErasureCoding = false := by
      cases hcoded : metadata.useErasureCoding with
      | false => rfl
      | true =>
        have hcoding := hprepared.coded hcoded
        rw [h.plain.2] at hcoding
        exact absurd hcoding (by decide)
    obtain ⟨hsize, htotal, rfl⟩ := hprepared.plain hchunked
    simp only [Op.records, hput]
    refine ⟨h.plain, h.cache.foldl_withChunk _, ?_⟩
    intro objectId original hobject
    by_cases hname : name = objectId
    · subst hname
      obtain rfl : data = original := by simpa using hobject
      refine ⟨metadata, chunksOf layer.config.chunkSize data, ?_, hchunked, hprepared.hash, ?_,
        flatten_chunksOf hsize data, published_foldl _ _ _ _⟩
      · simp only [FinMap.find_insert, if_true]
      · rw [htotal]
        simp [encryptAll]
    · obtain ⟨metadata', pieces, hintact⟩ :=
        h.object objectId original (by simpa [hname] using hobject)
      refine ⟨metadata', pieces, ?_, hintact.plain, hintact.hash, hintact.total, hintact.whole,
        hintact.published.foldl_other hname _ _⟩
      simp only [FinMap.find_insert, if_neg hname]
      exact hintact.found

theorem intact_step (h : Intact env layer objects) {op : Op}
    (hsucceeds : Succeeds env layer (op :: ops)) (hplain : op.Plain) :
    Intact env (step env layer op) fun objectId =>
      (op.records env layer objectId).or (objects objectId) := by
  cases op with
  | put events name data => exact intact_put h hsucceeds.1
  | get fault answers name =>
    rcases layer.getObject_cases env fault answers name with
      ⟨message, hget⟩ | ⟨metadata, data, -, -, hget⟩
    · simp only [step, Op.records, hget]
      exact h
    · simp only [step, Op.records, hget]
      exact ⟨h.plain, h.cache, h.object_congr rfl rfl rfl⟩
  | restart config =>
    -- The cache starts empty.
    refine ⟨hplain, ?_, h.object_congr rfl rfl rfl⟩
    intro key chunk hcached
    simp [step, new] at hcached

theorem intact_run (h : Intact env layer objects) (hsucceeds : Succeeds env layer ops)
    (hplain : ∀ op ∈ ops, op.Plain) :
    Intact env (run env layer ops) fun objectId =>
      (latest env objectId layer ops).or (objects objectId) := by
  induction ops generalizing layer objects with
  | nil => exact h
  | cons op ops ih =>
    obtain ⟨hop, hrest⟩ := List.forall_mem_cons.mp hplain
    have hintact := ih (intact_step h hsucceeds hop) hsucceeds.2 hrest
    simp only [latest, Option.or_assoc]
    exact hintact

/-! ### Getting objects back -/

theorem foldlM_readChunk (hread : ∀ i piece, pieces[i]? = some piece →
      layer.readChunk env answers objectId key i = .ok piece) {n : Nat} (hn : n ≤ pieces.length) :
    (List.range n).foldlM (fun objectData i => do
        let plain ← layer.readChunk env answers objectId key i
        .ok (objectData ++ plain)) [] = (.ok (pieces.take n).flatten : Except String _) := by
  induction n with
  | zero => rfl
  | succ n ih =>
    have hpiece : pieces[n]? = some pieces[n] := List.getElem?_eq_getElem _
    rw [List.range_succ, List.foldlM_append, ih (by omega), List.take_add_one, hpiece]
    simp only [bind, Except.bind, List.foldlM_cons, List.foldlM_nil, hread n _ hpiece,
      List.flatten_append]
    simp [pure, Except.pure]

theorem readChunk_published
    (hcipher : ∀ key nonce plain,
      env.decrypt key nonce (env.encrypt key nonce plain) = some plain)
    (hcache : layer.dht.Coherent) (hanswers : Faithful layer answers)
    (hpublished : Published env layer.dht.published objectId key pieces) {piece : List UInt8}
    (hpiece : pieces[i]? = some piece) :
    layer.readChunk env answers objectId key i = .ok piece := by
  obtain ⟨nonce, hfound⟩ := hpublished i piece hpiece
  have hget : layer.dht.getChunk answers objectId i
      = .ok (some (Chunk.encrypt env nonce objectId i piece key)) := by
    unfold DhtStore.getChunk
    dsimp only
    cases hcached : layer.dht.localCache[chunkKey objectId i]? with
    | some chunk =>
      have hsame := hcache _ _ hcached
      rw [hfound] at hsame
      rw [Option.some.inj hsame]
    | none =>
      rw [hanswers, hfound]
      rfl
  unfold readChunk
  rw [hget]
  dsimp only
  rw [Chunk.decrypt_encrypt (hcipher key)]

theorem getObject_intact (h : Intact env layer objects)
    (hcipher : ∀ key nonce plain,
      env.decrypt key nonce (env.encrypt key nonce plain) = some plain)
    (hanswers : Faithful layer answers) (hobject : objects objectId = some data) :
    (layer.getObject env none answers objectId).2 = .object data := by
  obtain ⟨metadata, pieces, hintact⟩ := h.object objectId data hobject
  have hpieces (i : Nat) (piece : List UInt8) (hpiece : pieces[i]? = some piece) :=
    readChunk_published hcipher h.cache hanswers hintact.published hpiece
  have hread := foldlM_readChunk hpieces le_rfl
  rw [List.take_length, hintact.whole] at hread
  unfold getObject MetadataStore.loadMetadata
  rw [hintact.found]
  dsimp only
  rw [if_neg (by simp [hintact.plain])]
  unfold getObjectChunked
  dsimp only
  rw [hintact.total, hread]
  dsimp only
  rw [if_neg (by simp [hintact.hash])]

end Chunks

/-- After any run of a node that starts empty, what is returned for a name is an error
    or the data of the last call that was recorded for it. If objects are cut into
    chunks, every call succeeds and the DHT gives back what was put into it, it is the
    data. -/
theorem stored_objects_returned (env : StorageEnv) (config : StorageLayerConfig) (masterKey : Key)
    (authority : AuthorityState) (ops : List Op) (objectId : String) :
    let start := StorageLayer.new env config masterKey authority ∅ ∅
    ((∀ data, latest env objectId start ops = some data →
        ∀ data', env.sha256 data' = env.sha256 data → data' = data) →
      ∀ fault answers,
        (∃ message, ((run env start ops).getObject env fault answers objectId).2
          = .error message) ∨
        ∃ data, latest env objectId start ops = some data ∧
          ((run env start ops).getObject env fault answers objectId).2 = .object data) ∧
    (config.Plain → (∀ op ∈ ops, op.Plain) → Succeeds env start ops →
      (∀ key nonce plain, env.decrypt key nonce (env.encrypt key nonce plain) = some plain) →
      ∀ answers, Faithful (run env start ops) answers →
        ∀ data, latest env objectId start ops = some data →
          ((run env start ops).getObject env none answers objectId).2 = .object data) := by
  intro start
  constructor
  · intro hcollision fault answers
    have hempty : Recorded env start fun _ => none := by
      intro name
      simp [start, StorageLayer.new]
    have hrecorded := recorded_run hempty ops
    simp only [Option.or_none] at hrecorded
    exact getObject_recorded hrecorded fault answers hcollision
  · intro hconfig hplain hsucceeds hcipher answers hanswers data hlatest
    have hempty : Intact env start fun _ => none := by
      refine ⟨hconfig, ?_, by simp⟩
      intro key chunk hcached
      simp [start, StorageLayer.new] at hcached
    have hintact := intact_run hempty hsucceeds hplain
    simp only [Option.or_none] at hintact
    exact getObject_intact hintact hcipher hanswers hlatest

/-! ### A node in the clear -/

/-- A hash that tells apart data of up to 31 bytes, and no cipher at all. -/
def clearEnv : StorageEnv where
  sha256 data := Vector.ofFn fun i =>
    if i.val = 31 then UInt8.ofNat (min data.length 32) else data.getD i.val 0
  encrypt _ _ plain := plain
  decrypt _ _ encrypted := some encrypted
  reedSolomon _ _ := .error "no code"
  parsePeerId := some

theorem clearEnv_collisionFree {data data' : List UInt8} (hshort : data.length ≤ 31)
    (h : clearEnv.sha256 data' = clearEnv.sha256 data) : data' = data := by
  have hbyte (i : Nat) (hi : i < 32) := congrArg (fun v : Key => v[i]) h
  simp only [clearEnv, Vector.getElem_ofFn] at hbyte
  have hlength : data'.length = data.length := by
    have hlast := congrArg UInt8.toNat (hbyte 31 (by decide))
    simp only [if_true, UInt8.toNat_ofNat'] at hlast
    omega
  refine List.ext_getElem hlength fun i hi hi' => ?_
  have hsame := hbyte i (by omega)
  simpa [show i ≠ 31 by omega, hi, hi'] using hsame

/-- A node that cuts objects into pieces of two bytes. -/
def clearLayer : StorageLayer :=
  .new clearEnv { chunkSize := 2 } (Vector.replicate 32 0) .default ∅ ∅

def smoothly : PutEvents :=
  { nonces := fun _ => Vector.replicate 12 0, save := none, store := fun _ => none }

/-- Two objects whose names share a beginning, one of them replaced by a shorter one,
    and a restart. -/
def overwriting : List Op :=
  [.put smoothly "a:1" [1, 2, 3], .put smoothly "a" [4, 5, 6, 7, 8], .put smoothly "a" [9],
    .restart { chunkSize := 3 }]

/-- A DHT that gives back what was put into it. -/
def faithfully (layer : StorageLayer) (key : String) : KadReply :=
  .replied (.ok layer.dht.published[key]?)

/-- The shorter object is returned, and nothing else whatever the DHT says. -/
theorem overwriting_returned :
    ((run clearEnv clearLayer overwriting).getObject clearEnv none
        (faithfully (run clearEnv clearLayer overwriting)) "a").2 = .object [9] ∧
      ∀ answers,
        (∃ message, ((run clearEnv clearLayer overwriting).getObject clearEnv none answers "a").2
          = .error message) ∨
        ∃ data, latest clearEnv "a" clearLayer overwriting = some data ∧
          ((run clearEnv clearLayer overwriting).getObject clearEnv none answers "a").2
            = .object data := by
  have hlatest : latest clearEnv "a" clearLayer overwriting = some [9] := by decide +kernel
  have hreturned := stored_objects_returned clearEnv { chunkSize := 2 } (Vector.replicate 32 0)
    .default overwriting "a"
  constructor
  · refine hreturned.2 ⟨by decide, rfl⟩ ?_ ⟨?_, ?_, ?_, trivial, trivial⟩ (fun _ _ _ => rfl)
      (faithfully _) (fun _ => rfl) [9] hlatest
    · simp [overwriting, Op.Plain, StorageLayerConfig.Plain]
    · decide +kernel
    · decide +kernel
    · decide +kernel
  · refine hreturned.1 ?_ none
    intro data hdata data' hcollision
    obtain rfl : [9] = data := Option.some.inj (hlatest.symm.trans hdata)
    exact clearEnv_collisionFree (by decide) hcollision

end Storage

end EssNode
