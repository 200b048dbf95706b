import EssNode.Storage

/-!
# Shards

When an object can be cut into shards, and what can be put together from them.

The data shards are the object, filled up with zeros, in slices of one size: the length divided
by the number of shards, rounded up. Rounding up is where it goes wrong. If the slices before
the last one are already longer together than the object, the last one would start behind the
end, and the encoder panics there (`encode_eq`). So a few short objects can not be stored, those
of one, two and five bytes with the default configuration. An object of at least the square of
the number of other shards is always cut (`shardSize_fits_of_large`).

What was cut comes back. The filling is behind the data, so the slices together start with the
object whatever its length, and cutting off at its length takes the filling away
(`decode_erased`). That holds as well for an object in the network of which some chunks are lost
(`getObjectErasure_recovers`).

The code is a parameter, and what is assumed of it is said here: it takes shards of one size and
leaves the data shards as they are, and from as many shards as there are data shards it makes
all of them. `xorCode` is a code with these properties.
-/

namespace EssNode

open List

namespace Storage

/-- Shards as they come back: each is missing or as it was. -/
def Erased (received : List (Option (List UInt8))) (shards : List (List UInt8)) : Prop :=
  List.Forall₂ (fun r shard => r = none ∨ r = some shard) received shards

/-- A code for `k` data and `m` parity shards takes all shards of one size but zero. -/
structure ReedSolomon.Encodes (code : ReedSolomon) (k m : Nat) : Prop where
  total : ∀ (shards : List (List UInt8)) (size : Nat), shards.length = k + m → 0 < size →
    (∀ shard ∈ shards, shard.length = size) →
      ∃ coded, code.encode shards = .ok coded ∧ coded.length = k + m ∧
        ∀ shard ∈ coded, shard.length = size

/-- A code leaves the data shards as they are, and from `k` of all shards it makes all. -/
structure ReedSolomon.Recovers (code : ReedSolomon) (k : Nat) : Prop where
  systematic : ∀ shards coded, code.encode shards = .ok coded →
    coded.length = shards.length ∧ coded.take k = shards.take k
  recovers : ∀ shards coded received, code.encode shards = .ok coded → Erased received coded →
    k ≤ received.countP Option.isSome → code.reconstruct received = .ok (coded.map some)

/-! ### Slices -/

theorem mapM_eq_some {α β : Type*} (l : List α) (f : α → Option β) (g : α → β)
    (h : ∀ a ∈ l, f a = some (g a)) : l.mapM f = some (l.map g) := by
  induction l with
  | nil => rfl
  | cons a l ih =>
    rw [mapM_cons, h a mem_cons_self, ih fun b hb => h b (mem_cons_of_mem _ hb)]
    rfl

theorem mapM_eq_none {α β : Type*} {l : List α} {f : α → Option β} {a : α} (ha : a ∈ l)
    (h : f a = none) : l.mapM f = none := by
  induction l with
  | nil => cases ha
  | cons b l ih =>
    rw [mapM_cons]
    rcases mem_cons.mp ha with rfl | hl
    · rw [h]
      rfl
    · rw [ih hl]
      cases f b <;> rfl

/-- The size of a shard: the length divided by the number of data shards, rounded up. -/
def shardSize (k length : Nat) : Nat := (length + k - 1) / k

/-- An object, filled up with zeros to the size of all data shards. -/
def filled (k : Nat) (data : List UInt8) : List UInt8 :=
  data ++ replicate (k * shardSize k data.length - data.length) 0

variable {a b : List UInt8} {k size : Nat} {bytes : List UInt8}

theorem length_le_shardSize (hk : 0 < k) (length : Nat) : length ≤ k * shardSize k length := by
  have hdiv := Nat.lt_div_mul_add hk (a := length + k - 1)
  rw [shardSize, Nat.mul_comm]
  omega

theorem length_filled (hk : 0 < k) (data : List UInt8) :
    (filled k data).length = k * shardSize k data.length := by
  have hroom := length_le_shardSize hk data.length
  rw [filled, length_append, length_replicate]
  omega

def slice (size : Nat) (bytes : List UInt8) (i : Nat) : List UInt8 :=
  (bytes.drop (i * size)).take size

theorem length_slice (hlength : bytes.length = k * size) {i : Nat} (hi : i < k) :
    (slice size bytes i).length = size := by
  have hend : (i + 1) * size ≤ k * size := Nat.mul_le_mul_right size hi
  rw [Nat.add_one_mul] at hend
  rw [slice, length_take, length_drop, hlength]
  omega

theorem flatten_slices (hlength : bytes.length = k * size) :
    ((range k).map (slice size bytes)).flatten = bytes := by
  have hfirst (n : Nat) : ((range n).map (slice size bytes)).flatten
      = bytes.take (n * size) := by
    induction n with
    | zero => simp
    | succ n ih =>
      rw [range_succ, map_append, flatten_append, ih, Nat.succ_mul, take_add]
      simp [slice]
  rw [hfirst, ← hlength, take_length]

namespace ErasureEncoder

variable {k : Nat} {received : List (Option (List UInt8))}

theorem dataShard_eq (data : List UInt8) {i : Nat} (hi : i < k) :
    dataShard data (shardSize k data.length) i
      = if data.length < i * shardSize k data.length then none
        else some (slice (shardSize k data.length) (filled k data) i) := by
  have hend : (i + 1) * shardSize k data.length ≤ k * shardSize k data.length :=
    Nat.mul_le_mul_right _ hi
  rw [Nat.add_one_mul] at hend
  unfold dataShard slice filled
  dsimp only
  generalize shardSize k data.length = size at hend ⊢
  generalize i * size = start at hend ⊢
  by_cases hbehind : data.length < start
  · rw [if_pos hbehind, if_pos (by omega)]
  · rw [if_neg hbehind, if_neg (by omega), drop_append_of_le_length (by omega),
      take_append, length_drop, take_replicate, Option.some.injEq]
    -- The slice ends within the object or takes in some of the filling.
    by_cases hfull : start + size ≤ data.length
    · have htaken : min (start + size) data.length - start = size := by omega
      have hnone : min (size - (data.length - start)) (k * size - data.length) = 0 := by omega
      rw [htaken, hnone, Nat.sub_self]
    · have htaken : min (start + size) data.length - start = data.length - start := by omega
      have hfill : min (size - (data.length - start)) (k * size - data.length)
          = size - (data.length - start) := by omega
      rw [htaken, hfill, take_of_length_le (by rw [length_drop]),
        take_of_length_le (by rw [length_drop]; omega)]

variable (self : ErasureEncoder) {data : List UInt8} {shards : List (List UInt8)}

/-- The shards as they are handed to the code. -/
def prepared (data : List UInt8) : List (List UInt8) :=
  (range self.config.dataShards).map
      (slice (shardSize self.config.dataShards data.length) (filled self.config.dataShards data))
    ++ replicate self.config.parityShards
        (replicate (shardSize self.config.dataShards data.length) 0)

theorem length_prepared (data : List UInt8) :
    (self.prepared data).length = self.config.dataShards + self.config.parityShards := by
  rw [prepared, length_append, length_map, length_range, length_replicate]

theorem length_of_mem_prepared (hk : 0 < self.config.dataShards) (data : List UInt8) :
    ∀ shard ∈ self.prepared data,
      shard.length = shardSize self.config.dataShards data.length := by
  intro shard hshard
  rcases mem_append.mp hshard with hdata | hparity
  · obtain ⟨i, hi, rfl⟩ := mem_map.mp hdata
    exact length_slice (length_filled hk data) (mem_range.mp hi)
  · rw [eq_of_mem_replicate hparity, length_replicate]

theorem encode_eq (hk : 0 < self.config.dataShards) (data : List UInt8) :
    self.encode data
      = if data.length < (self.config.dataShards - 1)
            * shardSize self.config.dataShards data.length
        then none else some (self.encoder.encode (self.prepared data)) := by
  unfold encode
  rw [if_neg (by omega)]
  have hsize : (data.length + self.config.dataShards - 1) / self.config.dataShards
      = shardSize self.config.dataShards data.length := rfl
  dsimp only
  rw [hsize]
  by_cases hbehind : data.length
      < (self.config.dataShards - 1) * shardSize self.config.dataShards data.length
  · -- If any shard starts behind the end, the last one does.
    have hlast : self.config.dataShards - 1 ∈ range self.config.dataShards :=
      mem_range.mpr (by omega)
    have hnone := mapM_eq_none hlast
      (f := dataShard data (shardSize self.config.dataShards data.length))
      (by rw [dataShard_eq data (by omega), if_pos hbehind])
    rw [hnone, if_pos hbehind]
    rfl
  · have hsome := mapM_eq_some (range self.config.dataShards)
      (dataShard data (shardSize self.config.dataShards data.length))
      (slice (shardSize self.config.dataShards data.length) (filled self.config.dataShards data))
      (fun i hi => by
        have hlt := mem_range.mp hi
        have hstart : i * shardSize self.config.dataShards data.length
            ≤ (self.config.dataShards - 1) * shardSize self.config.dataShards data.length :=
          Nat.mul_le_mul_right _ (by omega)
        rw [dataShard_eq data hlt, if_neg (by omega)])
    rw [hsome, if_neg hbehind]
    rfl

/-! ### Encoding -/

/-- With a code that takes all shards of one size, an object is encoded exactly if the data
    shards but the last are not longer together than the object. -/
theorem encode_total_iff (hk : 0 < self.config.dataShards)
    (hcode : self.encoder.Encodes self.config.dataShards self.config.parityShards)
    (data : List UInt8) (hdata : data ≠ []) :
    (∃ shards size, self.encode data = some (.ok shards) ∧
        shards.length = self.config.dataShards + self.config.parityShards ∧
        ∀ shard ∈ shards, shard.length = size) ↔
      (self.config.dataShards - 1) * shardSize self.config.dataShards data.length
        ≤ data.length := by
  rw [self.encode_eq hk data]
  have hpos : 0 < data.length := length_pos_iff.mpr hdata
  by_cases hbehind : data.length
      < (self.config.dataShards - 1) * shardSize self.config.dataShards data.length
  · rw [if_pos hbehind]
    refine iff_of_false ?_ (by omega)
    rintro ⟨shards, size, hnone, -⟩
    cases hnone
  · rw [if_neg hbehind]
    refine iff_of_true ?_ (by omega)
    have hsize : 0 < shardSize self.config.dataShards data.length :=
      Nat.div_pos (by omega) hk
    obtain ⟨coded, hcoded, hlength, hsizes⟩ := hcode.total (self.prepared data) _
      (self.length_prepared data) hsize (self.length_of_mem_prepared hk data)
    exact ⟨coded, _, congrArg some hcoded, hlength, hsizes⟩

/-- An object that is at least as long as the square of the number of data shards but one
    can always be cut. -/
theorem shardSize_fits_of_large {length : Nat} (hk : 0 < k)
    (hlarge : (k - 1) * (k - 1) ≤ length) : (k - 1) * shardSize k length ≤ length := by
  obtain ⟨j, rfl⟩ : ∃ j, k = j + 1 := ⟨k - 1, by omega⟩
  rw [Nat.add_sub_cancel] at hlarge ⊢
  rw [shardSize, ← Nat.add_assoc, Nat.add_sub_cancel]
  -- Multiplied by the number of shards, the size is at most the length and the others.
  have hsize : (j + 1) * ((length + j) / (j + 1)) ≤ length + j := Nat.mul_div_le _ _
  refine Nat.le_of_mul_le_mul_left ?_ (Nat.succ_pos j)
  calc (j + 1) * (j * ((length + j) / (j + 1)))
      = j * ((j + 1) * ((length + j) / (j + 1))) := Nat.mul_left_comm _ _ _
    _ ≤ j * (length + j) := Nat.mul_le_mul_left j hsize
    _ = j * length + j * j := Nat.mul_add j length j
    _ ≤ j * length + length := Nat.add_le_add_left hlarge _
    _ = (j + 1) * length := (Nat.succ_mul j length).symm

/-- Whatever the code is: five bytes can not be cut into the four data shards of the default
    configuration. The shards are of two bytes, and the last would start at the sixth. -/
theorem five_bytes_panic :
    ∃ data : List UInt8, data.length = 5 ∧
      ∀ code : ReedSolomon, encode ⟨{}, code⟩ data = none := by
  refine ⟨[1, 2, 3, 4, 5], rfl, fun code => ?_⟩
  have hbehind : 5 < (4 - 1) * shardSize 4 5 := by decide
  exact (encode_eq ⟨{}, code⟩ (by decide : 0 < 4) _).trans (if_pos hbehind)

/-! ### Decoding -/

theorem present_of_missing {m : Nat} (hlength : received.length = k + m)
    (hmissing : received.count none ≤ m) :
    k ≤ received.countP Option.isSome := by
  have hcount : received.length
      = received.countP Option.isSome + received.countP (fun r => ¬ r.isSome) :=
    length_eq_countP_add_countP Option.isSome
  have hnone : received.countP (fun r => ¬ r.isSome) = received.count none := by
    refine countP_congr fun r _ => ?_
    cases r <;> simp
  omega

theorem decode_of_reconstruct {coded : List (List UInt8)}
    (h : self.encoder.reconstruct received = .ok (coded.map some))
    (originalSize : Nat) :
    self.decode received originalSize
      = .ok ((coded.take self.config.dataShards).flatten.take originalSize) := by
  have hall : ((coded.take self.config.dataShards).map some).mapM id
      = some (coded.take self.config.dataShards) := by
    generalize coded.take self.config.dataShards = parts
    induction parts with
    | nil => rfl
    | cons part parts ih =>
      rw [map_cons, mapM_cons, ih]
      rfl
  unfold decode
  rw [h]
  dsimp only [bind, Except.bind]
  rw [← map_take, hall]

theorem coded_of_encode (h : self.encode data = some (.ok shards)) :
    0 < self.config.dataShards ∧ self.encoder.encode (self.prepared data) = .ok shards := by
  have hk : 0 < self.config.dataShards := by
    refine Nat.pos_of_ne_zero fun hzero => ?_
    rw [encode, if_pos hzero] at h
    cases h
  rw [self.encode_eq hk data] at h
  by_cases hbehind : data.length
      < (self.config.dataShards - 1) * shardSize self.config.dataShards data.length
  · rw [if_pos hbehind] at h
    cases h
  · rw [if_neg hbehind, Option.some.injEq] at h
    exact ⟨hk, h⟩

theorem decode_of_coded (hcode : self.encoder.Recovers self.config.dataShards)
    (hk : 0 < self.config.dataShards)
    (hcoded : self.encoder.encode (self.prepared data) = .ok shards)
    (herased : Erased received shards) (hmissing : received.count none ≤ self.config.parityShards) :
    self.decode received data.length = .ok data := by
  obtain ⟨hlength, hfirst⟩ := hcode.systematic _ _ hcoded
  rw [self.length_prepared data] at hlength
  have hpresent := present_of_missing ((List.Forall₂.length_eq herased).trans hlength) hmissing
  rw [self.decode_of_reconstruct (hcode.recovers _ _ _ hcoded herased hpresent), hfirst, prepared,
    take_left' (by rw [length_map, length_range]),
    flatten_slices (length_filled hk data), filled, take_left]

/-- An object that was encoded is decoded from its shards, if no more are missing than there
    are parity shards. -/
theorem decode_erased (hcode : self.encoder.Recovers self.config.dataShards) {data : List UInt8}
    {shards : List (List UInt8)} (hencode : self.encode data = some (.ok shards))
    {received : List (Option (List UInt8))} (herased : Erased received shards)
    (hmissing : received.count none ≤ self.config.parityShards) :
    self.decode received data.length = .ok data := by
  obtain ⟨hk, hcoded⟩ := self.coded_of_encode hencode
  exact self.decode_of_coded hcode hk hcoded herased hmissing

end ErasureEncoder

/-! ### A code -/

/-- The sum of two shards, bit by bit. -/
def xorBytes (a b : List UInt8) : List UInt8 := zipWith (· ^^^ ·) a b

theorem xorBytes_cancel (h : a.length = b.length) : xorBytes a (xorBytes a b) = b := by
  unfold xorBytes
  induction a generalizing b with
  | nil =>
    rw [length_eq_zero_iff.mp h.symm]
    rfl
  | cons x a ih =>
    cases b with
    | nil => cases h
    | cons y b =>
      rw [zipWith_cons_cons, zipWith_cons_cons, ih (Nat.succ.inj h),
        ← UInt8.xor_assoc, UInt8.xor_self, UInt8.zero_xor]

theorem xorBytes_comm (a b : List UInt8) : xorBytes a b = xorBytes b a :=
  zipWith_comm_of_comm fun x y => UInt8.xor_comm x y

theorem length_xorBytes (h : a.length = b.length) : (xorBytes a b).length = a.length := by
  rw [xorBytes, length_zipWith, ← h, Nat.min_self]

/-- The code of two data shards and one parity shard, which is their sum. -/
def xorCode : ReedSolomon where
  encode
    | [a, b, c] =>
      if a.length = 0 then .error "The first shard has no data"
      else if a.length = b.length ∧ a.length = c.length then .ok [a, b, xorBytes a b]
      else .error "At least one of the provided shards is not of the correct size"
    | _ => .error "Wrong number of shards"
  reconstruct
    | [some a, some b, _] => .ok [some a, some b, some (xorBytes a b)]
    | [some a, none, some c] => .ok [some a, some (xorBytes a c), some c]
    | [none, some b, some c] => .ok [some (xorBytes b c), some b, some c]
    | _ => .error "The number of provided shards is too small"

theorem xorCode_encode_cases {shards coded : List (List UInt8)}
    (h : xorCode.encode shards = .ok coded) :
    ∃ a b c, shards = [a, b, c] ∧ a.length = b.length ∧ coded = [a, b, xorBytes a b] := by
  unfold xorCode at h
  dsimp only at h
  split at h
  · rename_i a b c
    split at h
    · cases h
    · split at h
      · rename_i hsizes
        cases h
        exact ⟨a, b, c, rfl, hsizes.1, rfl⟩
      · cases h
  · cases h

theorem xorCode_encodes : xorCode.Encodes 2 1 := by
  refine ⟨fun shards size hlength hsize hall => ?_⟩
  obtain ⟨a, b, c, rfl⟩ := length_eq_three.mp hlength
  have ha := hall a (by simp)
  have hb := hall b (by simp)
  have hc := hall c (by simp)
  refine ⟨[a, b, xorBytes a b], ?_, rfl, fun shard hshard => ?_⟩
  · unfold xorCode
    dsimp only
    rw [if_neg (by omega), if_pos ⟨ha.trans hb.symm, ha.trans hc.symm⟩]
  · simp only [mem_cons, not_mem_nil, or_false] at hshard
    rcases hshard with rfl | rfl | rfl
    · exact ha
    · exact hb
    · rw [length_xorBytes (ha.trans hb.symm), ha]

theorem xorCode_recovers : xorCode.Recovers 2 := by
  refine ⟨fun shards coded h => ?_, fun shards coded received h herased hpresent => ?_⟩
  · obtain ⟨a, b, c, rfl, -, rfl⟩ := xorCode_encode_cases h
    exact ⟨rfl, rfl⟩
  · obtain ⟨a, b, c, rfl, hlength, rfl⟩ := xorCode_encode_cases h
    have hother : xorBytes b (xorBytes a b) = a := by
      rw [xorBytes_comm a b, xorBytes_cancel hlength.symm]
    have hthree : received.length = 3 := List.Forall₂.length_eq herased
    obtain ⟨r, s, t, rfl⟩ := length_eq_three.mp hthree
    obtain ⟨hr, hs, ht⟩ : (r = none ∨ r = some a) ∧ (s = none ∨ s = some b) ∧
        (t = none ∨ t = some (xorBytes a b)) := by
      simpa [Erased] using herased
    -- Each shard can be made from the other two, and two are always there.
    rcases hr with rfl | rfl <;> rcases hs with rfl | rfl <;> rcases ht with rfl | rfl
    · cases hpresent
    · simp at hpresent
    · simp at hpresent
    · change Except.ok [some (xorBytes b (xorBytes a b)), some b, some (xorBytes a b)] = _
      rw [hother]
      rfl
    · simp at hpresent
    · change Except.ok [some a, some (xorBytes a (xorBytes a b)), some (xorBytes a b)] = _
      rw [xorBytes_cancel hlength]
      rfl
    · rfl
    · rfl

/-- Two shards and their sum. -/
def xorEncoder : ErasureEncoder := ⟨⟨2, 1⟩, xorCode⟩

/-- Five bytes are cut into two shards, of which the second is filled up. -/
theorem xorEncoder_five_bytes :
    (2 - 1) * shardSize 2 5 ≤ 5 ∧
      ∃ shards size, xorEncoder.encode [1, 2, 3, 4, 5] = some (.ok shards) ∧ shards.length = 3 ∧
        ∀ shard ∈ shards, shard.length = size :=
  ⟨by decide, (xorEncoder.encode_total_iff (by decide) xorCode_encodes [1, 2, 3, 4, 5]
    (by decide)).mpr (by decide)⟩

/-- They come back without the first shard. -/
theorem xorEncoder_first_lost :
    xorEncoder.encode [1, 2, 3, 4, 5] = some (.ok [[1, 2, 3], [4, 5, 0], [5, 7, 3]]) ∧
      xorEncoder.decode [none, some [4, 5, 0], some [5, 7, 3]] 5 = .ok [1, 2, 3, 4, 5] := by
  have hencode : xorEncoder.encode [1, 2, 3, 4, 5]
      = some (.ok [[1, 2, 3], [4, 5, 0], [5, 7, 3]]) := rfl
  refine ⟨hencode, xorEncoder.decode_erased xorCode_recovers hencode ?_ (by decide)⟩
  exact .cons (Or.inl rfl) (.cons (Or.inr rfl) (.cons (Or.inr rfl) .nil))

/-! ### Objects in the network -/

namespace StorageLayer

variable (env : StorageEnv) (self : StorageLayer)

/-- A node that cuts objects into shards gives no response exactly if the last data shard
    would start behind the end of the object. -/
theorem putObject_panics_iff {encoder : ErasureEncoder}
    (hcoding : self.config.useErasureCoding = true) (hencoder : self.erasureEncoder = some encoder)
    (hk : 0 < encoder.config.dataShards) (events : PutEvents) (objectId : String)
    (data : List UInt8) (hsize : data.length ≤ self.config.maxObjectSize) :
    (self.putObject env events objectId data).response = none ↔
      data.length < (encoder.config.dataShards - 1)
        * shardSize encoder.config.dataShards data.length := by
  unfold putObject
  rw [if_neg (by omega), hcoding, hencoder]
  dsimp only
  unfold putObjectErasure
  rw [encoder.encode_eq hk data]
  by_cases hbehind : data.length < (encoder.config.dataShards - 1)
      * shardSize encoder.config.dataShards data.length
  · rw [if_pos hbehind]
    exact iff_of_true rfl hbehind
  · rw [if_neg hbehind]
    refine iff_of_false ?_ hbehind
    cases encoder.encoder.encode (encoder.prepared data) with
    | error e => exact nofun
    | ok shards =>
      dsimp only
      rcases self.persist_cases events _ _ with ⟨message, h⟩ | ⟨dht, stats, response, h, -⟩
      · rw [h]
        exact nofun
      · rw [h]
        exact nofun

/-- A shard as it is read from the network: none if there is no chunk or it does not
    decrypt. -/
def readShard (answers : String → KadReply) (objectId : String) (key : Key) (i : Nat) :
    Option (List UInt8) :=
  match self.dht.getChunk answers objectId i with
  | .ok (some chunk) => (chunk.decrypt env key).toOption
  | _ => none

/-- An object in shards is returned as it was stored, whichever chunks are lost or do not
    decrypt, if they are no more than there are parity shards. -/
theorem getObjectErasure_recovers {encoder : ErasureEncoder}
    (hencoder : self.erasureEncoder = some encoder)
    (hcode : encoder.encoder.Recovers encoder.config.dataShards) {data : List UInt8}
    {shards : List (List UInt8)} (hencode : encoder.encode data = some (.ok shards))
    {metadata : ObjectMetadata} (htotal : metadata.totalShards = shards.length)
    (hsize : metadata.originalSize = data.length) (hhash : metadata.hash = env.hexDigest data)
    (answers : String → KadReply) (objectId : String) (key : Key)
    (hread : ∀ i shard, shards[i]? = some shard →
      self.readShard env answers objectId key i = none ∨
        self.readShard env answers objectId key i = some shard)
    (hmissing : ((range shards.length).map
      (self.readShard env answers objectId key)).count none ≤ encoder.config.parityShards) :
    self.getObjectErasure env answers objectId metadata key
      = (self.served metadata data, .object data) := by
  have herased : Erased
      ((range shards.length).map (self.readShard env answers objectId key)) shards := by
    refine forall₂_iff_get.mpr ⟨by simp, fun i hi hi' => ?_⟩
    simpa using hread i shards[i] (getElem?_eq_getElem hi')
  obtain ⟨hk, hcoded⟩ := encoder.coded_of_encode hencode
  have hdecode := encoder.decode_of_coded hcode hk hcoded herased hmissing
  unfold getObjectErasure
  rw [hencoder, htotal, hsize]
  dsimp only
  generalize hresult : encoder.decode _ data.length = result
  obtain rfl : result = .ok data := hresult.symm.trans hdecode
  dsimp only
  rw [if_neg (not_not.mpr hhash.symm)]

end StorageLayer

end Storage

end EssNode
