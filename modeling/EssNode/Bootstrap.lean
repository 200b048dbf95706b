import EssNode.Message

/-!
# The Bootstrap Cache

Where to find peers at the next start: a file of records, one for each peer, and an environment
variable. Addresses are lists of protocols. Their texts and those of peers come from the network
library, of which no more is used than `Addressing` says.

An address is put in canonical form for a peer by its text. Everything from the last `/p2p/` on is
replaced, or the peer is appended if there is none. That keeps the route only of an address that
ends in a peer or does not mention one (`canonical_iff`). An address by way of a relay loses the
relay, and what is left need not be public, so that a second pass may drop what the first one kept
(`relay_dropped`).

A hundred records are written, in the order of the peers' names. A peer that was just saved is found
exactly if the variable names it, or its canonical address is public and fewer than a hundred
records come before its own (`saved_peer_found_iff`).

A file that cannot be read counts as empty and is written over. Failures of writing are left out.
-/

namespace EssNode

open List

namespace Bootstrap

open Option (bind_eq_some_iff some_inj some_ne_none)
open String (ofList toList_append)

inductive Protocol (PeerId : Type) where
  | ip4 (a b c d : UInt8)
  | ip6 (ip : BitVec 128)
  | dns4 (name : String)
  | dns6 (name : String)
  | p2p (peer : PeerId)
  /-- Any other component, behind its slash. -/
  | other (text : String)
deriving DecidableEq, Repr

abbrev Multiaddr (PeerId : Type) := List (Protocol PeerId)

variable {PeerId : Type} {sep s : List Char}

namespace Protocol

def isPublic : Protocol PeerId → Bool
  | ip4 a b _ _ =>
      !(a == 127) && !(a == 10 || (a == 172 && 16 ≤ b && b ≤ 31) || (a == 192 && b == 168)) &&
        !(a == 169 && b == 254)
  | ip6 ip => !(ip == 1) && !(ip >>> 121 == 126)
  | dns4 _ | dns6 _ => true
  | p2p _ | other _ => false

end Protocol

def isPublicAddr (addr : Multiaddr PeerId) : Bool := addr.any Protocol.isPublic

/-- How peers and addresses are written. -/
structure Naming (PeerId : Type) where
  peerText : PeerId → String
  ip6Text : BitVec 128 → String

namespace Naming

variable (self : Naming PeerId)

def protocolText : Protocol PeerId → String
  | .ip4 a b c d => "/ip4/" ++ ".".intercalate ([a, b, c, d].map fun n => toString n.toNat)
  | .ip6 ip => "/ip6/" ++ self.ip6Text ip
  | .dns4 name => "/dns4/" ++ name
  | .dns6 name => "/dns6/" ++ name
  | .p2p peer => "/p2p/" ++ self.peerText peer
  | .other text => "/" ++ text

def text : Multiaddr PeerId → String
  | [] => ""
  | protocol :: rest => self.protocolText protocol ++ text rest

def suffix (peer : PeerId) : String := "/p2p/" ++ self.peerText peer

end Naming

/-- What the network library does with texts. A peer is read back from its text, which has neither
    white space nor slashes. A text that ends in a peer is read as an address that ends in it, and
    an address that was read is read back from its own text. -/
structure Addressing (PeerId : Type) extends Naming PeerId where
  parsePeer : String → Option PeerId
  parse : String → Option (Multiaddr PeerId)
  parsePeer_peerText : ∀ peer, parsePeer (peerText peer) = some peer
  peerText_plain : ∀ peer, peerText peer ≠ "" ∧ Unspaced (peerText peer) ∧
    '/' ∉ (peerText peer).toList
  parse_peer : ∀ head peer addr, parse (head ++ toNaming.suffix peer) = some addr →
    ∃ front, addr = front ++ [.p2p peer]
  parse_text : ∀ s addr, parse s = some addr → parse (toNaming.text addr) = some addr

structure BootstrapPeerRecord where
  peerId : String
  addr : String
deriving DecidableEq, Repr

/-- A text around the last occurrence of a separator. -/
def rsplitOnce (sep : List Char) : List Char → Option (List Char × List Char)
  | [] => none
  | c :: rest =>
      match rsplitOnce sep rest with
      | some (head, tail) => some (c :: head, tail)
      | none =>
          if sep.isPrefixOf (c :: rest) then some ([], (c :: rest).drop sep.length) else none

/-- What is in the file: nothing, records, the addresses of an earlier format, or anything else. -/
inductive CacheFile where
  | missing
  | blank
  | records (items : List BootstrapPeerRecord)
  | legacy (items : List String)
  | unsupported
deriving DecidableEq, Repr

/-- What stands in front of a peer. -/
def peerMark : List Char := "/p2p/".toList

def maxBootstrapPeers : Nat := 100

/-- The last record of each peer. -/
def byPeer (records : List BootstrapPeerRecord) : FinMap String BootstrapPeerRecord :=
  records.foldl (fun m record => m.insert record.peerId record) ∅

/-- What a map holds, in the order of its keys. -/
def values {V : Type} (m : FinMap String V) : List V := m.toList.map Prod.snd

namespace Addressing

variable (env : Addressing PeerId)

def canonicalizeAddrForPeer (addr : Multiaddr PeerId) (peer : PeerId) : String :=
  let s := env.text addr
  if (env.suffix peer).toList.isSuffixOf s.toList then s
  else
    match rsplitOnce peerMark s.toList with
    | some (head, _) => ofList head ++ env.suffix peer
    | none => s ++ env.suffix peer

def peerIdFromMultiaddr (addr : Multiaddr PeerId) : Option PeerId := do
  let (_, peer) ← rsplitOnce peerMark (env.text addr).toList
  env.parsePeer (ofList peer)

def recordFromAddr (addr : Multiaddr PeerId) : Option BootstrapPeerRecord :=
  if isPublicAddr addr then do
    let peer ← env.peerIdFromMultiaddr addr
    some ⟨env.peerText peer, env.canonicalizeAddrForPeer addr peer⟩
  else none

def normalizeRecord (record : BootstrapPeerRecord) : Option BootstrapPeerRecord :=
  if trim record.peerId = "" ∨ trim record.addr = "" then none
  else do
    let peer ← env.parsePeer (trim record.peerId)
    let addr ← env.parse (trim record.addr)
    if isPublicAddr addr then
      some ⟨env.peerText peer, env.canonicalizeAddrForPeer addr peer⟩
    else none

def normalizeRecords (records : List BootstrapPeerRecord) : List BootstrapPeerRecord :=
  values (byPeer (records.filterMap env.normalizeRecord))

def migrateLegacyCache (items : List String) : List BootstrapPeerRecord :=
  values (byPeer (items.filterMap fun raw =>
    if trim raw = "" then none else (env.parse (trim raw)).bind env.recordFromAddr))

def writeCacheRecords (items : List BootstrapPeerRecord) : CacheFile :=
  .records ((env.normalizeRecords items).take maxBootstrapPeers)

def readCacheRecords (file : CacheFile) : Except String (List BootstrapPeerRecord) × CacheFile :=
  match file with
  | .missing | .blank => (.ok [], file)
  | .records items =>
      let normalized := env.normalizeRecords items
      (.ok normalized, if normalized ≠ items then env.writeCacheRecords normalized else file)
  | .legacy items =>
      let normalized := env.migrateLegacyCache items
      (.ok normalized, env.writeCacheRecords normalized)
  | .unsupported => (.error "unsupported bootstrap cache format", file)

def pushAddr (m : FinMap String (Multiaddr PeerId)) (addr : Multiaddr PeerId) :
    FinMap String (Multiaddr PeerId) :=
  if isPublicAddr addr then
    match env.peerIdFromMultiaddr addr with
    | some peer => m.insertIfNew (env.peerText peer) addr
    | none => m
  else m

/-- The addresses in the environment variable. -/
def envAddrs (var : Option String) : List (Multiaddr PeerId) :=
  (((var.getD "").toList.splitOn ',').map fun raw => trim (ofList raw)).filterMap fun raw =>
    if raw = "" then none else env.parse raw

def cacheAddrs (file : CacheFile) : List (Multiaddr PeerId) :=
  match (env.readCacheRecords file).1 with
  | .ok records => records.filterMap fun record => env.parse record.addr
  | .error _ => []

def loadBootstrapAddrs (var : Option String) (file : CacheFile) : List (Multiaddr PeerId) :=
  values ((env.envAddrs var ++ env.cacheAddrs file).foldl env.pushAddr ∅)

/-- The records that are written when a peer is saved. -/
def recordsWith (file : CacheFile) (addr : Multiaddr PeerId) (peer : PeerId) :
    List BootstrapPeerRecord :=
  ((env.readCacheRecords file).1.toOption.getD []).filter (·.peerId ≠ env.peerText peer) ++
    [⟨env.peerText peer, env.canonicalizeAddrForPeer addr peer⟩]

def saveBootstrapPeerAddr (file : CacheFile) (addr : Multiaddr PeerId) (peer : PeerId) :
    CacheFile :=
  if isPublicAddr addr then
    env.writeCacheRecords (env.normalizeRecords (env.recordsWith file addr peer))
  else file

end Addressing

/-! ### Splitting -/

theorem rsplitOnce_some {head tail : List Char} (h : rsplitOnce sep s = some (head, tail)) :
    s = head ++ (sep ++ tail) := by
  induction s generalizing head with
  | nil => exact absurd h (by simp [rsplitOnce])
  | cons c rest ih =>
    unfold rsplitOnce at h
    split at h
    · rename_i hsplit
      obtain ⟨rfl, rfl⟩ := by simpa using h
      rw [ih hsplit, cons_append]
    · split at h
      · rename_i hprefix
        obtain ⟨rfl, rfl⟩ := by simpa using h
        rw [nil_append, prefix_iff_eq_append.mp (List.isPrefixOf_iff_prefix.mp hprefix)]
      · exact absurd h.symm (some_ne_none _)

theorem rsplitOnce_eq_none (hsep : sep ≠ []) : rsplitOnce sep s = none ↔ ¬ sep <:+: s := by
  induction s with
  | nil => simp [rsplitOnce, hsep]
  | cons c rest ih =>
    rw [infix_cons_iff, not_or, ← ih, ← isPrefixOf_iff_prefix, rsplitOnce]
    cases rsplitOnce sep rest <;> simp

theorem rsplitOnce_peer (head : List Char) {peer : List Char} (h : '/' ∉ peer) :
    rsplitOnce peerMark (head ++ (peerMark ++ peer)) = some (head, peer) := by
  induction head with
  | nil =>
    have hnone : rsplitOnce ['/', 'p', '2', 'p', '/'] peer = none :=
      (rsplitOnce_eq_none (by decide)).mpr fun hwithin => h (hwithin.subset (by decide))
    have hrest : ¬ ['p', '2', 'p', '/'] <+: peer := fun hstart =>
      h (hstart.subset (by decide))
    simp [peerMark, rsplitOnce, hnone, hrest]
  | cons c rest ih => simp only [cons_append, rsplitOnce, ih]

/-! ### Canonical Addresses -/

/-- The address with its last component replaced, or with one more. -/
def withPeer (addr : Multiaddr PeerId) (peer : PeerId) : Multiaddr PeerId :=
  match addr.getLast? with
  | some (.p2p _) => addr.dropLast ++ [.p2p peer]
  | _ => addr ++ [.p2p peer]

namespace Addressing

variable (env : Addressing PeerId) (front : Multiaddr PeerId) (other : PeerId)
  (addr : Multiaddr PeerId) (peer : PeerId)

/-- An address that ends in a peer, or whose text could not be taken for one with a peer. -/
def Routed (addr : Multiaddr PeerId) : Prop :=
  (∃ front peer, addr = front ++ [.p2p peer]) ∨ ¬ peerMark <:+: (env.text addr).toList

open Naming

theorem text_append (rest : Multiaddr PeerId) :
    env.text (front ++ rest) = env.text front ++ env.text rest := by
  induction front with
  | nil => simp [text]
  | cons protocol _ ih => rw [cons_append, text, text, ih, String.append_assoc]

theorem text_peer : env.text (front ++ [.p2p peer]) = env.text front ++ env.suffix peer := by
  rw [text_append]
  simp [text, protocolText, suffix]

theorem rsplitOnce_suffix (head : String) (peer : PeerId) :
    rsplitOnce peerMark (head ++ env.suffix peer).toList
      = some (head.toList, (env.peerText peer).toList) := by
  rw [suffix, toList_append, toList_append]
  exact rsplitOnce_peer _ (env.peerText_plain peer).2.2

/-- The canonical form ends in the peer. What is in front is a part of the address up to a `/p2p/`,
    or all of it if there is none. -/
theorem canonicalize_cases :
    ∃ head, env.canonicalizeAddrForPeer addr peer = head ++ env.suffix peer ∧
      (head = env.text addr ∧ ¬ peerMark <:+: (env.text addr).toList ∨
        ∃ rest, (env.text addr).toList = head.toList ++ (peerMark ++ rest)) := by
  unfold canonicalizeAddrForPeer
  dsimp only
  split
  · rename_i hsuffix
    obtain ⟨head, hhead⟩ := isSuffixOf_iff_suffix.mp hsuffix
    refine ⟨ofList head, ?_, Or.inr ⟨(env.peerText peer).toList, ?_⟩⟩
    · rw [← String.ofList_toList (s := env.text addr), ← hhead]
      simp
    · rw [← hhead]
      simp [suffix, peerMark]
  split
  · rename_i head tail hsplit
    refine ⟨ofList head, rfl, Or.inr ⟨tail, ?_⟩⟩
    rw [String.toList_ofList]
    exact rsplitOnce_some hsplit
  · rename_i hnone
    exact ⟨env.text addr, rfl, Or.inl ⟨rfl, (rsplitOnce_eq_none (by decide)).mp hnone⟩⟩

theorem parse_canonicalize {addr a : Multiaddr PeerId} {peer : PeerId}
    (h : env.parse (env.canonicalizeAddrForPeer addr peer) = some a) :
    ∃ front, a = front ++ [.p2p peer] := by
  obtain ⟨head, hcanonical, -⟩ := env.canonicalize_cases addr peer
  exact env.parse_peer head peer a (hcanonical ▸ h)

theorem canonicalize_peer :
    env.canonicalizeAddrForPeer (front ++ [.p2p other]) peer = env.text (front ++ [.p2p peer]) := by
  have hsplit := env.rsplitOnce_suffix (env.text front) other
  unfold canonicalizeAddrForPeer
  dsimp only
  rw [env.text_peer front other, env.text_peer front peer, hsplit]
  dsimp only
  rw [String.ofList_toList]
  split
  · rename_i hsuffix
    obtain ⟨head, hhead⟩ := isSuffixOf_iff_suffix.mp hsuffix
    have hsame := env.rsplitOnce_suffix (ofList head) peer
    rw [toList_append, String.toList_ofList, hhead, hsplit] at hsame
    simp only [some_inj, Prod.mk.injEq, String.toList_inj] at hsame
    rw [suffix, suffix, hsame.2]
  · rfl

theorem withPeer_peer : withPeer (front ++ [.p2p other]) peer = front ++ [.p2p peer] := by
  simp [withPeer]

/-- The text does what is meant exactly for the addresses that are routed so. -/
theorem canonicalize_eq_iff :
    env.canonicalizeAddrForPeer addr peer = env.text (withPeer addr peer) ↔ env.Routed addr := by
  by_cases hpeer : ∃ front other, addr = front ++ [.p2p other]
  · obtain ⟨front, other, rfl⟩ := hpeer
    rw [canonicalize_peer, withPeer_peer]
    exact ⟨fun _ => Or.inl ⟨front, other, rfl⟩, fun _ => rfl⟩
  · have hwith : withPeer addr peer = addr ++ [.p2p peer] := by
      unfold withPeer
      split
      · rename_i other hlast
        obtain ⟨front, rfl⟩ := getLast?_eq_some_iff.mp hlast
        exact absurd ⟨front, other, rfl⟩ hpeer
      · rfl
    rw [Routed, or_iff_right hpeer, hwith, env.text_peer]
    obtain ⟨head, hcanonical, ⟨rfl, hnone⟩ | ⟨rest, hrest⟩⟩ := env.canonicalize_cases addr peer
    · exact ⟨fun _ => hnone, fun _ => hcanonical⟩
    · -- The canonical form is too short.
      refine ⟨fun h => ?_, fun h => absurd ⟨head.toList, rest, by simpa using hrest.symm⟩ h⟩
      rw [hcanonical] at h
      have hlength := congrArg (fun s : String => s.toList.length) h
      simp only [toList_append, length_append, hrest] at hlength
      simp [peerMark] at hlength

/-! ### Records -/

theorem text_head : (env.text addr).toList = [] ∨ (env.text addr).toList.head? = some '/' := by
  rcases addr with _ | ⟨protocol, rest⟩
  · exact Or.inl rfl
  · cases protocol <;> simp [text, protocolText]

theorem trim_canonicalize :
    trim (env.canonicalizeAddrForPeer addr peer) = env.canonicalizeAddrForPeer addr peer ∧
      env.canonicalizeAddrForPeer addr peer ≠ "" := by
  obtain ⟨head, hcanonical, hhead⟩ := env.canonicalize_cases addr peer
  have hfirst : (head ++ env.suffix peer).toList.head? = some '/' := by
    rw [toList_append]
    cases hchars : head.toList with
    | nil => simp [suffix]
    | cons c chars =>
      have hstart : (env.text addr).toList.head? = some c := by
        rcases hhead with ⟨rfl, -⟩ | ⟨rest, hrest⟩
        · rw [hchars, head?_cons]
        · rw [hrest, hchars, cons_append, head?_cons]
      rcases env.text_head addr with hnil | hslash
      · simp [hnil] at hstart
      · rw [cons_append, head?_cons, ← hslash, hstart]
  obtain ⟨hne, hplain, -⟩ := env.peerText_plain peer
  have hpeer : (env.peerText peer).toList ≠ [] := fun hnil => hne (String.toList_inj.mp hnil)
  have hlast : (head ++ env.suffix peer).toList.getLast?
      = some ((env.peerText peer).toList.getLast hpeer) := by
    rw [suffix, toList_append, toList_append,
      getLast?_append_of_ne_nil _ (by simp), getLast?_append_of_ne_nil _ hpeer,
      getLast?_eq_some_getLast hpeer]
  rw [hcanonical]
  refine ⟨trim_of_ends ?_ ?_, fun hempty => by simp [hempty] at hfirst⟩
  · intro c hc
    rw [hfirst] at hc
    obtain rfl := some_inj.mp hc
    decide
  · intro c hc
    rw [hlast] at hc
    obtain rfl := some_inj.mp hc
    exact hplain _ (getLast_mem hpeer)

theorem normalizeRecord_canonical :
    env.normalizeRecord ⟨env.peerText peer, env.canonicalizeAddrForPeer addr peer⟩
      = (env.parse (env.canonicalizeAddrForPeer addr peer)).bind fun a =>
        if isPublicAddr a then some ⟨env.peerText peer, env.text a⟩ else none := by
  obtain ⟨hne, hplain, -⟩ := env.peerText_plain peer
  obtain ⟨htrim, haddr⟩ := env.trim_canonicalize addr peer
  unfold normalizeRecord
  dsimp only
  rw [trim_of_unspaced hplain, htrim, if_neg (not_or_intro hne haddr), env.parsePeer_peerText]
  cases hparse : env.parse (env.canonicalizeAddrForPeer addr peer) with
  | none => rfl
  | some a =>
    obtain ⟨front, rfl⟩ := env.parse_canonicalize hparse
    simp [env.canonicalize_peer]

end Addressing

/-! ### Maps of Records -/

theorem mem_values {V : Type} {m : FinMap String V} {v : V} :
    v ∈ values m ↔ ∃ k : String, m[k]? = some v := by
  simp only [values, mem_map, Prod.exists, FinMap.mem_toList, exists_eq_right]

/-- In an ascending list, what is taken is what has few before it. -/
theorem mem_take_of_ascending {α β : Type} [LinearOrder β] {f : α → β} {l : List α} {x : α}
    (h : l.Pairwise fun a b => f a < f b) (n : Nat) :
    x ∈ l.take n ↔ x ∈ l ∧ l.countP (fun y => f y < f x) < n := by
  induction l generalizing n with
  | nil => simp
  | cons first rest ih =>
    rw [pairwise_cons] at h
    cases n with
    | zero => simp
    | succ n =>
      rw [take_succ_cons, mem_cons, mem_cons, ih h.2 n, countP_cons]
      constructor
      · rintro (rfl | ⟨hmem, hcount⟩)
        · have hzero : rest.countP (fun y => f y < f x) = 0 :=
            countP_eq_zero.mpr fun y hy => by simpa using (h.1 y hy).le
          exact ⟨Or.inl rfl, by simp [hzero]⟩
        · refine ⟨Or.inr hmem, ?_⟩
          split <;> omega
      · rintro ⟨rfl | hmem, hcount⟩
        · exact Or.inl rfl
        · rw [if_pos (decide_eq_true (h.1 x hmem))] at hcount
          exact Or.inr ⟨hmem, by omega⟩

section Records

variable {records : List BootstrapPeerRecord} {r : BootstrapPeerRecord} {k : String}

theorem find_byPeer (records : List BootstrapPeerRecord) (k : String) :
    (byPeer records)[k]? = records.reverse.find? (·.peerId = k) := by
  induction records using reverseRecOn with
  | nil => simp [byPeer]
  | append_singleton front record ih =>
    rw [byPeer, foldl_append, ← byPeer, foldl_cons, foldl_nil, FinMap.find_insert,
      ih, reverse_concat, find?_cons]
    by_cases h : record.peerId = k <;> simp [h]

theorem mem_of_find_byPeer (h : (byPeer records)[k]? = some r) : r ∈ records ∧ r.peerId = k := by
  rw [find_byPeer] at h
  exact ⟨mem_reverse.mp (mem_of_find?_eq_some h), by simpa using find?_some h⟩

theorem map_peerId_values (records : List BootstrapPeerRecord) :
    (values (byPeer records)).map (·.peerId) = (byPeer records).toList.map Prod.fst := by
  rw [values, map_map]
  exact map_congr_left fun e he =>
    (mem_of_find_byPeer ((FinMap.mem_toList _ e.1 e.2).mp he)).2

theorem nodup_values (records : List BootstrapPeerRecord) :
    ((values (byPeer records)).map (·.peerId)).Nodup := by
  rw [map_peerId_values]
  exact FinMap.nodup_fst_toList _

theorem find_byPeer_iff (h : (records.map (·.peerId)).Nodup) :
    (byPeer records)[k]? = some r ↔ r ∈ records ∧ r.peerId = k := by
  refine ⟨mem_of_find_byPeer, fun ⟨hmem, hkey⟩ => ?_⟩
  cases hfind : (byPeer records)[k]? with
  | none =>
    rw [find_byPeer, find?_eq_none] at hfind
    exact absurd (decide_eq_true hkey) (hfind r (mem_reverse.mpr hmem))
  | some r' =>
    obtain ⟨hmem', hkey'⟩ := mem_of_find_byPeer hfind
    rw [inj_on_of_nodup_map h hmem' hmem (hkey'.trans hkey.symm)]

theorem mem_values_byPeer (h : (records.map (·.peerId)).Nodup) :
    r ∈ values (byPeer records) ↔ r ∈ records := by
  simp [mem_values, find_byPeer_iff h]

theorem byPeer_values (records : List BootstrapPeerRecord) :
    byPeer (values (byPeer records)) = byPeer records := by
  refine Std.ExtTreeMap.ext_getElem? fun k => Option.ext fun r => ?_
  rw [find_byPeer_iff (nodup_values records), mem_values]
  constructor
  · rintro ⟨⟨k', hk'⟩, rfl⟩
    rwa [(mem_of_find_byPeer hk').2]
  · exact fun h => ⟨⟨k, h⟩, (mem_of_find_byPeer h).2⟩

theorem sorted_values (records : List BootstrapPeerRecord) :
    (values (byPeer records)).Pairwise fun a b => a.peerId < b.peerId := by
  have hkeys : ((byPeer records).toList.map Prod.fst).Pairwise fun a b => a < b :=
    pairwise_map.mpr (Std.ExtTreeMap.ordered_keys_toList.imp compare_lt_iff_lt.mp)
  rwa [← map_peerId_values, pairwise_map] at hkeys

end Records

namespace Addressing

variable (env : Addressing PeerId)

/-! ### Normalising Again -/

theorem peerText_injective {p q : PeerId} (h : env.peerText p = env.peerText q) : p = q := by
  have hp := env.parsePeer_peerText p
  rw [h, env.parsePeer_peerText] at hp
  exact (some_inj.mp hp).symm

/-- A record under the name of a peer. -/
def Named (r : BootstrapPeerRecord) : Prop := ∃ peer, r.peerId = env.peerText peer

/-- A record as normalising leaves it. -/
def Canonical (r : BootstrapPeerRecord) : Prop :=
  ∃ peer addr, r = ⟨env.peerText peer, env.canonicalizeAddrForPeer addr peer⟩

variable {env} {records : List BootstrapPeerRecord} {r r' : BootstrapPeerRecord}
  (addrs : List (Multiaddr PeerId)) (m : FinMap String (Multiaddr PeerId))

theorem Canonical.named (h : env.Canonical r) : env.Named r := by
  obtain ⟨peer, addr, rfl⟩ := h
  exact ⟨peer, rfl⟩

theorem normalizeRecord_some (h : env.normalizeRecord r = some r') :
    ∃ peer addr, env.parsePeer (trim r.peerId) = some peer ∧
      r' = ⟨env.peerText peer, env.canonicalizeAddrForPeer addr peer⟩ := by
  unfold normalizeRecord at h
  split at h
  · exact absurd h.symm (some_ne_none _)
  · simp only [Option.bind_eq_bind, bind_eq_some_iff] at h
    obtain ⟨peer, hpeer, addr, -, hr⟩ := h
    split at hr
    · exact ⟨peer, addr, hpeer, (some_inj.mp hr).symm⟩
    · exact absurd hr.symm (some_ne_none _)

theorem Named.peerId (h : env.Named r) (hr : env.normalizeRecord r = some r') :
    r'.peerId = r.peerId := by
  obtain ⟨peer, hname⟩ := h
  obtain ⟨peer', addr, hparse, rfl⟩ := normalizeRecord_some hr
  rw [hname, trim_of_unspaced (env.peerText_plain peer).2.1, env.parsePeer_peerText] at hparse
  rw [hname, some_inj.mp hparse]

theorem canonical_of_mem (h : r ∈ env.normalizeRecords records) : env.Canonical r := by
  obtain ⟨k, hk⟩ := mem_values.mp h
  obtain ⟨r₀, -, hr⟩ := mem_filterMap.mp (mem_of_find_byPeer hk).1
  obtain ⟨peer, addr, -, rfl⟩ := normalizeRecord_some hr
  exact ⟨peer, addr, rfl⟩

theorem mem_normalizeRecords (hnamed : ∀ r ∈ records, env.Named r)
    (hdistinct : (records.map (·.peerId)).Nodup) :
    r ∈ env.normalizeRecords records ↔ ∃ r₀ ∈ records, env.normalizeRecord r₀ = some r := by
  -- A record keeps its name, so the names stay distinct.
  have hsub : ((records.filterMap env.normalizeRecord).map (·.peerId)).Sublist
      (records.map (·.peerId)) := by
    clear hdistinct
    induction records with
    | nil => simp
    | cons first rest ih =>
      have hrest := ih fun r hr => hnamed r (mem_cons_of_mem _ hr)
      cases hfirst : env.normalizeRecord first with
      | none => simpa [filterMap_cons, hfirst] using hrest.cons _
      | some first' =>
        have hkey := (hnamed first mem_cons_self).peerId hfirst
        simpa [filterMap_cons, hfirst, hkey] using hrest
  rw [normalizeRecords, mem_values_byPeer (hdistinct.sublist hsub), mem_filterMap]

theorem Canonical.stable (h : env.Canonical r) (hr : env.normalizeRecord r = some r') :
    env.normalizeRecord r' = some r' := by
  obtain ⟨peer, addr, rfl⟩ := h
  rw [normalizeRecord_canonical] at hr
  obtain ⟨addr', hparse, hif⟩ := bind_eq_some_iff.mp hr
  obtain ⟨front, rfl⟩ := env.parse_canonicalize hparse
  split at hif
  · rename_i hpublic
    obtain rfl := some_inj.mp hif
    have hagain := env.normalizeRecord_canonical (front ++ [.p2p peer]) peer
    rw [canonicalize_peer] at hagain
    rw [hagain, show env.parse (env.text (front ++ [.p2p peer])) = some (front ++ [.p2p peer]) from
      env.parse_text _ _ hparse, Option.bind_some, if_pos hpublic]
  · exact absurd hif.symm (some_ne_none _)

theorem Canonical.stable_iff (h : env.Canonical r) : env.normalizeRecord r = some r ↔
    ∃ addr, env.parse r.addr = some addr ∧ isPublicAddr addr = true ∧ env.text addr = r.addr := by
  obtain ⟨peer, addr, rfl⟩ := h
  rw [normalizeRecord_canonical, bind_eq_some_iff]
  refine exists_congr fun addr' => and_congr_right fun _ => ?_
  split <;> simp_all

theorem normalizeRecords_idem_iff : env.normalizeRecords (env.normalizeRecords records)
      = env.normalizeRecords records ↔
    ∀ r ∈ env.normalizeRecords records, env.normalizeRecord r = some r := by
  have hnamed : ∀ r ∈ env.normalizeRecords records, env.Named r := fun r hr =>
    (canonical_of_mem hr).named
  have hdistinct : ((env.normalizeRecords records).map (·.peerId)).Nodup := nodup_values _
  constructor
  · intro h r hr
    obtain ⟨r₀, hmem, hr₀⟩ := (mem_normalizeRecords hnamed hdistinct).mp (h ▸ hr)
    rwa [inj_on_of_nodup_map hdistinct hmem hr ((hnamed r₀ hmem).peerId hr₀).symm] at hr₀
  · intro h
    have hsame : (env.normalizeRecords records).filterMap env.normalizeRecord
        = env.normalizeRecords records := by
      rw [filterMap_congr h, filterMap_some]
    rw [normalizeRecords, hsame, normalizeRecords, byPeer_values]

/-! ### Saving and Loading -/

theorem peerIdFromMultiaddr_peer (front : Multiaddr PeerId) (peer : PeerId) :
    env.peerIdFromMultiaddr (front ++ [.p2p peer]) = some peer := by
  rw [peerIdFromMultiaddr, env.text_peer, env.rsplitOnce_suffix]
  simp [env.parsePeer_peerText]

/-- Whether an address is filed under a key. -/
def filedUnder (env : Addressing PeerId) (k : String) (addr : Multiaddr PeerId) : Bool :=
  isPublicAddr addr && (env.peerIdFromMultiaddr addr).map env.peerText == some k

theorem find_pushAddr (addr : Multiaddr PeerId) (k : String) : (env.pushAddr m addr)[k]?
      = m[k]?.or (if env.filedUnder k addr then some addr else none) := by
  unfold pushAddr filedUnder
  cases isPublicAddr addr <;> cases env.peerIdFromMultiaddr addr <;> try simp
  rename_i peer
  rw [Std.ExtTreeMap.getElem?_insertIfNew]
  simp only [Std.LawfulEqCmp.compare_eq_iff_eq, Std.ExtTreeMap.mem_iff_isSome_getElem?]
  by_cases hk : env.peerText peer = k
  · subst hk
    cases m[env.peerText peer]? <;> simp
  · simp [hk]

theorem find_pushed (k : String) :
    (addrs.foldl env.pushAddr m)[k]? = m[k]?.or (addrs.find? (env.filedUnder k)) := by
  induction addrs generalizing m with
  | nil => simp
  | cons addr rest ih =>
    rw [foldl_cons, ih, find_pushAddr, Option.or_assoc, find?_cons]
    cases env.filedUnder k addr <;> simp

theorem mem_pushed (peer : PeerId) :
    (∃ a ∈ values (addrs.foldl env.pushAddr ∅), env.peerIdFromMultiaddr a = some peer) ↔
      ∃ a ∈ addrs, isPublicAddr a = true ∧ env.peerIdFromMultiaddr a = some peer := by
  have hfind : ∀ k : String, (addrs.foldl env.pushAddr ∅)[k]? = addrs.find? (env.filedUnder k) :=
    fun k => by simp [find_pushed]
  simp only [mem_values, hfind]
  constructor
  · rintro ⟨a, ⟨k, hk⟩, ha⟩
    have hfiled := find?_some hk
    simp only [filedUnder, Bool.and_eq_true] at hfiled
    exact ⟨a, mem_of_find?_eq_some hk, hfiled.1, ha⟩
  · rintro ⟨a, ha, hpublic, hpeer⟩
    obtain ⟨a', ha'⟩ := Option.isSome_iff_exists.mp (find?_isSome.mpr ⟨a, ha,
      show env.filedUnder (env.peerText peer) a = true by simp [filedUnder, hpublic, hpeer]⟩)
    refine ⟨a', ⟨env.peerText peer, ha'⟩, ?_⟩
    have hfiled := find?_some ha'
    simp only [filedUnder, Bool.and_eq_true, beq_iff_eq, Option.map_eq_some_iff] at hfiled
    obtain ⟨-, other, hother, hsame⟩ := hfiled
    rw [hother, env.peerText_injective hsame]

theorem readCacheRecords_named (file : CacheFile) :
    (∀ r ∈ (env.readCacheRecords file).1.toOption.getD [], env.Named r) ∧
      (((env.readCacheRecords file).1.toOption.getD []).map (·.peerId)).Nodup := by
  cases file with
  | missing | blank | unsupported => simp [readCacheRecords, Except.toOption]
  | records items => exact ⟨fun r hr => (canonical_of_mem hr).named, nodup_values _⟩
  | legacy items =>
    refine ⟨fun r hr => ?_, nodup_values _⟩
    obtain ⟨k, hk⟩ := mem_values.mp hr
    obtain ⟨raw, -, hraw⟩ := mem_filterMap.mp (mem_of_find_byPeer hk).1
    split at hraw
    · exact absurd hraw.symm (some_ne_none _)
    obtain ⟨addr, -, hrecord⟩ := bind_eq_some_iff.mp hraw
    unfold recordFromAddr at hrecord
    split at hrecord
    · obtain ⟨peer, -, hpeer⟩ := bind_eq_some_iff.mp hrecord
      exact ⟨peer, by rw [← some_inj.mp hpeer]⟩
    · exact absurd hrecord.symm (some_ne_none _)

variable (file : CacheFile) (addr : Multiaddr PeerId) (peer : PeerId)

/-- The records of a file that was just written, before it is cut off. -/
def written (env : Addressing PeerId) : List BootstrapPeerRecord :=
  env.normalizeRecords (env.normalizeRecords (env.recordsWith file addr peer))

theorem recordsWith_named : (∀ r ∈ env.recordsWith file addr peer, env.Named r) ∧
    ((env.recordsWith file addr peer).map (·.peerId)).Nodup := by
  obtain ⟨hnamed, hdistinct⟩ := env.readCacheRecords_named file
  constructor
  · intro r hr
    rcases mem_append.mp hr with hold | hnew
    · exact hnamed r (mem_of_mem_filter hold)
    · exact ⟨peer, by rw [mem_singleton.mp hnew]⟩
  · rw [recordsWith, map_append, map_singleton]
    refine List.Nodup.append (hdistinct.sublist (filter_sublist.map _)) (by simp) ?_
    simp

theorem mem_written_iff : (∃ r ∈ written file addr peer env, r.peerId = env.peerText peer) ↔
    ∃ a, env.parse (env.canonicalizeAddrForPeer addr peer) = some a ∧ isPublicAddr a = true := by
  have hcanonical : ∀ r ∈ env.normalizeRecords (env.recordsWith file addr peer), env.Canonical r :=
    fun r => canonical_of_mem
  have hwith := env.recordsWith_named file addr peer
  simp only [written, mem_normalizeRecords (fun r hr => (hcanonical r hr).named) (nodup_values _)]
  simp only [mem_normalizeRecords hwith.1 hwith.2] at hcanonical ⊢
  constructor
  · rintro ⟨r, ⟨r₁, ⟨r₀, hmem, hr₁⟩, hr⟩, hkey⟩
    have hname : r₀.peerId = env.peerText peer := by
      rw [← (hwith.1 r₀ hmem).peerId hr₁, ← hkey]
      exact ((hcanonical r₁ ⟨r₀, hmem, hr₁⟩).named.peerId hr).symm
    -- No other record is under the name of the peer.
    rcases mem_append.mp hmem with hold | hnew
    · exact absurd hname (by simpa using (mem_filter.mp hold).2)
    rw [mem_singleton.mp hnew, normalizeRecord_canonical] at hr₁
    obtain ⟨a, hparse, hif⟩ := bind_eq_some_iff.mp hr₁
    refine ⟨a, hparse, ?_⟩
    by_contra hprivate
    rw [if_neg hprivate] at hif
    exact absurd hif.symm (some_ne_none _)
  · rintro ⟨a, hparse, hpublic⟩
    have hnew : env.normalizeRecord ⟨env.peerText peer, env.canonicalizeAddrForPeer addr peer⟩
        = some ⟨env.peerText peer, env.text a⟩ := by
      rw [normalizeRecord_canonical, hparse, Option.bind_some, if_pos hpublic]
    exact ⟨_, ⟨_, ⟨_, mem_append_right _ mem_cons_self, hnew⟩,
      Canonical.stable ⟨peer, addr, rfl⟩ hnew⟩, rfl⟩

theorem mem_cacheAddrs (items : List BootstrapPeerRecord)
    (hcanonical : ∀ r ∈ items, env.Canonical r)
    (hstable : ∀ r ∈ items, env.normalizeRecord r = some r)
    (hdistinct : (items.map (·.peerId)).Nodup) :
    (∃ a ∈ env.cacheAddrs (.records items), isPublicAddr a = true ∧
        env.peerIdFromMultiaddr a = some peer) ↔
      ∃ r ∈ items, r.peerId = env.peerText peer := by
  have hmem : ∀ r, r ∈ env.normalizeRecords items ↔ r ∈ items := by
    intro r
    rw [mem_normalizeRecords (fun r hr => (hcanonical r hr).named) hdistinct]
    constructor
    · rintro ⟨r₀, hmem, hr⟩
      rw [hstable r₀ hmem] at hr
      exact some_inj.mp hr ▸ hmem
    · exact fun hr => ⟨r, hr, hstable r hr⟩
  have haddrs : env.cacheAddrs (.records items)
      = (env.normalizeRecords items).filterMap fun record => env.parse record.addr := rfl
  simp only [haddrs, mem_filterMap, hmem]
  constructor
  · rintro ⟨a, ⟨r, hr, hparse⟩, -, hpeer⟩
    obtain ⟨other, addr, rfl⟩ := hcanonical r hr
    obtain ⟨front, rfl⟩ := env.parse_canonicalize hparse
    rw [peerIdFromMultiaddr_peer] at hpeer
    exact ⟨_, hr, by rw [some_inj.mp hpeer]⟩
  · rintro ⟨r, hr, hname⟩
    obtain ⟨a, hparse, hpublic, -⟩ := (hcanonical r hr).stable_iff.mp (hstable r hr)
    obtain ⟨other, addr, rfl⟩ := hcanonical r hr
    obtain ⟨front, rfl⟩ := env.parse_canonicalize hparse
    obtain rfl := env.peerText_injective hname
    exact ⟨_, ⟨_, hr, hparse⟩, hpublic, peerIdFromMultiaddr_peer front other⟩

variable (env)

/-- A saved peer is found if the variable names it, or its canonical address is public and fewer
    than a hundred records come before it. In either case the file keeps to its limit. -/
theorem saved_peer_found_iff (var : Option String) (file : CacheFile)
    (addr : { a : Multiaddr PeerId // isPublicAddr a = true }) (peer : PeerId) :
    ((∃ a ∈ env.loadBootstrapAddrs var (env.saveBootstrapPeerAddr file addr peer),
        env.peerIdFromMultiaddr a = some peer) ↔
      (∃ a ∈ env.envAddrs var, isPublicAddr a = true ∧ env.peerIdFromMultiaddr a = some peer) ∨
      (∃ a, env.parse (env.canonicalizeAddrForPeer addr peer) = some a ∧ isPublicAddr a = true) ∧
        (written file addr peer env).countP (fun r => r.peerId < env.peerText peer) < 100) ∧
    ∃ items, env.saveBootstrapPeerAddr file addr peer = .records items ∧ items.length ≤ 100 ∧
      (items.map (·.peerId)).Nodup := by
  obtain ⟨addr, hpublic⟩ := addr
  have hsave : env.saveBootstrapPeerAddr file addr peer
      = .records ((written file addr peer env).take 100) := if_pos hpublic
  have hsub : ((written file addr peer env).take 100).Sublist (written file addr peer env) :=
    take_sublist _ _
  have hdistinct : (((written file addr peer env).take 100).map (·.peerId)).Nodup :=
    (nodup_values _).sublist (hsub.map _)
  have hstable : ∀ r ∈ written file addr peer env, env.normalizeRecord r = some r := by
    intro r hr
    obtain ⟨r₀, hr₀, hnormal⟩ := (mem_normalizeRecords
      (fun r hr => (canonical_of_mem hr).named) (nodup_values _)).mp hr
    exact (canonical_of_mem hr₀).stable hnormal
  refine ⟨?_, _, hsave, length_take_le _ _, hdistinct⟩
  -- What is loaded comes from the variable or from the file that was just written.
  rw [loadBootstrapAddrs, mem_pushed, hsave, ← mem_written_iff file addr peer]
  simp only [mem_append, or_and_right, exists_or]
  rw [mem_cacheAddrs peer _ (fun r hr => canonical_of_mem (hsub.subset hr))
    (fun r hr => hstable r (hsub.subset hr)) hdistinct]
  refine or_congr_right ?_
  -- Records are in the order of names, so one is cut off exactly if a hundred come before it.
  have hsorted : (written file addr peer env).Pairwise fun a b => a.peerId < b.peerId :=
    sorted_values _
  constructor
  · rintro ⟨r, hr, hname⟩
    rw [mem_take_of_ascending hsorted] at hr
    exact ⟨⟨r, hr.1, hname⟩, hname ▸ hr.2⟩
  · rintro ⟨⟨r, hr, hname⟩, hcount⟩
    exact ⟨r, (mem_take_of_ascending hsorted 100).mpr ⟨hr, hname ▸ hcount⟩, hname⟩

/-- The canonical form keeps the route exactly if the address is routed, and normalising again
    changes nothing exactly if every address that is left is public and read from its own text. -/
theorem canonical_iff : (∀ addr peer,
      env.canonicalizeAddrForPeer addr peer = env.text (withPeer addr peer) ↔ env.Routed addr) ∧
    ∀ records, env.normalizeRecords (env.normalizeRecords records) = env.normalizeRecords records ↔
      ∀ r ∈ env.normalizeRecords records, ∃ addr, env.parse r.addr = some addr ∧
        isPublicAddr addr = true ∧ env.text addr = r.addr := by
  refine ⟨env.canonicalize_eq_iff, fun records => normalizeRecords_idem_iff.trans ?_⟩
  exact forall₂_congr fun r hr => (canonical_of_mem hr).stable_iff

end Addressing

/-! ### An Address by a Relay -/

def relayPeers : Bool → String
  | false => "QmYyQSo1c1Ym7orWxLYvCrM2EmxFTANf8wXmmE7DWjhx5N"
  | true => "QmcgpsyWgH8Y8ajJz1Cu72KnS5uo2Aa2LpzU7kinSupNKC"

/-- By a relay to a public address. -/
def relayed : Multiaddr Bool := [.p2p true, .other "p2p-circuit", .ip4 1 2 3 4]

def relayNaming : Naming Bool := ⟨relayPeers, fun _ => ""⟩

/-- Two addresses that can be read. -/
def relayEnv : Addressing Bool where
  toNaming := relayNaming
  parsePeer s := [false, true].find? fun peer => relayPeers peer = s
  parse s := [relayed, [.p2p false]].find? fun addr => relayNaming.text addr = s
  parsePeer_peerText := by decide +kernel
  peerText_plain := by decide +kernel
  parse_peer := by
    intro head peer addr hparse
    have hends : ∀ addr ∈ [relayed, [.p2p false]], ∀ peer,
        (relayNaming.suffix peer).toList.isSuffixOf (relayNaming.text addr).toList = true →
        addr.getLast? = some (.p2p peer) := by decide +kernel
    have htext : relayNaming.text addr = head ++ relayNaming.suffix peer := by
      simpa using find?_some hparse
    refine getLast?_eq_some_iff.mp (hends addr (mem_of_find?_eq_some hparse) peer ?_)
    rw [htext, toList_append]
    exact isSuffixOf_iff_suffix.mpr (suffix_append _ _)
  parse_text := by
    intro s addr hparse
    have htext : relayNaming.text addr = s := by simpa using find?_some hparse
    rw [htext]
    exact hparse

/-- The relay is gone, and with it the public address; normalised again, so is the record. -/
theorem relay_dropped :
    relayEnv.canonicalizeAddrForPeer relayed false = relayEnv.text [.p2p false] ∧
      relayEnv.normalizeRecords [⟨relayPeers false, relayEnv.text relayed⟩]
        = [⟨relayPeers false, relayEnv.text [.p2p false]⟩] ∧
      relayEnv.normalizeRecords [⟨relayPeers false, relayEnv.text [.p2p false]⟩] = [] := by
  decide +kernel

theorem saved_peer_lost :
    isPublicAddr relayed = true ∧
      relayEnv.loadBootstrapAddrs none (relayEnv.saveBootstrapPeerAddr .missing relayed false)
        = [] := by
  decide +kernel

end Bootstrap

end EssNode
