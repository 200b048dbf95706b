import EssNode.Crdt.WorldState
import EssNode.Lib.Bincode

/-!
# Reading Synchronised States

How a world state is read from the bytes another node sent. The audit chain is
not part of the bytes: a state that was received starts with an empty one.

The payload is either a message with the sender's name and a time around the
state, or the bare state; the first is tried first.
-/

namespace EssNode

namespace Crdt

open Bincode

/-- Times and counts are 64-bit words. -/
def decodeNat64 : Decoder Nat := (word 8).decode

def decodeRegister : Decoder (LwwRegister String) := do
  let value ← string.decode
  let ts ← decodeNat64
  let nodeId ← string.decode
  pure ⟨value, ts, nodeId⟩

def decodeTags : Decoder (Finset UInt64) := do
  let n ← (word 8).decode
  let tags ← Codec.decodeN u64.decode n
  pure tags.toFinset

def decodePeerEntry : Decoder PeerEntry := do
  let peerId ← string.decode
  let role ← string.decode
  let connected ← Bincode.bool.decode
  let trusted ← Bincode.bool.decode
  let reputationScore ← u32.decode
  let lastSeen ← decodeNat64
  pure ⟨peerId, role, connected, trusted, reputationScore, lastSeen⟩

def decodeWorldState : Decoder CrdtWorldState := do
  let nodeId ← string.decode
  let vectorClock ← decodeMap string.decode decodeNat64
  let peers ← decodeMap string.decode (do pure (← decodePeerEntry, ← decodeNat64))
  let knownPeerIds ← decodeMap string.decode decodeNat64
  let networkStatus ← decodeRegister
  let ghostState ← decodeRegister
  let counters ← decodeMap string.decode decodeNat64
  let entries ← decodeMap string.decode decodeTags
  let removed ← decodeTags
  pure ⟨nodeId, vectorClock, ⟨peers⟩, ⟨knownPeerIds⟩, networkStatus, ghostState, ⟨counters⟩,
    ⟨entries, removed⟩, MerkleDag.new⟩

/-- The state inside a synchronisation message, after its sender's name and
    before its time. -/
def decodeSyncMessage : Decoder CrdtWorldState := do
  let _fromNode ← string.decode
  let state ← decodeWorldState
  let _ts ← decodeNat64
  pure state

/-- The state in a payload, wrapped or bare. -/
def readSyncPayload (body : List UInt8) : Option CrdtWorldState :=
  ((decodeSyncMessage body).map Prod.fst).or ((decodeWorldState body).map Prod.fst)

theorem merge_ne (env : CrdtEnv) (now : Nat) (self other : CrdtWorldState) :
    CrdtWorldState.merge env now self other ≠ self := by
  intro h
  have hidx : self.dag.nextIndex + 1 = self.dag.nextIndex :=
    congrArg (fun s => s.dag.nextIndex) h
  omega

end Crdt

end EssNode
