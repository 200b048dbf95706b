import EssNode.Node.Direct

/-!
# Authentic Votes

Which votes get on record in a run of incoming requests, and under whose
signature.

The handler checks a vote's signature with the key of the peer that sent it, and
it checks that the voter named in the vote is a supernode. It does not compare
the two. So what is known of a vote on record is that its *sender* signed it:
only when every vote that passes its signature check names its sender is each
vote on record signed by its voter. `borrowed_name_recorded` is a run in which a
peer that is no supernode puts a vote under the name of one.

The keys stay the same throughout a run of requests, so they are those of the
first node.
-/

namespace EssNode

open Authority Bincode Governance Option VoteMessage

/-- A request, the peer whose connection it came over, and what handling it
    draws. -/
structure Incoming where
  peer : String
  request : DirectRequest
  readings : Readings

namespace Node

variable (env : NodeEnv)

def receive (n : Node) (i : Incoming) : Node :=
  (n.onDirectRequest env i.readings i.peer i.request).node

def run (n : Node) (ins : List Incoming) : Node := ins.foldl (receive env) n

theorem run_singleton (n : Node) (i : Incoming) : n.run env [i] = n.receive env i := rfl

structure Accepts (n : Node) (i : Incoming) (vote : VoteMessage) : Prop where
  kind : RequestKind.ofText i.request.kind = .governanceVote
  carried : (n.handlerBody env i.peer i.request).bind codec.deserialize = some vote
  accepted : n.acceptsVote env i.peer vote = true

/-- A request makes the engine store a vote: the handler gets it as a vote,
    accepts it, and the engine records it. -/
structure Stores (n : Node) (i : Incoming) (vote : VoteMessage) : Prop where
  kind : RequestKind.ofText i.request.kind = .governanceVote
  carried : (n.handlerBody env i.peer i.request).bind codec.deserialize = some vote
  accepted : n.acceptsVote env i.peer vote = true
  recorded : (n.governanceEngine.recordVote (i.readings.clock 0) vote.proposalId vote.voter
    vote.approve).2 = .ok ()

variable {env}

variable {n : Node} {peer pid v : String} {i : Incoming} {vote : VoteMessage} {b : Bool}

theorem Effect.voteOf {rd : Readings} {m : Node} {body : List UInt8} {kind : RequestKind}
    (heff : Effect env rd n peer body kind m)
    (h : Governance.voteOf m.governanceEngine pid v = some b) :
    Governance.voteOf n.governanceEngine pid v = some b ∨
      ∃ vote, kind = .governanceVote ∧ codec.deserialize body = some vote ∧
        n.acceptsVote env peer vote = true ∧
        Recordable n.governanceEngine vote.proposalId vote.voter ∧
        vote.proposalId = pid ∧ vote.voter = v ∧ vote.approve = b := by
  cases heff with
  | aside _ hdata _ _ =>
    rw [hdata.governanceEngine] at h
    exact Or.inl h
  | merged _ _ _ _ _ => exact Or.inl h
  | notified _ _ _ => exact Or.inl h
  | stored _ _ _ => exact Or.inl h
  | announced announce _ _ _ => exact Or.inl (voteOf_createProposal h)
  | voted vote hkind hvote haccept =>
    rw [(applyVote_frame env rd n vote).1] at h
    rcases voteOf_castVote h with hold | ⟨hrec, hpid, hvoter, happrove⟩
    · exact Or.inl hold
    · exact Or.inr ⟨vote, hkind, hvote, haccept, hrec, hpid.symm, hvoter.symm, happrove.symm⟩

theorem receive_voteOf (h : Governance.voteOf (n.receive env i).governanceEngine pid v = some b) :
    Governance.voteOf n.governanceEngine pid v = some b ∨
      ∃ vote, Stores env n i vote ∧ vote.proposalId = pid ∧ vote.voter = v ∧
        vote.approve = b := by
  unfold receive at h
  rcases n.onDirectRequest_node env i.readings i.peer i.request with
    ⟨body, hbody, hnode⟩ | ⟨-, hsame, -⟩
  · rw [hnode] at h
    rcases (n.handleDirectRequest_effect env i.readings i.peer i.request body).voteOf h with
      hold | ⟨vote, hkind, hvote, haccept, hrec, hrest⟩
    · exact Or.inl hold
    · refine Or.inr ⟨vote, ⟨hkind, ?_, haccept, ?_⟩, hrest⟩
      · rw [hbody, bind_some, hvote]
      · exact (recordVote_eq_ok_iff _ _ _ _ _).mpr hrec
  · rw [hsame.governanceEngine] at h
    exact Or.inl h

theorem Accepts.receive
    (h : Accepts env n i vote) : n.receive env i = (n.applyVote env i.readings vote).1 := by
  rcases bind_eq_some_iff.mp h.carried with ⟨body, hbody, hvote⟩
  unfold Node.receive
  -- The vote was carried, so the request did get to the handler.
  rcases n.onDirectRequest_node env i.readings i.peer i.request with
    ⟨body', hbody', hnode⟩ | ⟨hnone, -, -⟩
  · rw [hbody, some.injEq] at hbody'
    rw [hnode, ← hbody', handleDirectRequest, h.kind]
    dsimp only [handleVote]
    rw [hvote]
    dsimp only
    rw [if_pos h.accepted]
  · rw [hbody] at hnone
    exact absurd hnone (by simp)

theorem Stores.voteOf (h : Stores env n i vote) :
    Governance.voteOf (n.receive env i).governanceEngine vote.proposalId vote.voter
      = some vote.approve := by
  have haccepts : Accepts env n i vote := ⟨h.kind, h.carried, h.accepted⟩
  have hrec := (recordVote_eq_ok_iff _ _ _ _ _).mp h.recorded
  rw [haccepts.receive, (applyVote_frame env i.readings n vote).1]
  exact voteOf_castVote_self hrec _ _ _ _

theorem receive_sameKeys (n : Node) (i : Incoming) :
    SecurityRuntime.SameKeys n.security (n.receive env i).security := by
  unfold receive
  rcases n.onDirectRequest_node env i.readings i.peer i.request with
    ⟨body, -, hnode⟩ | ⟨-, -, hsec⟩
  · rw [hnode]
    exact (n.handleDirectRequest_effect env i.readings i.peer i.request body).sameKeys
  · rw [hsec]
    exact .refl n.security

theorem run_sameKeys (n : Node) (ins : List Incoming) :
    SecurityRuntime.SameKeys n.security (n.run env ins).security := by
  induction ins generalizing n with
  | nil => exact .refl n.security
  | cons i ins ih => exact (receive_sameKeys n i).trans (ih (n.receive env i))

variable (env)

/-- A vote carries a signature made with the key registered for its voter. -/
def Authentic (Signed : PublicKey → List UInt8 → List UInt8 → Prop) (n : Node)
    (vote : VoteMessage) : Prop :=
  ∃ pk sig, n.security.peerPublicKeys[vote.voter]? = some pk ∧
    env.crypto.decodeBase64 vote.signature = .ok sig ∧ Signed pk (utf8 vote.payload) sig

/-- The body a request would hand to the handler if nothing stopped it. -/
def innerBody (request : DirectRequest) : Option (List UInt8) :=
  match EssRequest.codec.deserialize request.body with
  | some (.directRequest direct) => some direct.body
  | some (.onionRelay _) => none
  | none => some request.body

/-- If the request is a vote that passes its signature check, the vote names the
    peer that sent it. -/
def NamesSender (n : Node) (i : Incoming) : Prop :=
  ∀ vote, RequestKind.ofText i.request.kind = .governanceVote →
    (innerBody i.request).bind codec.deserialize = some vote →
    n.security.verifyGovernanceVote env.crypto vote i.peer = .ok () → vote.voter = i.peer

variable {env}

theorem innerBody_of_handlerBody {request : DirectRequest} {body : List UInt8}
    (h : n.handlerBody env peer request = some body) :
    innerBody request = some body := by
  unfold handlerBody at h
  unfold innerBody
  cases hess : EssRequest.codec.deserialize request.body with
  | some ess =>
    rw [hess] at h
    cases ess with
    | directRequest direct => exact h
    | onionRelay relay => exact h
  | none =>
    rw [hess] at h
    dsimp only at h ⊢
    split at h
    · exact h
    · exact absurd h (by simp)

theorem verify_of_acceptsVote (h : n.acceptsVote env peer vote = true) :
    n.security.verifyGovernanceVote env.crypto vote peer = .ok () := by
  unfold acceptsVote at h
  rw [Bool.and_eq_true] at h
  cases hverify : n.security.verifyGovernanceVote env.crypto vote peer with
  | ok u => rfl
  | error e =>
    rw [hverify] at h
    exact absurd h.1 (by simp [Except.isOk, Except.toBool])

theorem Stores.authentic {Signed : PublicKey → List UInt8 → List UInt8 → Prop}
    (hunforgeable : ∀ pk msg sig, env.crypto.verify pk msg sig = true → Signed pk msg sig)
    {m : Node} (hkeys : SecurityRuntime.SameKeys n.security m.security)
    (hnamed : NamesSender env n i) (h : Stores env m i vote) :
    Authentic env Signed n vote := by
  -- The check was made with the keys of the first node, which are still these.
  have hverify := verify_of_acceptsVote h.accepted
  rw [SecurityRuntime.verifyGovernanceVote_eq_ok_iff, hkeys.peerPublicKeys,
    ← SecurityRuntime.verifyGovernanceVote_eq_ok_iff] at hverify
  rcases bind_eq_some_iff.mp h.carried with ⟨body, hbody, hvote⟩
  have hsender : vote.voter = i.peer := by
    refine hnamed vote h.kind ?_ hverify
    rw [innerBody_of_handlerBody hbody, bind_some, hvote]
  rcases (SecurityRuntime.verifyGovernanceVote_eq_ok_iff vote i.peer).mp hverify with
    ⟨pk, sig, hpk, hsig, hok⟩
  refine ⟨pk, sig, ?_, hsig, hunforgeable pk _ sig hok⟩
  rw [hsender, hpk]

theorem run_voteOf {ins : List Incoming}
    (h : Governance.voteOf (n.run env ins).governanceEngine pid v = some b) :
    Governance.voteOf n.governanceEngine pid v = some b ∨
      ∃ before i after vote, ins = before ++ i :: after ∧ Stores env (n.run env before) i vote ∧
        vote.proposalId = pid ∧ vote.voter = v ∧ vote.approve = b := by
  -- Induction on the requests; the node is the one the first of them leaves.
  induction ins generalizing n with
  | nil => exact Or.inl h
  | cons i ins ih =>
    rcases ih h with hfirst | ⟨before, j, after, vote, hins, hstores, hrest⟩
    · rcases receive_voteOf hfirst with hold | ⟨vote, hstores, hrest⟩
      · exact Or.inl hold
      · exact Or.inr ⟨[], i, ins, vote, rfl, hstores, hrest⟩
    · -- A later step stores it; the run before it starts with this request.
      refine Or.inr ⟨i :: before, j, after, vote, ?_, hstores, hrest⟩
      rw [hins, List.cons_append]

/-- In a run whose votes name their senders, every vote the engine stores carries
    a signature made with its voter's registered key, and every vote on record
    was there before the run or is one of these. -/
theorem votes_authentic (env : NodeEnv) (Signed : PublicKey → List UInt8 → List UInt8 → Prop)
    (hunforgeable : ∀ pk msg sig, env.crypto.verify pk msg sig = true → Signed pk msg sig)
    (n : Node) (ins : List Incoming) (hnamed : ∀ i ∈ ins, NamesSender env n i) :
    (∀ before i after, ins = before ++ i :: after →
      ∀ vote, Stores env (n.run env before) i vote → Authentic env Signed n vote) ∧
    ∀ pid v b, Governance.voteOf (n.run env ins).governanceEngine pid v = some b →
      Governance.voteOf n.governanceEngine pid v = some b ∨
        ∃ before i after vote, ins = before ++ i :: after ∧
          Stores env (n.run env before) i vote ∧ Authentic env Signed n vote ∧
          vote.proposalId = pid ∧ vote.voter = v ∧ vote.approve = b := by
  have hstored : ∀ before i after, ins = before ++ i :: after →
      ∀ vote, Stores env (n.run env before) i vote → Authentic env Signed n vote := by
    intro before i after hins vote hstores
    have hmem : i ∈ ins := by
      rw [hins]
      simp
    exact hstores.authentic hunforgeable (run_sameKeys n before) (hnamed i hmem)
  refine ⟨hstored, ?_⟩
  intro pid v b hvote
  rcases run_voteOf hvote with hold | ⟨before, i, after, vote, hins, hstores, hrest⟩
  · exact Or.inl hold
  · exact Or.inr ⟨before, i, after, vote, hins, hstores, hstored before i after hins vote hstores,
      hrest⟩

/-- A stand-in for signatures: a key is its owner's name, and so is every
    signature made with it. Two base64 texts are known. -/
def nameCrypto : Crypto where
  verify pk _ sig := decide (sig = pk.bytes)
  sign _ := .ok (utf8 "node")
  decodeBase64 text :=
    if text = "bWFsbG9yeQ==" then .ok (utf8 "mallory")
    else if text = "c24x" then .ok (utf8 "sn1")
    else .error "Invalid symbol"
  encodeBase64 _ := "bm9kZQ=="

/-- A signature made with a key of the stand-in. -/
def SignedByName (pk : PublicKey) (_msg sig : List UInt8) : Prop := sig = pk.bytes

theorem signedByName_of_verify (pk : PublicKey) (msg sig : List UInt8)
    (h : nameCrypto.verify pk msg sig = true) : SignedByName pk msg sig := by
  simpa [nameCrypto, SignedByName] using h

/-- An environment around the stand-in, with nothing else in it. -/
def nameEnv : NodeEnv where
  crypto := nameCrypto
  crdt := ⟨id, fun _ => none⟩
  compute :=
    { sha256Hex := fun _ => "", isPublicKey := fun _ => false, isSignature := fun _ => false
      verify := fun _ _ _ => false, parsePeerId := some, parseMessage := fun _ => none
      messageJson := fun _ => none }
  syncPayload _ := []
  certJson _ := none
  bundleJson _ := .error "no bundle"
  encapsulate _ _ _ := .error "no key"
  peelOnionLayer _ := .error "no layer"

/-- All readings at one second. -/
def readingsAt (now : UInt64) : Readings where
  clock _ := now
  nonce _ := "nonce"
  uuid := "0002"
  random := []
  reply := ⟨now, "1"⟩
  secondReply := ⟨now, "2"⟩
  forward := ⟨now, "3"⟩

def ballotEngine : GovernanceEngine :=
  ((GovernanceEngine.new ["sn1", "sn2"] (2 / 3) 0).createProposal 0 0 "0001"
    (.activatePeer "mallory") "mallory").1

def ballotPid : String := "ActivatePeer(\"mallory\")-mallory-0001"

/-- A node that knows the keys of a supernode and of one other peer. -/
def ballotNode : Node where
  localPeerId := "node"
  security :=
    { localPeerId := "node", replayWindowSecs := 300, replaySeen := ∅
      peerPublicKeys :=
        ((∅ : FinMap String PublicKey).insert "mallory" ⟨utf8 "mallory"⟩).insert "sn1"
          ⟨utf8 "sn1"⟩
      authority := none, allowedActions := ∅ }
  securityAttached := true
  authority := some { supernodes := ["sn1", "sn2"], allowedPeers := ∅, policies := .default }
  reputation := ∅
  eventTx := none
  worldState := none
  governanceEngine := ballotEngine
  crdtWorld := none
  computeHandle := none
  computeStore := none
  dashboard := []

/-- An approval in the name of `sn1` under a signature. -/
def ballotVote (signature : String) : VoteMessage where
  proposalId := ballotPid
  voter := "sn1"
  approve := true
  nonce := "n-1"
  timestamp := 10
  signature := signature

/-- That vote, sent by a peer in a wrapped request. -/
def ballot (peer signature : String) : Incoming where
  peer := peer
  request :=
    { kind := "governance.vote"
      body := EssRequest.codec.serialize
        (.directRequest { body := codec.serialize (ballotVote signature) }) }
  readings := readingsAt 10

theorem ballotVote_fits {signature : String} (h : (utf8 signature).length < 256 ^ 8) :
    codec.Fits (ballotVote signature) := by
  have hpid : string.Fits ballotPid := string_fits (by decide)
  have hvoter : string.Fits "sn1" := string_fits (by decide)
  have hnonce : string.Fits "n-1" := string_fits (by decide)
  exact ⟨hpid, hvoter, bool_fits true, hnonce, u64_fits 10, string_fits h⟩

theorem ballot_carried {signature : String} (hsig : (utf8 signature).length < 256 ^ 8)
    (hbody : (codec.serialize (ballotVote signature)).length < 256 ^ 8) :
    (ballotNode.handlerBody nameEnv peer (ballot peer signature).request).bind
      codec.deserialize = some (ballotVote signature) := by
  rw [handlerBody_wrapped nameEnv ballotNode peer (ballot peer signature).request
    (DirectRequest.codec_fits_body hbody) rfl, bind_some]
  exact codec.deserialize_serialize (ballotVote_fits hsig)

/-- The supernode's own vote names its sender, is stored, and is authentic. -/
theorem own_name_authentic :
    (∀ i ∈ [ballot "sn1" "c24x"], NamesSender nameEnv ballotNode i) ∧
      Stores nameEnv ballotNode (ballot "sn1" "c24x") (ballotVote "c24x") ∧
      Authentic nameEnv SignedByName ballotNode (ballotVote "c24x") := by
  have hcarried : (ballotNode.handlerBody nameEnv "sn1" (ballot "sn1" "c24x").request).bind
      VoteMessage.codec.deserialize = some (ballotVote "c24x") :=
    ballot_carried (by decide) (by decide)
  have hnamed : ∀ i ∈ [ballot "sn1" "c24x"], NamesSender nameEnv ballotNode i := by
    intro i hi vote _ hvote _
    rw [List.mem_singleton] at hi
    rcases bind_eq_some_iff.mp hcarried with ⟨body, hbody, hdec⟩
    rw [hi, innerBody_of_handlerBody hbody, bind_some, hdec, some.injEq] at hvote
    rw [← hvote, hi]
    rfl
  have hstores : Stores nameEnv ballotNode (ballot "sn1" "c24x") (ballotVote "c24x") :=
    ⟨by decide, hcarried, by decide, by decide⟩
  refine ⟨hnamed, hstores, ?_⟩
  exact (votes_authentic nameEnv SignedByName signedByName_of_verify ballotNode
    [ballot "sn1" "c24x"] hnamed).1 [] _ [] rfl _ hstores

/-- A vote in the name of a supernode, sent and signed by another peer, is stored
    and on record. Verification admits only signatures that were made, and the
    supernode made none. -/
theorem borrowed_name_recorded :
    (∀ pk msg sig, nameEnv.crypto.verify pk msg sig = true → SignedByName pk msg sig) ∧
      Stores nameEnv ballotNode (ballot "mallory" "bWFsbG9yeQ==") (ballotVote "bWFsbG9yeQ==") ∧
      Governance.voteOf (ballotNode.run nameEnv [ballot "mallory" "bWFsbG9yeQ=="]).governanceEngine
        ballotPid "sn1" = some true ∧
      ¬ Authentic nameEnv SignedByName ballotNode (ballotVote "bWFsbG9yeQ==") := by
  have hstores : Stores nameEnv ballotNode (ballot "mallory" "bWFsbG9yeQ==")
      (ballotVote "bWFsbG9yeQ==") :=
    ⟨by decide, ballot_carried (by decide) (by decide), by decide, by decide⟩
  have hrecord := hstores.voteOf
  rw [show (ballotVote "bWFsbG9yeQ==").proposalId = ballotPid from rfl,
    show (ballotVote "bWFsbG9yeQ==").voter = "sn1" from rfl,
    show (ballotVote "bWFsbG9yeQ==").approve = true from rfl, ← run_singleton] at hrecord
  refine ⟨signedByName_of_verify, hstores, hrecord, ?_⟩
  intro hauth
  rcases hauth with ⟨pk, sig, hpk, hsig, hsigned⟩
  -- The key is the supernode's, the signature the other peer's.
  have hkey : ballotNode.security.peerPublicKeys["sn1"]? = some ⟨utf8 "sn1"⟩ := by decide
  have hmade : nameEnv.crypto.decodeBase64 "bWFsbG9yeQ==" = .ok (utf8 "mallory") := by decide
  have hsame : utf8 "mallory" = utf8 "sn1" := by
    rw [show (ballotVote "bWFsbG9yeQ==").voter = "sn1" from rfl, hkey, some.injEq] at hpk
    rw [show (ballotVote "bWFsbG9yeQ==").signature = "bWFsbG9yeQ==" from rfl, hmade,
      Except.ok.injEq] at hsig
    rw [hsig, hsigned, ← hpk]
  exact absurd hsame (by decide)

end Node

end EssNode
