import EssNode.Security.Formats

/-!
# Rejected Messages

Which messages a check has to reject because of the peers they name, and what a rejection leaves
behind.

A check compares the sender and the addressee of a message with the peer it came from and with
the node, so what is accepted is bound to both (`addressed_of_accepted`). Gateway and web
requests are the exception: what they name is signed but never compared, and a request that one
node accepts is accepted by every other that knows the key (`accepted_anywhere_iff`).

A nonce is recorded by the freshness check, which comes first. When the key, the signature or
the names are then found wrong the nonce stays recorded, and the peer cannot use it in a good
message until it is forgotten. That is the only trace: a message with the nonce that would have
been accepted is accepted exactly if more than a window has passed
(`accepted_after_rejected_iff`). Calls in between are free, as long as the trace does not let
one of the peer's own pass that would have been refused (`Follows`).

One more bucket can make all of them be cleaned earlier, so the two runs of that theorem are
compared by what is still in the window at the end (`Shadows`).
-/

namespace EssNode

open Bincode

namespace SignedMessage

/-- The peer that a message says it is from. -/
def sender : SignedMessage → String
  | request req => req.sender
  | response resp => resp.sender
  | responseBytes resp => resp.sender
  | configRequest req => req.sender
  | configResponse resp => resp.sender
  | gatewayRequest req => req.sender
  | gatewayResponse resp => resp.sender
  | webRequest req => req.sender
  | webResponse resp => resp.sender

/-- The peer that a message says it is for. -/
def recipient : SignedMessage → String
  | request req => req.recipient
  | response resp => resp.recipient
  | responseBytes resp => resp.recipient
  | configRequest req => req.recipient
  | configResponse resp => resp.recipient
  | gatewayRequest req => req.recipient
  | gatewayResponse resp => resp.recipient
  | webRequest req => req.recipient
  | webResponse resp => resp.recipient

theorem names_eq (m : SignedMessage) :
    m.names = if m.type = .gatewayRequest ∨ m.type = .webRequest then none
      else some (m.sender, m.recipient) := by
  cases m <;> rfl

end SignedMessage

namespace Call

variable {crypto : Crypto} {fromJson : String → Except String ConfigBundle} {s : SecurityRuntime}

/-- What is accepted is for the node and from the peer it came from, unless it is a
    request to a gateway or for a page. -/
theorem addressed_of_accepted {c : Call} (hgateway : c.message.type ≠ .gatewayRequest)
    (hweb : c.message.type ≠ .webRequest) (h : c.Accepted crypto fromJson s) :
    c.message.recipient = c.localPeer ∧ c.message.sender = c.remote := by
  rcases h with ⟨r, hr⟩
  have hnames := ((SecurityRuntime.verifyMessage_eq_ok_iff c.message r).mp hr).1.names
  have heq := hnames (c.message.sender, c.message.recipient) (by
    rw [SignedMessage.names_eq, if_neg (not_or.mpr ⟨hgateway, hweb⟩)])
  rw [Prod.mk.injEq] at heq
  exact ⟨heq.2, heq.1⟩

/-- A request to a gateway or for a page is accepted by a node of any name. -/
theorem accepted_anywhere_iff {c : Call}
    (h : c.message.type = .gatewayRequest ∨ c.message.type = .webRequest) (other : String) :
    Accepted crypto fromJson s { c with localPeer := other } ↔ c.Accepted crypto fromJson s := by
  have hnone : c.message.names = none := by rw [SignedMessage.names_eq, if_pos h]
  have hpasses (name name' : String)
      (hp : s.Passes crypto c.now₁ c.now₂ name c.remote c.message) :
      s.Passes crypto c.now₁ c.now₂ name' c.remote c.message :=
    ⟨hp.fresh, fun names hnames => absurd (hnone.symm.trans hnames) (by simp), hp.signed⟩
  refine exists_congr (fun r => ?_)
  rw [verify, verify, SecurityRuntime.verifyMessage_eq_ok_iff,
    SecurityRuntime.verifyMessage_eq_ok_iff]
  exact and_congr_left' ⟨hpasses _ _, hpasses _ _⟩

end Call

/-- A signed request for the configuration. -/
def signedConfigAsk : ConfigRequest :=
  { configAsk 1000 "n" with
    signature := Base64.encode (utf8 "key" ++ (configAsk 1000 "n").signingBytes) }

/-- A signed request to a gateway from one peer to another. -/
def strayGet : GatewayRequest :=
  let req : GatewayRequest :=
    { messageId := "gw-1", sender := "other", recipient := "elsewhere", method := "GET", url := "/"
      nonce := "n", ts := 1000 }
  { req with signature := Base64.encode (utf8 "key" ++ req.signingBytes req.body) }

theorem signedConfigAsk_accepted :
    (callAt 1000 (.configRequest signedConfigAsk)).Accepted (tagCrypto "key") (fun _ => .error "")
      tagRuntime := by
  have hkey : tagRuntime.peerPublicKeys["peer"]? = some ⟨utf8 "key"⟩ := by decide +kernel
  exact accepted_of_tag (by decide +kernel) (fun _ h => (Option.some.inj h).symm) hkey rfl rfl

theorem signedConfigAsk_addressed :
    (SignedMessage.configRequest signedConfigAsk).recipient = "node" ∧
      (SignedMessage.configRequest signedConfigAsk).sender = "peer" :=
  Call.addressed_of_accepted (c := callAt 1000 (.configRequest signedConfigAsk)) (by decide)
    (by decide) signedConfigAsk_accepted

/-- A request to a gateway that names neither the node nor the peer it came from is
    accepted, and so is its copy for a page. -/
theorem stray_requests_accepted :
    let get := SignedMessage.gatewayRequest strayGet
    let web := SignedMessage.webRequest strayGet.asWeb
    get.recipient ≠ "node" ∧ get.sender ≠ "peer" ∧
      (callAt 1000 get).Accepted (tagCrypto "key") (fun _ => .error "") tagRuntime ∧
      web.recipient ≠ "node" ∧ web.sender ≠ "peer" ∧
      (callAt 1000 web).Accepted (tagCrypto "key") (fun _ => .error "") tagRuntime := by
  have hfresh : (tagRuntime.checkCommon 1000 1000 "peer" 1000 "n").2 = .ok () := by decide +kernel
  have hkey : tagRuntime.peerPublicKeys["peer"]? = some ⟨utf8 "key"⟩ := by decide +kernel
  refine ⟨by decide, by decide, ?_, by decide, by decide, ?_⟩
  · exact accepted_of_tag hfresh nofun hkey rfl rfl
  · exact accepted_of_tag hfresh nofun hkey rfl rfl

/-- The errors that blame the key, the signature or the names. A bundle that cannot be
    read counts with the signatures that cannot. -/
def SecurityError.Blames : SecurityError → Prop
  | .unknownPeerKey | .badPeerIdentity | .badSignature | .decodeError _ => True
  | .timestampOutOfWindow | .replayDetected | .cryptoError _ => False

namespace SecurityRuntime

variable {crypto : Crypto} {fromJson : String → Except String ConfigBundle} {s : SecurityRuntime}
  {now₁ now₂ : UInt64} {localPeer remote : String}

theorem verifyMessage_of_not_fresh {m : SignedMessage} {e : SecurityError}
    (h : (s.checkCommon now₁ now₂ remote m.ts m.nonce).2 = .error e) :
    (s.verifyMessage crypto fromJson now₁ now₂ localPeer remote m).2 = .error e := by
  have hwith {α : Type} (check : SecurityRuntime → Except SecurityError α) :
      (s.verifyWith now₁ now₂ remote m.ts m.nonce check).2 = .error e := by
    simp only [verifyWith, h]
    rfl
  have hread {α : Type} {x : SecurityRuntime × Except SecurityError α} {read : α → Received}
      (hx : x.2 = .error e) : (x.map id (·.map read)).2 = .error e := by
    rw [Prod.map_snd, hx]
    rfl
  cases m <;> exact hread (hwith _)

variable {peer nonce p x : String} {ts t : UInt64}

/-- Nothing of a peer was recorded later than a time. -/
def RecordedBy (s : SecurityRuntime) (p : String) (now : UInt64) : Prop :=
  ∀ x t, s.seenAt p x = some t → t ≤ now

/-- Whatever `s'` remembers of a peer that is in the window at `last`, `s` remembers as
    well, apart from one nonce recorded at one time. -/
def Shadows (s s' : SecurityRuntime) (p nonce : String) (now last : UInt64) : Prop :=
  ∀ x t, s'.seenAt p x = some t → absDiff last t ≤ s.replayWindowSecs →
    s.seenAt p x = some t ∨ (nonce = x ∧ now = t)

end SecurityRuntime

namespace Call

open SecurityRuntime

variable {crypto : Crypto} {fromJson : String → Except String ConfigBundle}
  {s s' : SecurityRuntime} {p nonce : String} {first now last : UInt64} {c : Call}

/-- A call fails and blames the key, the signature or the names. -/
def Rejected (crypto : Crypto) (fromJson : String → Except String ConfigBundle)
    (s : SecurityRuntime) (c : Call) : Prop :=
  ∃ e, (c.verify crypto fromJson s).2 = .error e ∧ e.Blames

theorem verify_fst (c : Call) :
    (c.verify crypto fromJson s).1
      = (s.checkCommon c.now₁ c.now₂ c.remote c.message.ts c.message.nonce).1 :=
  verifyMessage_fst c.message

theorem verify_sameKeys (c : Call) : SameKeys s (c.verify crypto fromJson s).1 := by
  rw [verify_fst]
  exact checkCommon_sameKeys s _ _ _ _ _

theorem Rejected.passesCommon (h : c.Rejected crypto fromJson s) : c.PassesCommon s := by
  rcases h with ⟨e, herror, hblames⟩
  -- An error of the freshness check would have been the error of the call.
  have hsame {e' : SecurityError}
      (h : (s.checkCommon c.now₁ c.now₂ c.remote c.message.ts c.message.nonce).2 = .error e') :
      e' = e := by
    have hstale : (c.verify crypto fromJson s).2 = .error e' := verifyMessage_of_not_fresh h
    exact Except.error.inj (hstale.symm.trans herror)
  rcases s.checkCommon_cases c.now₁ c.now₂ c.remote c.message.ts c.message.nonce with
    ⟨-, hres⟩ | ⟨-, -, hres⟩ | ⟨-, -, -, hres⟩
  · obtain rfl := hsame (congrArg Prod.snd hres)
    exact hblames.elim
  · obtain rfl := hsame (congrArg Prod.snd hres)
    exact hblames.elim
  · exact congrArg Prod.snd hres

theorem Accepted.of_passesCommon (h : c.Accepted crypto fromJson s)
    (hkeys : s'.peerPublicKeys = s.peerPublicKeys) (hfresh : c.PassesCommon s') :
    c.Accepted crypto fromJson s' := by
  rcases h with ⟨r, hr⟩
  rcases (verifyMessage_eq_ok_iff c.message r).mp hr with ⟨hpasses, hcontents⟩
  refine ⟨r, (verifyMessage_eq_ok_iff c.message r).mpr ⟨⟨hfresh, hpasses.names, ?_⟩, hcontents⟩⟩
  rw [hkeys]
  exact hpasses.signed

theorem recordedBy_verify (hnow : now ≤ c.now₂) (h : s.RecordedBy p now) :
    (c.verify crypto fromJson s).1.RecordedBy p c.now₂ := by
  intro x t hseen
  rw [verify_fst] at hseen
  rcases seenAt_of_checkCommon hseen with hbefore | ⟨-, -, -, rfl⟩
  · exact UInt64.le_trans (h x t hbefore) hnow
  · exact UInt64.le_refl _

/-- Along a run, the calls of a peer that pass beside `s'` pass beside `s`. -/
def Follows (crypto : Crypto) (fromJson : String → Except String ConfigBundle) (p : String) :
    SecurityRuntime → SecurityRuntime → List Call → Prop
  | _, _, [] => True
  | s, s', c :: calls =>
    (c.remote = p → c.PassesCommon s' → c.PassesCommon s) ∧
      Follows crypto fromJson p (c.verify crypto fromJson s).1 (c.verify crypto fromJson s').1
        calls

/-- A call keeps the comparison, if it is made between the time up to which the peer's
    nonces were recorded and the last time, and does not pass beside `s'` alone. -/
theorem shadows_verify (hfollows : c.remote = p → c.PassesCommon s' → c.PassesCommon s)
    (hpast : s.RecordedBy p now) (hnow : now ≤ c.now₂) (hlast : c.now₂ ≤ last)
    (h : s.Shadows s' p nonce first last) :
    (c.verify crypto fromJson s).1.Shadows (c.verify crypto fromJson s').1 p nonce first last := by
  intro x t hseen hwindow
  rw [(verify_sameKeys c).replayWindowSecs] at hwindow
  rw [verify_fst] at hseen ⊢
  rcases seenAt_of_checkCommon hseen with hbefore | ⟨hpass, hpeer, rfl, rfl⟩
  · rcases h x t hbefore hwindow with hsame | hnonce
    · -- Recorded in the past and in the window at the end, so in the window now.
      refine Or.inl (seenAt_checkCommon hsame ?_)
      have ht := UInt64.le_iff_toNat_le.mp (hpast x t hsame)
      rw [UInt64.le_iff_toNat_le] at hnow hlast
      rw [absDiff_le_iff] at hwindow ⊢
      omega
    · exact Or.inr hnonce
  · -- Recorded just now, on both sides.
    rw [← hpeer]
    exact Or.inl (seenAt_of_passes (hfollows hpeer hpass))

theorem shadows_after (calls : List Call) (hclock : calls.Pairwise fun c e => c.now₂ ≤ e.now₂)
    (htimes : ∀ c ∈ calls, now ≤ c.now₂ ∧ c.now₂ ≤ last)
    (hfollows : Follows crypto fromJson p s s' calls) (hpast : s.RecordedBy p now)
    (h : s.Shadows s' p nonce first last) :
    (s.after crypto fromJson calls).Shadows (s'.after crypto fromJson calls) p nonce first
      last := by
  induction calls generalizing s s' now with
  | nil => exact h
  | cons c calls ih =>
    rcases List.pairwise_cons.mp hclock with ⟨hfirst, hrest⟩
    have htime := htimes c (by simp)
    refine ih hrest (fun e he => ⟨hfirst e he, (htimes e (by simp [he])).2⟩) hfollows.2
      (recordedBy_verify htime.1 hpast) ?_
    exact shadows_verify hfollows.1 hpast htime.1 htime.2 h

theorem InOrder.secondReadings {calls : List Call} (h : InOrder calls) :
    calls.Pairwise fun c e => c.now₂ ≤ e.now₂ :=
  (List.pairwise_flatMap.mp h).2.imp fun hce => hce _ (by simp) _ (by simp)

theorem passesCommon_of_shadows (hwindow : s'.replayWindowSecs = s.replayWindowSecs)
    (hlate : now.toNat + s.replayWindowSecs.toNat < c.now₂.toNat)
    (h : s.Shadows s' c.remote nonce now c.now₂) (hpass : c.PassesCommon s) :
    c.PassesCommon s' := by
  have hkept : ∀ (x : String) (t : UInt64), (s'.keptNonces c.now₂ c.remote)[x]? = some t →
      (s.keptNonces c.now₂ c.remote)[x]? = some t := by
    intro x t ht
    rw [find_keptNonces_iff, hwindow] at ht
    rcases h x t ht.1 ht.2 with hseen | ⟨-, rfl⟩
    · exact find_keptNonces_iff.mpr ⟨hseen, ht.2⟩
    · have hnear := (absDiff_le_iff _ _ _).mp ht.2
      omega
  -- Fewer nonces are kept beside `s'`, so there is room and the nonce is new.
  rcases checkCommon_eq_ok_iff.mp hpass with ⟨htime, hnew, hroom⟩
  refine checkCommon_eq_ok_iff.mpr ⟨by rwa [hwindow], ?_, ?_⟩
  · rw [Std.ExtTreeMap.contains_eq_isSome_getElem?, Option.isSome_eq_false_iff,
      Option.isNone_iff_eq_none] at hnew ⊢
    refine Option.eq_none_iff_forall_ne_some.mpr (fun t ht => ?_)
    rw [hkept _ t ht] at hnew
    cases hnew
  · exact Nat.lt_of_le_of_lt (FinMap.size_le_of_find hkept) hroom

/-- A nonce that was rejected can be used again when more than a window has passed, and
    not before: of two runs, one with a rejected call and one without it, a message with
    its nonce that is accepted in the second is accepted in the first exactly then. -/
theorem accepted_after_rejected_iff {c c' : Call} {between : List Call}
    (hclock : InOrder (c :: between ++ [c'])) (hpast : s.RecordedBy c.remote c.now₂)
    (hfollows : Follows crypto fromJson c.remote s (c.verify crypto fromJson s).1 between)
    (hpeer : c'.remote = c.remote) (hnonce : c'.message.nonce = c.message.nonce)
    (hrejected : c.Rejected crypto fromJson s)
    (haccepted : c'.Accepted crypto fromJson (s.after crypto fromJson between)) :
    c'.Accepted crypto fromJson (s.after crypto fromJson (c :: between)) ↔
      c.now₂.toNat + s.replayWindowSecs.toNat < c'.now₂.toNat := by
  have hrun : InOrder ([] ++ c :: between ++ c' :: []) := hclock
  constructor
  · intro h
    exact replayed_late hrun hpeer hnonce hrejected.passesCommon h.passesCommon
  · intro hlate
    have hkeys : SameKeys s (s.after crypto fromJson between) := after_sameKeys between
    have hkeys' : SameKeys s (s.after crypto fromJson (c :: between)) := after_sameKeys _
    -- The rejected call leaves its nonce and nothing else.
    have hfirst : s.Shadows (c.verify crypto fromJson s).1 c'.remote c.message.nonce c.now₂
        c'.now₂ := by
      intro x t hseen _
      rw [verify_fst] at hseen
      exact (seenAt_of_checkCommon hseen).imp_right fun h => ⟨h.2.2.1, h.2.2.2⟩
    rw [← hpeer] at hfollows hpast
    have hreadings := (List.pairwise_append.mp hclock.secondReadings).1.of_cons
    have hlast : (s.after crypto fromJson between).Shadows (s.after crypto fromJson (c :: between))
        c'.remote c.message.nonce c.now₂ c'.now₂ :=
      shadows_after between hreadings hrun.between.2.2 hfollows hpast hfirst
    have hwindow := hkeys'.replayWindowSecs.trans hkeys.replayWindowSecs.symm
    refine haccepted.of_passesCommon (hkeys'.peerPublicKeys.trans hkeys.peerPublicKeys.symm) ?_
    refine passesCommon_of_shadows hwindow ?_ hlast haccepted.passesCommon
    rwa [hkeys.replayWindowSecs]

end Call

/-- A request to a gateway that is not signed. -/
def unsignedGet (nonce : String) : GatewayRequest := { signedGet 1000 nonce with signature := "" }

theorem unsignedGet_refused :
    ((callAt 1000 (.gatewayRequest (unsignedGet "n"))).verify (tagCrypto "key") (fun _ => .error "")
      tagRuntime).2 = .error .badSignature := by
  decide +kernel

/-- The nonce is free again after the window, with another request of the peer in
    between. -/
theorem nonce_free_after_window :
    (callAt 1301 (.gatewayRequest (signedGet 1301 "n"))).Accepted (tagCrypto "key")
      (fun _ => .error "") (tagRuntime.after (tagCrypto "key") (fun _ => .error "")
        [callAt 1000 (.gatewayRequest (unsignedGet "n")),
         callAt 1100 (.gatewayRequest (signedGet 1100 "m"))]) := by
  have hclock : Call.InOrder (callAt 1000 (.gatewayRequest (unsignedGet "n")) ::
      [callAt 1100 (.gatewayRequest (signedGet 1100 "m"))] ++
      [callAt 1301 (.gatewayRequest (signedGet 1301 "n"))]) := by decide +kernel
  have hpast : tagRuntime.RecordedBy "peer" 1000 := by
    intro x t h
    exact absurd h (by simp [SecurityRuntime.seenAt, tagRuntime])
  have hpasses : (callAt 1100 (.gatewayRequest (signedGet 1100 "m"))).PassesCommon tagRuntime := by
    decide +kernel
  have hkey : ((tagRuntime.after (tagCrypto "key") (fun _ => .error "")
      [callAt 1100 (.gatewayRequest (signedGet 1100 "m"))]).peerPublicKeys)["peer"]? =
        some ⟨utf8 "key"⟩ := by
    rw [(Call.after_sameKeys _).peerPublicKeys]
    decide +kernel
  exact (Call.accepted_after_rejected_iff hclock hpast ⟨fun _ _ => hpasses, trivial⟩ rfl rfl
    ⟨_, unsignedGet_refused, trivial⟩ (signedGet_accepted hkey (by decide +kernel))).mpr (by decide)

/-- A request without a signature uses up its nonce: the peer's signed request with it,
    which would have been accepted, is refused. -/
theorem rejected_nonce_refused :
    let c := callAt 1000 (.gatewayRequest (unsignedGet "n"))
    let c' := callAt 1000 (.gatewayRequest (signedGet 1000 "n"))
    (c.verify (tagCrypto "key") (fun _ => .error "") tagRuntime).2 = .error .badSignature ∧
      c'.Accepted (tagCrypto "key") (fun _ => .error "") tagRuntime ∧
      ¬ c'.Accepted (tagCrypto "key") (fun _ => .error "")
        (c.verify (tagCrypto "key") (fun _ => .error "") tagRuntime).1 := by
  refine ⟨unsignedGet_refused, signedGet_accepted (by decide +kernel) (by decide +kernel), ?_⟩
  intro h
  exact absurd h.passesCommon (by decide +kernel)

end EssNode
