import CaManager.Discovery.Probe

/-!
# Which addresses a scan reaches

A scan is not to reach addresses that are blocked, and the addresses of the machine itself, of its
link, of groups, and of the metadata of a cloud are to be blocked. The first holds of targets that
are addresses, and of every network; of a name it holds unless the check is answered with another
address than the connection. Of the second, the check misses the unspecified address and metadata
addresses beyond the link.
-/

namespace CaManager

open Library

namespace DiscoveryService

def cloudMetadata : List IpAddress :=
  [.v4 0xa9fea9fe, .v4 0x646464c8, .v6 0xfd000ec2000000000000000000000254,
    .v6 0xfd2000ce000000000000000000000254]

def OffLimits (a : IpAddress) : Prop :=
  a.isLoopback true = true ∨ a.isLinkLocal true = true ∨ a.isUnspecified true = true ∨
    a.isMulticast true = true ∨ a.unmapped ∈ cloudMetadata

def missedAddresses : List IpAddress :=
  [.v4 0, .v4 0x646464c8, .v6 0xfd000ec2000000000000000000000254,
    .v6 0xfd2000ce000000000000000000000254]

/-- The check misses an address, and what stands for it if the library looks through that. -/
def Missed (followsMapped : Bool) (a : IpAddress) : Prop :=
  a.unmapped ∈ missedAddresses ∧ (followsMapped = true ∨ a.unmapped = a)

section Classification

variable {followsMapped : Bool} {a : IPv6Address} {b : IPv4Address}

theorem not_blocked6_of_mapped (h : ipv4Mapped a = some b) :
    (blockedNetworks6.any fun n => n.contains a) = false := by
  unfold ipv4Mapped at h
  split_ifs at h with hmapped
  rw [← Bool.not_eq_true, List.any_eq_true]
  rintro ⟨n, hn, hcontains⟩
  rw [IpNetwork.contains_iff] at hcontains
  unfold blockedNetworks6 at hn
  rcases List.mem_cons.mp hn with rfl | hn
  · change a.toNat / 2 ^ 0 = 1 at hcontains
    omega
  rcases List.mem_cons.mp hn with rfl | hn
  · change a.toNat / 2 ^ 118 = 0x3fa at hcontains
    omega
  rw [List.mem_singleton] at hn
  subst hn
  change a.toNat / 2 ^ 120 = 0xff at hcontains
  omega

theorem isBlockedAddress_v4 : isBlockedAddress followsMapped (.v4 b) =
    blockedNetworks.any fun n => n.contains b := by
  unfold isBlockedAddress IpAddress.isLoopback IpAddress.isLinkLocal IpAddress.isMulticast
    IpAddress.isReserved blockedNetworks
  simp only [IpAddress.property_v4, List.any_cons, List.any_nil, Bool.or_false, Bool.or_assoc]
  generalize IpNetwork.contains _ b = loopback
  generalize IpNetwork.contains _ b = linkLocal
  generalize IpNetwork.contains _ b = multicast
  generalize IpNetwork.contains _ b = reserved
  revert loopback linkLocal multicast reserved
  decide

theorem isBlockedAddress_of_mapped (h : ipv4Mapped a = some b) :
    isBlockedAddress followsMapped (.v6 a) =
      (!followsMapped || isBlockedAddress followsMapped (.v4 b)) := by
  cases followsMapped with
  | false =>
    unfold isBlockedAddress
    rw [IpAddress.isReserved_of_mapped h]
    simp
  | true =>
    rw [isBlockedAddress_v4]
    unfold isBlockedAddress IpAddress.isLoopback IpAddress.isLinkLocal IpAddress.isMulticast
      IpAddress.isReserved blockedNetworks
    simp [IpAddress.property_of_mapped h, not_blocked6_of_mapped h, Bool.or_assoc]

theorem isBlockedAddress_v4_iff (h : OffLimits (.v4 b)) :
    isBlockedAddress followsMapped (.v4 b) = true ↔ IpAddress.v4 b ∉ missedAddresses := by
  rw [isBlockedAddress_v4]
  constructor
  · intro hblocked hmissed
    unfold missedAddresses at hmissed
    simp only [List.mem_cons, IpAddress.v4.injEq, reduceCtorEq, List.not_mem_nil, or_false]
      at hmissed
    rcases hmissed with rfl | rfl
    · exact absurd hblocked (by decide)
    · exact absurd hblocked (by decide)
  · intro hmissed
    rcases h with h | h | h | h | h
    · exact List.any_eq_true.mpr ⟨_, List.mem_cons_self, h⟩
    · exact List.any_eq_true.mpr ⟨_, List.mem_cons_of_mem _ List.mem_cons_self, h⟩
    · have hzero : b = 0 := by simpa [IpAddress.isUnspecified] using h
      subst hzero
      exact absurd List.mem_cons_self hmissed
    · exact List.any_eq_true.mpr
        ⟨_, List.mem_cons_of_mem _ (List.mem_cons_of_mem _ List.mem_cons_self), h⟩
    · change IpAddress.v4 b ∈ cloudMetadata at h
      unfold cloudMetadata at h
      rcases List.mem_cons.mp h with h | h
      · cases h
        decide
      · exact absurd (List.mem_cons_of_mem _ h) hmissed

theorem isBlockedAddress_v6_iff (hself : ipv4Mapped a = none) (h : OffLimits (.v6 a)) :
    isBlockedAddress followsMapped (.v6 a) = true ↔ IpAddress.v6 a ∉ missedAddresses := by
  have hblocked (hany : IpAddress.isLoopback followsMapped (.v6 a) = true ∨
      IpAddress.isLinkLocal followsMapped (.v6 a) = true ∨
      IpAddress.isMulticast followsMapped (.v6 a) = true ∨
      IpAddress.isReserved followsMapped (.v6 a) = true) :
      isBlockedAddress followsMapped (.v6 a) = true := by
    unfold isBlockedAddress
    rcases hany with h | h | h | h <;> simp [h]
  have hproperty (p : IPv4Address → Bool) (q : IPv6Address → Bool) (f g : Bool) :
      IpAddress.property f p q (.v6 a) = IpAddress.property g p q (.v6 a) := by
    rw [IpAddress.property_of_not_mapped hself, IpAddress.property_of_not_mapped hself]
  constructor
  · intro hblocked hmissed
    unfold missedAddresses at hmissed
    simp only [List.mem_cons, IpAddress.v6.injEq, reduceCtorEq, List.not_mem_nil, or_false,
      false_or] at hmissed
    rcases hmissed with rfl | rfl
    · cases followsMapped <;> exact absurd hblocked (by decide)
    · cases followsMapped <;> exact absurd hblocked (by decide)
  · intro hmissed
    rcases h with h | h | h | h | h
    · exact hblocked (.inl ((hproperty _ _ _ _).trans h))
    · exact hblocked (.inr (.inl ((hproperty _ _ _ _).trans h)))
    · have hzero : a = 0 := by
        simpa [IpAddress.isUnspecified, IpAddress.property_of_not_mapped hself] using h
      subst hzero
      cases followsMapped <;> decide
    · exact hblocked (.inr (.inr (.inl ((hproperty _ _ _ _).trans h))))
    · rw [IpAddress.unmapped_of_not_mapped hself] at h
      unfold cloudMetadata at h
      rcases List.mem_cons.mp h with h | h
      · cases h
      · exact absurd (List.mem_cons_of_mem _ h) hmissed

theorem offLimits_of_mapped (h : ipv4Mapped a = some b) : OffLimits (.v6 a) ↔ OffLimits (.v4 b) := by
  unfold OffLimits IpAddress.isLoopback IpAddress.isLinkLocal IpAddress.isUnspecified
    IpAddress.isMulticast
  simp only [IpAddress.property_of_mapped h, IpAddress.unmapped_of_mapped h, if_true]
  rfl

theorem isBlockedAddress_iff {a : IpAddress} (h : OffLimits a) :
    isBlockedAddress followsMapped a = true ↔ ¬Missed followsMapped a := by
  unfold Missed
  cases a with
  | v4 b =>
    rw [isBlockedAddress_v4_iff h]
    exact not_congr (and_iff_left (.inr rfl)).symm
  | v6 a =>
    cases hmapped : ipv4Mapped a with
    | none =>
      rw [isBlockedAddress_v6_iff hmapped h, IpAddress.unmapped_of_not_mapped hmapped]
      exact not_congr (and_iff_left (.inr rfl)).symm
    | some b =>
      rw [isBlockedAddress_of_mapped hmapped, IpAddress.unmapped_of_mapped hmapped]
      rw [offLimits_of_mapped hmapped] at h
      cases followsMapped with
      | false => simp
      | true =>
        rw [Bool.not_true, Bool.false_or, isBlockedAddress_v4_iff h]
        exact not_congr (and_iff_left (.inl rfl)).symm

end Classification

section Probes

variable {followsMapped : Bool} {net : Network} {host t : String}

theorem mem_dial {accepts : String → Bool} {addresses : List String}
    (h : t ∈ (dial accepts addresses).1) : t ∈ addresses := by
  induction addresses with
  | nil => exact h
  | cons address addresses ih =>
    unfold dial at h
    split_ifs at h with haccepts
    · exact List.mem_singleton.mp h ▸ List.mem_cons_self
    · rcases List.mem_cons.mp h with rfl | hrest
      · exact List.mem_cons_self
      · exact List.mem_cons_of_mem _ (ih hrest)

theorem mem_tryNames {n : ℕ} {names : List (Option String)}
    (h : t ∈ (tryNames net host n names).1) : ∃ m, t ∈ (net.resolve m host).texts := by
  induction names generalizing n with
  | nil => cases h
  | cons name names ih =>
    unfold tryNames at h
    cases hresolve : net.resolve n host with
    | failed =>
      rw [hresolve] at h
      cases h
    | raised =>
      rw [hresolve] at h
      cases h
    | addresses first rest =>
      simp only [hresolve] at h
      have hdial (hmem : t ∈ (dial (net.accepts n) (first :: rest)).1) :
          ∃ m, t ∈ (net.resolve m host).texts := by
        refine ⟨n, ?_⟩
        rw [hresolve]
        exact mem_dial hmem
      split_ifs at h with hconnected
      · cases hshake : net.handshake n name with
        | unrecognizedName =>
          simp only [hshake] at h
          rcases List.mem_append.mp h with hfirst | hmore
          · exact hdial hfirst
          · exact ih hmore
        | failed =>
          simp only [hshake] at h
          exact hdial h
        | noCertificate =>
          simp only [hshake] at h
          exact hdial h
        | certificate sans =>
          simp only [hshake] at h
          exact hdial h
      · exact hdial h

theorem reached_of_address {a : IpAddress} (ha : ipAddressOfText host = some a) {port : ℤ}
    {sniHostname : Option String}
    (h : t ∈ (probeTls followsMapped net host port sniHostname).reached) :
    isBlockedIp followsMapped t = false := by
  unfold probeTls at h
  dsimp only at h
  split_ifs at h with hblocked
  · cases h
  · split at h
    · cases h
    · obtain ⟨n, hn⟩ := mem_tryNames h
      unfold isBlockedIp at hblocked ⊢
      rw [net.resolve_numeric n host a t ha hn, ← ha]
      exact Bool.eq_false_of_not_eq_true hblocked

/-- The connection to a host that is a name, as far as the check lets it pass: to no blocked
address, or is the name bound to another address by then? -/
def Rebound (followsMapped : Bool) (net : Network) (host : String) : Prop :=
  ipAddressOfText host = none ∧ net.resolve 0 host ≠ .raised ∧
    (∀ first rest, net.resolve 0 host = .addresses first rest →
      isBlockedIp followsMapped first = false) ∧
    ∃ t ∈ (dial (net.accepts 1) (net.resolve 1 host).texts).1, isBlockedIp followsMapped t = true

theorem tryNames_singleton (name : Option String) : (tryNames net host 1 [name]).1 =
    (dial (net.accepts 1) (net.resolve 1 host).texts).1 := by
  unfold tryNames
  cases net.resolve 1 host with
  | failed => rfl
  | raised => rfl
  | addresses first rest =>
    dsimp only
    split_ifs
    · cases net.handshake 1 name with
      | unrecognizedName => exact List.append_nil _
      | failed => rfl
      | noCertificate => rfl
      | certificate sans => rfl
    · rfl

theorem reached_of_name (hname : ipAddressOfText host = none) (port : ℤ) :
    (∀ t ∈ (probeTls followsMapped net host port none).reached,
      isBlockedIp followsMapped t = false) ↔ ¬Rebound followsMapped net host := by
  have hhost : isBlockedIp followsMapped host = false := by
    unfold isBlockedIp
    rw [hname]
    rfl
  unfold probeTls sniAttempts Rebound
  simp only [hhost, hname, Option.filter_none, Option.isSome_none, Bool.false_eq_true, if_false,
    true_and]
  cases hresolve : net.resolve 0 host with
  | raised => simp
  | failed => simp [tryNames_singleton]
  | addresses first rest =>
    cases hfirst : isBlockedIp followsMapped first with
    | true => simp [hfirst]
    | false => simp [hfirst, tryNames_singleton]

/-- A probe of a host reaches no blocked address unless the host is a name that is bound to one
after the check. -/
theorem probe_safe_iff (host : String) (port : ℤ) :
    (∀ t ∈ (probeTls followsMapped net host port none).reached,
      isBlockedIp followsMapped t = false) ↔ ¬Rebound followsMapped net host := by
  cases hname : ipAddressOfText host with
  | none => exact reached_of_name hname port
  | some a =>
    refine iff_of_true (fun t h => reached_of_address hname h) fun h => ?_
    cases h.1.symm.trans hname

end Probes

section Scans

variable {followsMapped : Bool} {nets : ℕ → Network}

theorem address_of_mem_sniJobs {results : List Probe} {job : String × ℤ × String}
    (h : job ∈ sniJobs results) : ∃ a, ipAddressOfText job.1 = some a := by
  unfold sniJobs at h
  rw [List.mem_eraseDups, List.mem_flatMap] at h
  obtain ⟨r, -, hjob⟩ := h
  split at hjob
  · split_ifs at hjob with haddress
    · obtain ⟨san, -, rfl⟩ := List.mem_map.mp hjob
      exact Option.isSome_iff_exists.mp haddress
    · cases hjob
  · cases hjob

theorem doScan_safe_iff (jobs : List (String × ℤ)) :
    (∀ p ∈ doScan followsMapped nets jobs, ∀ t ∈ p.reached, isBlockedIp followsMapped t = false) ↔
      ∀ i host port, jobs[i]? = some (host, port) → ¬Rebound followsMapped (nets i) host := by
  have hfirst : (∀ p ∈ jobs.mapIdx fun i job => probeTls followsMapped (nets i) job.1 job.2 none,
      ∀ t ∈ p.reached, isBlockedIp followsMapped t = false) ↔
      ∀ i host port, jobs[i]? = some (host, port) → ¬Rebound followsMapped (nets i) host := by
    constructor
    · intro h i host port hjob
      refine (probe_safe_iff host port).mp (h _ ?_)
      obtain ⟨hi, hget⟩ := List.getElem?_eq_some_iff.mp hjob
      exact List.mem_mapIdx.mpr ⟨i, hi, by rw [hget]⟩
    · intro h p hp
      obtain ⟨i, hi, rfl⟩ := List.mem_mapIdx.mp hp
      exact (probe_safe_iff _ _).mpr (h i _ _ (List.getElem?_eq_getElem hi))
  unfold doScan
  dsimp only
  split_ifs with hraised
  · exact hfirst
  · rw [← hfirst]
    refine ⟨fun h p hp => h p (List.mem_append_left _ hp), fun h p hp => ?_⟩
    rcases List.mem_append.mp hp with hp | hp
    · exact h p hp
    · obtain ⟨i, hi, rfl⟩ := List.mem_mapIdx.mp hp
      obtain ⟨a, ha⟩ := address_of_mem_sniJobs (List.getElem_mem hi)
      exact fun t ht => reached_of_address ha ht

/-- A scan reaches no blocked address, and a text of an address that is off limits is blocked,
exactly if no target is a name that is bound to a blocked address after the check, and the text is
not of an address that the check misses. -/
theorem discovery_blocks_iff (followsMapped : Bool) :
    (∀ nets targets ports,
      (∀ probes, startScan followsMapped nets targets ports = .ok probes →
        ∀ p ∈ probes, ∀ t ∈ p.reached, isBlockedIp followsMapped t = false) ↔
      ∀ jobs, scanJobs targets ports = .ok jobs → ∀ i host port, jobs[i]? = some (host, port) →
        ¬Rebound followsMapped (nets i) host) ∧
    ∀ text a, ipAddressOfText text = some a → OffLimits a →
      (isBlockedIp followsMapped text = true ↔ ¬Missed followsMapped a) := by
  refine ⟨fun nets targets ports => ?_, fun text a htext ha => ?_⟩
  · unfold startScan
    cases hjobs : scanJobs targets ports with
    | error e => exact iff_of_true nofun nofun
    | ok jobs =>
      simp only [Except.map, Except.ok.injEq, forall_eq']
      exact doScan_safe_iff jobs
  · unfold isBlockedIp
    rw [htext]
    exact isBlockedAddress_iff ha

end Scans

section Sample

/-- A name that is bound to another address after it has been looked up once. -/
def rebindingNetwork : Network where
  reverse _ := none
  resolve n host :=
    if (ipAddressOfText host).isSome then .addresses host []
    else .addresses (if n = 0 then "93.184.216.34" else "127.0.0.1") []
  accepts _ _ := true
  refusal _ := .refused
  handshake _ _ := .noCertificate
  resolve_numeric := by
    intro n host a t ha ht
    rw [if_pos (Option.isSome_iff_exists.mpr ⟨a, ha⟩)] at ht
    cases List.mem_singleton.mp ht
    exact ha

/-- The scan of a name reaches the machine itself, and the check lets the unspecified address and an
address of cloud metadata pass. -/
theorem blocked_address_reached :
    (∃ probes, startScan true (fun _ => rebindingNetwork) ["www.example"] none = .ok probes ∧
      probes.flatMap Probe.reached = ["127.0.0.1"]) ∧
    isBlockedIp true "127.0.0.1" = true ∧
    ((ipAddressOfText "0.0.0.0" = some (.v4 0) ∧ OffLimits (.v4 0)) ∧
      isBlockedIp true "0.0.0.0" = false) ∧
    (ipAddressOfText "fd00:ec2::254" = some (.v6 0xfd000ec2000000000000000000000254) ∧
      OffLimits (.v6 0xfd000ec2000000000000000000000254)) ∧
      isBlockedIp true "fd00:ec2::254" = false := by
  refine ⟨⟨_, rfl, by decide +kernel⟩, by decide +kernel, ⟨⟨by decide +kernel, ?_⟩,
    by decide +kernel⟩, ⟨by decide +kernel, ?_⟩, by decide +kernel⟩
  · exact .inr (.inr (.inl (by decide)))
  · exact .inr (.inr (.inr (.inr (by decide))))

end Sample

end DiscoveryService

end CaManager
