import CaManager.Library.IpAddresses
import CaManager.X509

/-!
# Probes of a discovery scan

The targets of a scan are texts: names, addresses, with or without a port, and networks. Each gives
hosts to probe; after that, addresses that showed a certificate are probed again with the names in
it. A probe refuses addresses that are blocked. It resolves the host, maybe several times, and the
answers are not its own: whoever runs the name servers may answer what they like.
-/

namespace CaManager

open Library

namespace DiscoveryService

/-- `_BLOCKED_NETWORKS`, those of the older version. -/
def blockedNetworks : List (IpNetwork 32) :=
  [⟨0x7f000000, 8⟩, ⟨0xa9fe0000, 16⟩, ⟨0xe0000000, 4⟩, ⟨0xf0000000, 4⟩]

/-- `_BLOCKED_NETWORKS`, those of the newer version. -/
def blockedNetworks6 : List (IpNetwork 128) :=
  [⟨1, 128⟩, ⟨0xfe80 <<< 112, 10⟩, ⟨0xff00 <<< 112, 8⟩]

section Blocking

variable (followsMapped : Bool)

def isBlockedAddress (a : IpAddress) : Bool :=
  a.isLoopback followsMapped || a.isLinkLocal followsMapped || a.isMulticast followsMapped ||
    a.isReserved followsMapped ||
      match a with
      | .v4 a => blockedNetworks.any fun n => n.contains a
      | .v6 a => blockedNetworks6.any fun n => n.contains a

/-- `_is_blocked_ip` -/
def isBlockedIp (host : String) : Bool :=
  (ipAddressOfText host).any (isBlockedAddress followsMapped)

end Blocking

/-- `_validate_port` -/
def validatePort (port : ℤ) : ℤ := if 1 ≤ port ∧ port ≤ 65535 then port else 0

def scanPorts (ports : Option (List ℤ)) : List ℤ :=
  let valid := ((ports.getD [443]).map validatePort).filter (0 < ·)
  if valid = [] then [443] else valid

def splitLast (c : Char) (s : String) : String × String :=
  let cs := s.toList.reverse
  (String.ofList (cs.dropWhile (· ≠ c)).tail.reverse, String.ofList (cs.takeWhile (· ≠ c)).reverse)

def stripBrackets (s : String) : String :=
  let bracket (c : Char) : Bool := c = '[' || c = ']'
  String.ofList (((s.toList.dropWhile bracket).reverse.dropWhile bracket).reverse)

/-- `_parse_target` -/
def parseTarget (raw : String) : Except PyError (String × Option ℤ) :=
  let raw := stripSpaces raw
  if raw = "" then .ok ("", none)
  else if startsWith raw "[" then
    if occursIn "]:" raw then
      let (host, port) := splitLast ':' raw
      match readInt 10 port.toList with
      | some port => .ok (stripBrackets host, some port)
      | none => .error (.valueError "invalid literal for int() with base 10")
    else .ok (stripBrackets raw, none)
  else if ':' ∈ raw.toList then
    let (host, port) := splitLast ':' raw
    match readInt 10 port.toList with
    | some port => .ok (host, some port)
    | none => .ok (raw, none)
  else .ok (raw, none)

def targetJobs (ports : List ℤ) (raw : String) : Except PyError (List (String × ℤ)) :=
  let raw := stripSpaces raw
  let network := if '/' ∈ raw.toList ∧ ':' ∉ raw.toList then ipv4NetworkOfText raw else none
  match network with
  | some network =>
    .ok (network.hosts.flatMap fun a => ports.map fun port => (textOfIpv4 a, port))
  | none => do
    let (host, customPort) ← parseTarget raw
    let scanPorts := match customPort with
      | some port => if port = 0 then ports else [port]
      | none => ports
    return if host = "" then [] else scanPorts.map fun port => (host, port)

def scanJobs (targets : List String) (ports : Option (List ℤ)) :
    Except PyError (List (String × ℤ)) := do
  let jobs ← targets.mapM (targetJobs (scanPorts ports))
  return jobs.flatten

/-- What the resolution of a name comes to. It raises if the name cannot be encoded. -/
inductive Resolution
  | addresses (first : String) (rest : List String)
  | failed
  | raised
  deriving Repr, DecidableEq

def Resolution.texts : Resolution → List String
  | addresses first rest => first :: rest
  | failed | raised => []

/-- What a server does with the name that it is asked for. -/
inductive Handshake
  | unrecognizedName
  | failed
  | noCertificate
  | certificate (sanDnsNames : List String)
  deriving Repr, DecidableEq

inductive ProbeError
  | blocked
  | noCert
  | tls
  | refused
  | timeout
  | dns
  | network
  | sniRejected
  deriving Repr, DecidableEq

/-- The network during one probe: what each resolution and each attempt meets. Only a text that is
an address already is always resolved to that address. -/
structure Network where
  reverse : String → Option String
  resolve : ℕ → String → Resolution
  accepts : ℕ → String → Bool
  refusal : ℕ → ProbeError
  handshake : ℕ → Option String → Handshake
  resolve_numeric : ∀ n host a t, ipAddressOfText host = some a → t ∈ (resolve n host).texts →
    ipAddressOfText t = some a

/-- A probe: which addresses a connection was opened to, and what it found. Nothing is in place of
an error if it raises. -/
structure Probe where
  target : String
  port : ℤ
  sniHostname : Option String
  reached : List String
  outcome : Except (Option ProbeError) (List String)

def dial (accepts : String → Bool) : List String → List String × Bool
  | [] => ([], false)
  | address :: addresses =>
    if accepts address then ([address], true)
    else
      let (tried, connected) := dial accepts addresses
      (address :: tried, connected)

section Probing

variable (followsMapped : Bool) (net : Network) (host : String)

def sniAttempts (sniHostname : Option String) :
    Except (Option ProbeError) (List (Option String)) :=
  match sniHostname with
  | some name => .ok [some name]
  | none =>
    if (ipAddressOfText host).isSome then
      match net.reverse host with
      | none => .ok [none]
      | some ptrHost =>
        if ptrHost = "" ∨ ptrHost = host then .ok [none]
        else
          match net.resolve 0 ptrHost with
          | .raised => .error none
          | .failed => .ok [none]
          | .addresses first _ => .ok (if first = host then [none, some ptrHost] else [none])
    else
      match net.resolve 0 host with
      | .raised => .error none
      | .failed => .ok [some host]
      | .addresses first _ =>
        if isBlockedIp followsMapped first then .error (some .blocked) else .ok [some host]

/-- Each name is asked for on a connection of its own, for which the host is resolved anew. -/
def tryNames (n : ℕ) : List (Option String) →
    List String × Except (Option ProbeError) (List String)
  | [] => ([], .error (some .sniRejected))
  | name :: names =>
    match net.resolve n host with
    | .raised => ([], .error (some .tls))
    | .failed => ([], .error (some .dns))
    | .addresses first rest =>
      let (tried, connected) := dial (net.accepts n) (first :: rest)
      if connected then
        match net.handshake n name with
        | .unrecognizedName =>
          let (more, outcome) := tryNames (n + 1) names
          (tried ++ more, outcome)
        | .failed => (tried, .error (some .tls))
        | .noCertificate => (tried, .error (some .noCert))
        | .certificate sanDnsNames => (tried, .ok sanDnsNames)
      else (tried, .error (some (net.refusal n)))

def probeTls (port : ℤ) (sniHostname : Option String) : Probe :=
  let sniHostname := sniHostname.filter (· ≠ "")
  if isBlockedIp followsMapped host then
    ⟨host, port, sniHostname, [], .error (some .blocked)⟩
  else
    match sniAttempts followsMapped net host sniHostname with
    | .error e => ⟨host, port, sniHostname, [], .error e⟩
    | .ok names =>
      let (reached, outcome) := tryNames net host 1 names
      ⟨host, port, sniHostname, reached, outcome⟩

end Probing

/-- The names in the certificates of addresses, each to be asked for at its address. -/
def sniJobs (results : List Probe) : List (String × ℤ × String) :=
  (results.flatMap fun r =>
    match r.outcome with
    | .ok sans =>
      if (ipAddressOfText r.target).isSome then
        ((sans.take 20).filter fun san => !startsWith san "*." && san ≠ r.target).map fun san =>
          (r.target, r.port, san)
      else []
    | .error _ => []).eraseDups

section Scanning

variable (followsMapped : Bool) (nets : ℕ → Network)

/-- `_do_scan` as far as it probes: each probe meets a network of its own. -/
def doScan (jobs : List (String × ℤ)) : List Probe :=
  let results := jobs.mapIdx fun i job => probeTls followsMapped (nets i) job.1 job.2 none
  -- a probe that raises ends the scan after the probes that were submitted with it
  if results.any (fun r => r.outcome matches .error none) then results
  else
    results ++ (sniJobs results).mapIdx fun i job =>
      probeTls followsMapped (nets (jobs.length + i)) job.1 job.2.1 (some job.2.2)

def startScan (targets : List String) (ports : Option (List ℤ)) : Except PyError (List Probe) :=
  (scanJobs targets ports).map (doScan followsMapped nets)

end Scanning

end DiscoveryService

end CaManager
