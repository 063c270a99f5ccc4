import CaManager.Library.Texts

/-!
# Internet addresses

Addresses of both versions, networks, what addresses are set aside for, and the texts that a
strict reader takes for addresses: four decimal numbers without leading zeros, or groups of
hexadecimal digits with one gap and possibly four decimal numbers at the end.
-/

namespace CaManager.Library

abbrev IPv4Address := BitVec 32

abbrev IPv6Address := BitVec 128

inductive IpAddress
  | v4 (a : IPv4Address)
  | v6 (a : IPv6Address)
  deriving Repr, DecidableEq

/-- The addresses that have their leading bits in common with one of them. -/
structure IpNetwork (w : ℕ) where
  address : BitVec w
  length : ℕ

namespace IpNetwork

variable {w : ℕ}

def contains (n : IpNetwork w) (a : BitVec w) : Bool :=
  a >>> (w - n.length) = n.address >>> (w - n.length)

theorem contains_iff {n : IpNetwork w} {a : BitVec w} : n.contains a = true ↔
    a.toNat / 2 ^ (w - n.length) = n.address.toNat / 2 ^ (w - n.length) := by
  unfold contains
  rw [decide_eq_true_iff, ← BitVec.toNat_inj, BitVec.toNat_ushiftRight, BitVec.toNat_ushiftRight,
    Nat.shiftRight_eq_div_pow, Nat.shiftRight_eq_div_pow]

def first (n : IpNetwork w) : ℕ :=
  (n.address >>> (w - n.length) <<< (w - n.length)).toNat

def size (n : IpNetwork w) : ℕ := 2 ^ (w - n.length)

/-- The addresses of hosts: the first and the last are set aside, if there are more than two. -/
def hosts (n : IpNetwork w) : List (BitVec w) :=
  let range := if n.size ≤ 2 then List.range' n.first n.size
    else List.range' (n.first + 1) (n.size - 2)
  range.map (BitVec.ofNat w)

end IpNetwork

section Mapped

def mappedAddress (a : IPv4Address) : IPv6Address := BitVec.ofNat 128 (0xffff * 2 ^ 32 + a.toNat)

def ipv4Mapped (a : IPv6Address) : Option IPv4Address :=
  if a.toNat / 2 ^ 32 = 0xffff then some (BitVec.ofNat 32 a.toNat) else none

def IpAddress.unmapped : IpAddress → IpAddress
  | v4 a => v4 a
  | v6 a => match ipv4Mapped a with
    | some b => v4 b
    | none => v6 a

end Mapped

section Purposes

/-- A property of addresses of both versions. Newer libraries ask the address of the older version
that a mapped address stands for. -/
def IpAddress.property (followsMapped : Bool) (p : IPv4Address → Bool) (q : IPv6Address → Bool) :
    IpAddress → Bool
  | v4 a => p a
  | v6 a => match ipv4Mapped a with
    | some b => if followsMapped then p b else q a
    | none => q a

section Mapped

variable {followsMapped : Bool} {a : IPv6Address} {b : IPv4Address}

@[simp]
theorem IpAddress.property_v4 (p : IPv4Address → Bool) (q : IPv6Address → Bool) :
    property followsMapped p q (.v4 b) = p b := rfl

theorem IpAddress.property_of_mapped (h : ipv4Mapped a = some b) (p : IPv4Address → Bool)
    (q : IPv6Address → Bool) :
    property followsMapped p q (.v6 a) = if followsMapped then p b else q a := by
  simp only [property, h]

theorem IpAddress.property_of_not_mapped (h : ipv4Mapped a = none) (p : IPv4Address → Bool)
    (q : IPv6Address → Bool) : property followsMapped p q (.v6 a) = q a := by
  simp only [property, h]

theorem IpAddress.unmapped_of_mapped (h : ipv4Mapped a = some b) :
    (IpAddress.v6 a).unmapped = .v4 b := by
  simp only [unmapped, h]

theorem IpAddress.unmapped_of_not_mapped (h : ipv4Mapped a = none) :
    (IpAddress.v6 a).unmapped = .v6 a := by
  simp only [unmapped, h]

end Mapped

variable (followsMapped : Bool)

def IpAddress.isLoopback : IpAddress → Bool :=
  property followsMapped (IpNetwork.contains ⟨0x7f000000, 8⟩) (· = 1)

def IpAddress.isLinkLocal : IpAddress → Bool :=
  property followsMapped (IpNetwork.contains ⟨0xa9fe0000, 16⟩)
    (IpNetwork.contains ⟨0xfe80 <<< 112, 10⟩)

def IpAddress.isMulticast : IpAddress → Bool :=
  property followsMapped (IpNetwork.contains ⟨0xe0000000, 4⟩)
    (IpNetwork.contains ⟨0xff00 <<< 112, 8⟩)

/-- What is not set aside for anything yet, by the first group and a length. -/
def reservedNetworks : List (IpNetwork 128) :=
  ([(0x0000, 8), (0x0100, 8), (0x0200, 7), (0x0400, 6), (0x0800, 5), (0x1000, 4), (0x4000, 3),
    (0x6000, 3), (0x8000, 3), (0xa000, 3), (0xc000, 3), (0xe000, 4), (0xf000, 5), (0xf800, 6),
    (0xfe00, 9)] : List (ℕ × ℕ)).map fun n => ⟨BitVec.ofNat 128 (n.1 <<< 112), n.2⟩

def IpAddress.isReserved : IpAddress → Bool :=
  property followsMapped (IpNetwork.contains ⟨0xf0000000, 4⟩) fun a =>
    reservedNetworks.any fun n => n.contains a

def IpAddress.isUnspecified : IpAddress → Bool :=
  property followsMapped (· = 0) (· = 0)

theorem IpAddress.isReserved_of_mapped {a : IPv6Address} {b : IPv4Address}
    (h : ipv4Mapped a = some b) : (IpAddress.v6 a).isReserved false = true := by
  unfold IpAddress.isReserved
  rw [property_of_mapped h, if_neg Bool.false_ne_true]
  refine List.any_eq_true.mpr ⟨⟨0, 8⟩, by simp [reservedNetworks], ?_⟩
  unfold ipv4Mapped at h
  split_ifs at h with hmapped
  rw [IpNetwork.contains_iff]
  change a.toNat / 2 ^ 120 = 0
  omega

end Purposes

section Texts

def octetOfText (s : String) : Option ℕ :=
  let cs := s.toList
  if cs.all Char.isDigit ∧ cs.length ≤ 3 ∧ (cs = ['0'] ∨ cs.head? ≠ some '0') then
    (readUnsigned 10 cs).filter (· ≤ 255)
  else none

def ipv4OfText (s : String) : Option IPv4Address :=
  let octets := splitText '.' s
  if octets.length = 4 then
    (octets.mapM octetOfText).map fun os => BitVec.ofNat 32 (os.foldl (256 * · + ·) 0)
  else none

def textOfIpv4 (a : IPv4Address) : String :=
  joinText '.' ([24, 16, 8, 0].map fun k =>
    String.ofList (Nat.toDigits 10 (a.toNat / 2 ^ k % 256)))

def hextetOfText (s : String) : Option ℕ :=
  let cs := s.toList
  if cs.all (fun c => (digitValue 16 c).isSome) ∧ cs.length ≤ 4 then readUnsigned 16 cs else none

def hexadecimalGroups (parts : List String) : Option (List String) :=
  match parts.getLast? with
  | some last =>
    if '.' ∈ last.toList then
      (ipv4OfText last).map fun a => parts.dropLast ++
        [String.ofList (Nat.toDigits 16 (a.toNat / 2 ^ 16)),
          String.ofList (Nat.toDigits 16 (a.toNat % 2 ^ 16))]
    else some parts
  | none => none

/-- The groups before or after a gap. A group that is empty is only allowed next to the gap, at the
end of the text. -/
def besideGap (groups : List String) (outer : Option String) : Option (List String) :=
  if outer = some "" then if groups.length = 1 then some [] else none else some groups

def gaps (groups : List String) : List ℕ :=
  (List.range groups.length).filter fun i =>
    0 < i && i + 1 < groups.length && groups[i]? = some ""

def filledGroups (groups : List String) : Option (List String) :=
  match gaps groups with
  | [] =>
    if groups.length = 8 ∧ groups.head? ≠ some "" ∧ groups.getLast? ≠ some "" then some groups
    else none
  | [i] =>
    match besideGap (groups.take i) groups.head?,
        besideGap (groups.drop (i + 1)) groups.getLast? with
    | some before, some after =>
      if before.length + after.length < 8 then
        some (before ++ List.replicate (8 - (before.length + after.length)) "0" ++ after)
      else none
    | _, _ => none
  | _ => none

def ipv6OfGroups (s : String) : Option IPv6Address :=
  let parts := splitText ':' s
  if parts.length < 3 then none
  else
    match hexadecimalGroups parts with
    | none => none
    | some groups =>
      if 9 < groups.length then none
      else
        ((filledGroups groups).bind fun groups => groups.mapM hextetOfText).map fun hs =>
          BitVec.ofNat 128 (hs.foldl (65536 * · + ·) 0)

def ipv6OfText (s : String) : Option IPv6Address :=
  match splitText '%' s with
  | [address] => ipv6OfGroups address
  | [address, scope] => if scope = "" then none else ipv6OfGroups address
  | _ => none

def ipAddressOfText (s : String) : Option IpAddress :=
  if '/' ∈ s.toList then none
  else ((ipv4OfText s).map IpAddress.v4).or ((ipv6OfText s).map IpAddress.v6)

def lengthOfMask (a : IPv4Address) : Option ℕ :=
  let lengths := List.range 33
  (lengths.find? fun n => a = BitVec.allOnes 32 <<< (32 - n)).or
    (lengths.find? fun n => a = ~~~(BitVec.allOnes 32 <<< (32 - n)))

def networkLength (s : String) : Option ℕ :=
  if s ≠ "" ∧ s.toList.all Char.isDigit then (readUnsigned 10 s.toList).filter (· ≤ 32)
  else (ipv4OfText s).bind lengthOfMask

/-- A network of the older version, written with a slash, by any of its addresses. -/
def ipv4NetworkOfText (s : String) : Option (IpNetwork 32) :=
  match splitText '/' s with
  | [address, rest] =>
    match ipv4OfText address, networkLength rest with
    | some address, some length => some ⟨address, length⟩
    | _, _ => none
  | _ => none

def networkLength6 (s : String) : Option ℕ :=
  if s ≠ "" ∧ s.toList.all Char.isDigit then (readUnsigned 10 s.toList).filter (· ≤ 128) else none

/-- A network of the newer version by any of its addresses; an address alone is a network. -/
def ipv6NetworkOfText (s : String) : Option (IpNetwork 128) :=
  match splitText '/' s with
  | [address] => (ipv6OfText address).map fun a => ⟨a, 128⟩
  | [address, rest] =>
    match ipv6OfText address, networkLength6 rest with
    | some address, some length => some ⟨address, length⟩
    | _, _ => none
  | _ => none

/-- The hosts of a newer network: only the first address is set aside, if there are more than
two. -/
def hosts6 (n : IpNetwork 128) : List IPv6Address :=
  let range := if n.size ≤ 2 then List.range' n.first n.size
    else List.range' (n.first + 1) (n.size - 1)
  range.map (BitVec.ofNat 128)

def groupsOfIpv6 (a : IPv6Address) : List ℕ :=
  [112, 96, 80, 64, 48, 32, 16, 0].map fun k => a.toNat / 2 ^ k % 2 ^ 16

/-- The first of the longest runs of zeros: where it starts, and how long it is. -/
def zeroRun (groups : List ℕ) : ℕ × ℕ :=
  (List.range groups.length).foldl (fun best i =>
    let run := ((groups.drop i).takeWhile (· = 0)).length
    if best.2 < run then (i, run) else best) (0, 0)

/-- Groups in hexadecimal digits, without the first longest run of two or more zeros. -/
def textOfIpv6 (a : IPv6Address) : String :=
  let groups := groupsOfIpv6 a
  let hextets := groups.map fun g => String.ofList (Nat.toDigits 16 g)
  let (start, run) := zeroRun groups
  if 1 < run then
    let before := hextets.take start
    let after := hextets.drop (start + run)
    joinText ':' ((if before = [] then [""] else before) ++ [""] ++
      if after = [] then [""] else after)
  else joinText ':' hextets

end Texts

end CaManager.Library
