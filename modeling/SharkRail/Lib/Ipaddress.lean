import Mathlib

/-!
# Internet addresses

Addresses of both versions with the predicates of the `ipaddress` module of the standard library, over the blocks it lists, and the
IPv4 addresses that an IPv6 address can embed.
-/

/-- A block of addresses: those that agree with `address` in their first `length` bits. -/
structure Network (w : ℕ) where
  address : BitVec w
  length : ℕ

namespace Network

variable {w : ℕ}

def contains (net : Network w) (ip : BitVec w) : Bool := ip >>> (w - net.length) = net.address >>> (w - net.length)

/-- A block lies in a shorter one that has its address. -/
theorem contains_of_le {inner outer : Network w} {ip : BitVec w} (hlength : outer.length ≤ inner.length)
    (haddress : outer.contains inner.address = true) (h : inner.contains ip = true) : outer.contains ip = true := by
  simp only [contains, decide_eq_true_eq] at *
  have hshift : w - outer.length = (w - inner.length) + (inner.length - outer.length) ∨ w - inner.length = 0 := by omega
  rcases hshift with hshift | hzero
  · rw [← haddress, hshift, BitVec.shiftRight_add, h, ← BitVec.shiftRight_add]
  · have heq : ip = inner.address := by simpa [hzero] using h
    rw [heq, haddress]

end Network

/-- An address of version 4, or of version 6 without its scope. -/
inductive Ipaddress where
  | v4 (ip : BitVec 32)
  | v6 (ip : BitVec 128)
  deriving DecidableEq

namespace Ipaddress

/-! ## The blocks -/

/-- A block by the four numbers of its address. -/
def net4 (a b c d length : ℕ) : Network 32 := ⟨BitVec.ofNat 32 (((a * 256 + b) * 256 + c) * 256 + d), length⟩

/-- A block by the first groups of its address; the others are zero. -/
def net6 (groups : List ℕ) (length : ℕ) : Network 128 :=
  ⟨BitVec.ofNat 128 ((groups ++ List.replicate (8 - groups.length) 0).foldl (fun n group => n * 65536 + group) 0), length⟩

def privateNetworks4 : List (Network 32) :=
  [net4 0 0 0 0 8, net4 10 0 0 0 8, net4 127 0 0 0 8, net4 169 254 0 0 16, net4 172 16 0 0 12, net4 192 0 0 0 24,
    net4 192 0 0 170 31, net4 192 0 2 0 24, net4 192 168 0 0 16, net4 198 18 0 0 15, net4 198 51 100 0 24, net4 203 0 113 0 24,
    net4 240 0 0 0 4, net4 255 255 255 255 32]

def privateExceptions4 : List (Network 32) := [net4 192 0 0 9 32, net4 192 0 0 10 32]

def privateNetworks6 : List (Network 128) :=
  [net6 [0, 0, 0, 0, 0, 0, 0, 1] 128, net6 [] 128, net6 [0, 0, 0, 0, 0, 0xffff] 96, net6 [0x64, 0xff9b, 1] 48, net6 [0x100] 64,
    net6 [0x2001] 23, net6 [0x2001, 0xdb8] 32, net6 [0x2002] 16, net6 [0xfc00] 7, net6 [0xfe80] 10]

def privateExceptions6 : List (Network 128) :=
  [net6 [0x2001, 1, 0, 0, 0, 0, 0, 1] 128, net6 [0x2001, 1, 0, 0, 0, 0, 0, 2] 128, net6 [0x2001, 3] 32,
    net6 [0x2001, 4, 0x112] 48, net6 [0x2001, 0x20] 28, net6 [0x2001, 0x30] 28]

def reservedNetworks6 : List (Network 128) :=
  [net6 [] 8, net6 [0x100] 8, net6 [0x200] 7, net6 [0x400] 6, net6 [0x800] 5, net6 [0x1000] 4, net6 [0x4000] 3, net6 [0x6000] 3,
    net6 [0x8000] 3, net6 [0xa000] 3, net6 [0xc000] 3, net6 [0xe000] 4, net6 [0xf000] 5, net6 [0xf800] 6, net6 [0xfe00] 9]

/-! ## Embedded addresses -/

/-- `ipv4_mapped`. -/
def ipv4Mapped (ip : BitVec 128) : Option (BitVec 32) := if ip >>> 32 = 0xffff then some (ip.setWidth 32) else none

/-- `sixtofour`. -/
def sixtofour (ip : BitVec 128) : Option (BitVec 32) := if ip >>> 112 = 0x2002 then some ((ip >>> 80).setWidth 32) else none

/-- `teredo`: the addresses of the server and the client. -/
def teredo (ip : BitVec 128) : Option (BitVec 32 × BitVec 32) :=
  if ip >>> 96 = 0x20010000 then some ((ip >>> 64).setWidth 32, (~~~ip).setWidth 32) else none

/-- The well-known prefix of the translation between the versions. -/
def nat64 : Network 128 := net6 [0x64, 0xff9b] 96

/-- The addresses of version 4 that a transition address embeds. -/
def embedded : Ipaddress → List (BitVec 32)
  | v4 _ => []
  | v6 ip =>
    (ipv4Mapped ip).toList ++ (sixtofour ip).toList ++ ((teredo ip).map fun pair => [pair.1, pair.2]).getD [] ++
      if nat64.contains ip then [ip.setWidth 32] else []

/-! ## The predicates -/

def isPrivate4 (ip : BitVec 32) : Bool :=
  (privateNetworks4.any fun net => net.contains ip) && privateExceptions4.all fun net => !net.contains ip

def isPrivate : Ipaddress → Bool
  | v4 ip => isPrivate4 ip
  | v6 ip =>
    match ipv4Mapped ip with
    | some mapped => isPrivate4 mapped
    | none => (privateNetworks6.any fun net => net.contains ip) && privateExceptions6.all fun net => !net.contains ip

def isGlobal : Ipaddress → Bool
  | v4 ip => !(net4 100 64 0 0 10).contains ip && !isPrivate4 ip
  | v6 ip => !isPrivate (v6 ip)

def isLoopback : Ipaddress → Bool
  | v4 ip => (net4 127 0 0 0 8).contains ip
  | v6 ip => ip = 1

def isLinkLocal : Ipaddress → Bool
  | v4 ip => (net4 169 254 0 0 16).contains ip
  | v6 ip => (net6 [0xfe80] 10).contains ip

def isSiteLocal : Ipaddress → Bool
  | v4 _ => false
  | v6 ip => (net6 [0xfec0] 10).contains ip

def isMulticast : Ipaddress → Bool
  | v4 ip => (net4 224 0 0 0 4).contains ip
  | v6 ip => (net6 [0xff00] 8).contains ip

def isUnspecified : Ipaddress → Bool
  | v4 ip => ip = 0
  | v6 ip => ip = 0

def isReserved : Ipaddress → Bool
  | v4 ip => (net4 240 0 0 0 4).contains ip
  | v6 ip => reservedNetworks6.any fun net => net.contains ip

/-- An address of the public internet: globally reachable, and of none of the kinds that are not for it. -/
structure Public (address : Ipaddress) : Prop where
  isGlobal : address.isGlobal = true
  notLoopback : address.isLoopback = false
  notLinkLocal : address.isLinkLocal = false
  notPrivate : address.isPrivate = false
  notMulticast : address.isMulticast = false
  notUnspecified : address.isUnspecified = false
  notReserved : address.isReserved = false

/-- An address of the translation prefix is reserved: the prefix lies in the first block of those that are. -/
theorem isReserved_of_nat64 {ip : BitVec 128} (h : nat64.contains ip = true) : isReserved (v6 ip) = true := by
  have hfirst : (net6 [] 8).contains ip = true := Network.contains_of_le (by decide) (by decide) h
  exact List.any_eq_true.2 ⟨net6 [] 8, by simp [reservedNetworks6], hfirst⟩

/-- An address that is neither mapped, nor of 6to4 or Teredo, nor reserved, embeds none. -/
theorem embedded_eq_nil {address : Ipaddress}
    (htransition : ∀ ip, address = v6 ip → ipv4Mapped ip = none ∧ sixtofour ip = none ∧ teredo ip = none)
    (hreserved : address.isReserved = false) : address.embedded = [] := by
  cases address with
  | v4 ip => rfl
  | v6 ip =>
    obtain ⟨hmapped, hsixtofour, hteredo⟩ := htransition ip rfl
    have hnat64 : nat64.contains ip = false := by
      rw [Bool.eq_false_iff]
      intro hcontains
      rw [isReserved_of_nat64 hcontains] at hreserved
      cases hreserved
    simp [embedded, hmapped, hsixtofour, hteredo, hnat64]

end Ipaddress
