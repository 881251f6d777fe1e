import Berth.Data.Cidr
import Berth.Models

/-!
The guard of `clone_shallow`: `ensure_host_is_public` asks that every address of a repository's host
is publicly routable. What it tests for is compared with the blocks that are not.
-/

namespace Berth.GitFetch

open Cidr

structure Ipv4Addr where
  bits : Nat
  valid : bits < 2 ^ 32
  deriving DecidableEq

structure Ipv6Addr where
  bits : Nat
  valid : bits < 2 ^ 128
  deriving DecidableEq

inductive IpAddr where
  | v4 (ip : Ipv4Addr)
  | v6 (ip : Ipv6Addr)
  deriving DecidableEq

/-- `a.b.c.d/length`. -/
def v4Block (a b c d length : Nat) : Block :=
  .of (a * 2 ^ 24 + b * 2 ^ 16 + c * 2 ^ 8 + d) (32 - length)

/-- An address whose first two and last two groups of sixteen bits are given, and a length. -/
def v6Block (first second seventh eighth length : Nat) : Block :=
  .of (first * 2 ^ 112 + second * 2 ^ 96 + seventh * 2 ^ 16 + eighth) (128 - length)

namespace Ipv4Addr

variable (ip : Ipv4Addr)

def octet (i : Nat) : Nat := ip.bits / 256 ^ (3 - i) % 256

/-! The predicates of the standard library. -/

def isPrivate : Bool :=
  InSome [v4Block 10 0 0 0 8, v4Block 172 16 0 0 12, v4Block 192 168 0 0 16] ip.bits

def isLoopback : Bool := (v4Block 127 0 0 0 8).Has ip.bits

def isLinkLocal : Bool := (v4Block 169 254 0 0 16).Has ip.bits

def isBroadcast : Bool := (v4Block 255 255 255 255 32).Has ip.bits

def isDocumentation : Bool :=
  InSome [v4Block 192 0 2 0 24, v4Block 198 51 100 0 24, v4Block 203 0 113 0 24] ip.bits

def isMulticast : Bool := (v4Block 224 0 0 0 4).Has ip.bits

def isUnspecified : Bool := (v4Block 0 0 0 0 32).Has ip.bits

end Ipv4Addr

namespace Ipv6Addr

variable (ip : Ipv6Addr)

def isLoopback : Bool := (v6Block 0 0 0 1 128).Has ip.bits

def isMulticast : Bool := (v6Block 0xff00 0 0 0 8).Has ip.bits

def isUnspecified : Bool := (v6Block 0 0 0 0 128).Has ip.bits

def isUniqueLocal : Bool := (v6Block 0xfc00 0 0 0 7).Has ip.bits

def isUnicastLinkLocal : Bool := (v6Block 0xfe80 0 0 0 10).Has ip.bits

/-- The 32 bits that end at this one. -/
def embedded (shift : Nat) : Ipv4Addr :=
  ⟨ip.bits / 2 ^ shift % 2 ^ 32, Nat.mod_lt _ (by decide)⟩

def mappedBlock : Block := .of (0xffff * 2 ^ 32) 32

def toIpv4Mapped : Option Ipv4Addr :=
  if mappedBlock.Has ip.bits then some (ip.embedded 0) else none

end Ipv6Addr

def isPublicIpv4 (ip : Ipv4Addr) : Bool :=
  !(ip.isPrivate || ip.isLoopback || ip.isLinkLocal || ip.isBroadcast || ip.isDocumentation ||
    ip.isMulticast || ip.isUnspecified ||
    ip.octet 0 == 0 ||
    (ip.octet 0 == 100 && (64 ≤ ip.octet 1 && ip.octet 1 ≤ 127)) ||
    (ip.octet 0 == 198 && (18 ≤ ip.octet 1 && ip.octet 1 ≤ 19)) ||
    240 ≤ ip.octet 0)

def isPublicIpv6 (ip : Ipv6Addr) : Bool :=
  match ip.toIpv4Mapped with
  | some mapped => isPublicIpv4 mapped
  | none =>
      !(ip.isLoopback || ip.isMulticast || ip.isUnspecified || ip.isUniqueLocal ||
        ip.isUnicastLinkLocal)

def isPublicIp : IpAddr → Bool
  | .v4 ip => isPublicIpv4 ip
  | .v6 ip => isPublicIpv6 ip

/-- What `gix::url::parse` finds in a URL. -/
structure GixUrl where
  host : Option String
  portOrDefault : Option Nat

/-- `gix::url::parse` and `to_socket_addrs`, with the texts of their errors. -/
structure Network where
  parse : String → Except String GixUrl
  toSocketAddrs : String → Nat → Except String (List IpAddr)

/-- The loop of `ensure_host_is_public`. -/
def ensureAddrsArePublic (host : String) (resolvedAny : Bool) : List IpAddr → AppResult Unit
  | [] =>
      if resolvedAny then .ok ()
      else .error (.git ("repo host " ++ host ++ " did not resolve to any address"))
  | addr :: rest =>
      if !isPublicIp addr then
        .error (.git ("repo host " ++ host ++ " resolves to a non-public address"))
      else ensureAddrsArePublic host true rest

def ensureHostIsPublic (network : Network) (repoUrl : String) : AppResult Unit :=
  match network.parse repoUrl with
  | .error err => .error (.git err)
  | .ok url =>
      match url.host with
      | none => .error (.git ("repo URL " ++ repoUrl ++ " has no host to validate"))
      | some host =>
          match network.toSocketAddrs host (url.portOrDefault.getD 0) with
          | .error err => .error (.git ("could not resolve host " ++ host ++ ": " ++ err))
          | .ok addrs => ensureAddrsArePublic host false addrs

variable {network : Network} {repoUrl host : String} {addrs : List IpAddr} {addr : IpAddr}
variable {ip : Ipv4Addr} {ip6 : Ipv6Addr}

/-! What the guard tests for, as blocks. -/

def testedV4 : List Block :=
  [v4Block 0 0 0 0 8, v4Block 10 0 0 0 8, v4Block 100 64 0 0 10, v4Block 127 0 0 0 8,
    v4Block 169 254 0 0 16, v4Block 172 16 0 0 12, v4Block 192 0 2 0 24, v4Block 192 168 0 0 16,
    v4Block 198 18 0 0 15, v4Block 198 51 100 0 24, v4Block 203 0 113 0 24, v4Block 224 0 0 0 4,
    v4Block 240 0 0 0 4]

def testedV6 : List Block :=
  [v6Block 0 0 0 1 128, v6Block 0xff00 0 0 0 8, v6Block 0 0 0 0 128, v6Block 0xfc00 0 0 0 7,
    v6Block 0xfe80 0 0 0 10]

theorem octet_zero : ip.octet 0 = ip.bits / 2 ^ 24 := by
  have valid := ip.valid
  simp only [Ipv4Addr.octet]
  omega

theorem octet_one : ip.octet 1 = ip.bits / 2 ^ 16 % 2 ^ 8 := rfl

theorem thisNetwork_iff : ip.octet 0 = 0 ↔ (v4Block 0 0 0 0 8).Has ip.bits := by
  rw [octet_zero]
  rfl

theorem sharedSpace_iff : ip.octet 0 = 100 ∧ 64 ≤ ip.octet 1 ∧ ip.octet 1 ≤ 127 ↔
    (v4Block 100 64 0 0 10).Has ip.bits := by
  have block : (v4Block 100 64 0 0 10).Has ip.bits ↔ ip.bits / 2 ^ 22 = 401 := Iff.rfl
  rw [octet_zero, octet_one, block]
  omega

theorem benchmarking_iff : ip.octet 0 = 198 ∧ 18 ≤ ip.octet 1 ∧ ip.octet 1 ≤ 19 ↔
    (v4Block 198 18 0 0 15).Has ip.bits := by
  have block : (v4Block 198 18 0 0 15).Has ip.bits ↔ ip.bits / 2 ^ 17 = 25353 := Iff.rfl
  rw [octet_zero, octet_one, block]
  omega

theorem reserved_iff : 240 ≤ ip.octet 0 ↔ (v4Block 240 0 0 0 4).Has ip.bits := by
  have valid := ip.valid
  have block : (v4Block 240 0 0 0 4).Has ip.bits ↔ ip.bits / 2 ^ 28 = 15 := Iff.rfl
  rw [octet_zero, block]
  omega

theorem isPublicIpv4_iff : isPublicIpv4 ip = true ↔ ¬ InSome testedV4 ip.bits := by
  have broadcast : (v4Block 255 255 255 255 32).Has ip.bits → (v4Block 240 0 0 0 4).Has ip.bits :=
    Block.Within.has (by decide)
  have unspecified : (v4Block 0 0 0 0 32).Has ip.bits → (v4Block 0 0 0 0 8).Has ip.bits :=
    Block.Within.has (by decide)
  simp only [isPublicIpv4, Ipv4Addr.isPrivate, Ipv4Addr.isLoopback, Ipv4Addr.isLinkLocal,
    Ipv4Addr.isBroadcast, Ipv4Addr.isDocumentation, Ipv4Addr.isMulticast, Ipv4Addr.isUnspecified,
    Bool.not_eq_true', ← Bool.not_eq_true, Bool.or_eq_true, Bool.and_eq_true, decide_eq_true_eq,
    beq_iff_eq, thisNetwork_iff, sharedSpace_iff, benchmarking_iff, reserved_iff, testedV4,
    inSome_cons, not_inSome_nil]
  grind only

/-- The guard rejects the address. -/
def Tested : IpAddr → Prop
  | .v4 ip => InSome testedV4 ip.bits
  | .v6 ip => InSome testedV6 ip.bits ∨
      Ipv6Addr.mappedBlock.Has ip.bits ∧ InSome testedV4 (ip.embedded 0).bits

theorem isPublicIpv6_iff : isPublicIpv6 ip6 = true ↔ ¬ Tested (.v6 ip6) := by
  by_cases isMapped : Ipv6Addr.mappedBlock.Has ip6.bits
  · have untested : ¬ InSome testedV6 ip6.bits := by
      have block : Ipv6Addr.mappedBlock.Has ip6.bits ↔ ip6.bits / 2 ^ 32 = 65535 := Iff.rfl
      have mapped := block.1 isMapped
      have tested : InSome testedV6 ip6.bits ↔ ip6.bits / 2 ^ 0 = 1 ∨ ip6.bits / 2 ^ 120 = 255 ∨
          ip6.bits / 2 ^ 0 = 0 ∨ ip6.bits / 2 ^ 121 = 126 ∨ ip6.bits / 2 ^ 118 = 1018 := by
        simp only [testedV6, inSome_cons, not_inSome_nil, or_false]
        rfl
      rw [tested]
      omega
    have toIpv4 : ip6.toIpv4Mapped = some (ip6.embedded 0) := if_pos isMapped
    simp only [isPublicIpv6, toIpv4, isPublicIpv4_iff, Tested, untested, isMapped, true_and,
      false_or]
  · have toIpv4 : ip6.toIpv4Mapped = none := if_neg isMapped
    simp only [isPublicIpv6, toIpv4, Tested, isMapped, false_and, or_false, testedV6, inSome_cons,
      not_inSome_nil, Ipv6Addr.isLoopback, Ipv6Addr.isMulticast, Ipv6Addr.isUnspecified,
      Ipv6Addr.isUniqueLocal, Ipv6Addr.isUnicastLinkLocal, Bool.not_eq_true', ← Bool.not_eq_true,
      Bool.or_eq_true, decide_eq_true_eq, or_assoc]

theorem isPublicIp_iff : isPublicIp addr = true ↔ ¬ Tested addr := by
  cases addr with
  | v4 ip => exact isPublicIpv4_iff
  | v6 ip => exact isPublicIpv6_iff

theorem ensureAddrsArePublic_eq_ok {resolvedAny : Bool} :
    ensureAddrsArePublic host resolvedAny addrs = .ok () ↔
      (resolvedAny = true ∨ addrs ≠ []) ∧ ∀ addr ∈ addrs, ¬ Tested addr := by
  induction addrs generalizing resolvedAny with
  | nil => cases resolvedAny <;> simp [ensureAddrsArePublic]
  | cons addr rest ih =>
      rw [ensureAddrsArePublic]
      by_cases isPublic : isPublicIp addr = true
      · simp [isPublic, ih, isPublicIp_iff.1 isPublic]
      · have tested : Tested addr := by
          rwa [isPublicIp_iff, not_not] at isPublic
        simp [isPublic, tested]

/-! What is publicly routable. -/

/-- The special-purpose blocks of IPv4 that are not globally reachable. -/
def notReachableV4 : List Block :=
  [v4Block 0 0 0 0 8, v4Block 10 0 0 0 8, v4Block 100 64 0 0 10, v4Block 127 0 0 0 8,
    v4Block 169 254 0 0 16, v4Block 172 16 0 0 12, v4Block 192 0 0 0 24, v4Block 192 0 2 0 24,
    v4Block 192 88 99 2 32, v4Block 192 168 0 0 16, v4Block 198 18 0 0 15, v4Block 198 51 100 0 24,
    v4Block 203 0 113 0 24, v4Block 224 0 0 0 4, v4Block 240 0 0 0 4, v4Block 255 255 255 255 32]

/-- Unspecified, loopback, discard-only, documentation twice, unique local, link-local, site-local
and multicast. -/
def notReachableV6 : List Block :=
  [v6Block 0 0 0 0 128, v6Block 0 0 0 1 128, v6Block 0x100 0 0 0 64, v6Block 0x2001 0xdb8 0 0 32,
    v6Block 0x3fff 0 0 0 20, v6Block 0xfc00 0 0 0 7, v6Block 0xfe80 0 0 0 10,
    v6Block 0xfec0 0 0 0 10, v6Block 0xff00 0 0 0 8]

/-- Where an IPv6 address has an IPv4 address in it: v4-compatible, NAT64 and 6to4. -/
def embeddings : List (Block × Nat) :=
  [(v6Block 0 0 0 0 96, 0), (v6Block 0x64 0xff9b 0 0 96, 0), (v6Block 0x2002 0 0 0 16, 80)]

def Public : IpAddr → Prop
  | .v4 ip => ¬ InSome notReachableV4 ip.bits
  | .v6 ip => ¬ InSome notReachableV6 ip.bits ∧
      ∀ embedding ∈ (Ipv6Addr.mappedBlock, 0) :: embeddings, embedding.1.Has ip.bits →
        ¬ InSome notReachableV4 (ip.embedded embedding.2).bits

/-! What is not public, and not tested for. -/

/-- Protocol assignments, and the 6a44 relay. -/
def missedV4 : List Block := [v4Block 192 0 0 0 24, v4Block 192 88 99 2 32]

/-- Discard-only, documentation twice, and site-local. -/
def missedV6 : List Block :=
  [v6Block 0x100 0 0 0 64, v6Block 0x2001 0xdb8 0 0 32, v6Block 0x3fff 0 0 0 20,
    v6Block 0xfec0 0 0 0 10]

def Missed : IpAddr → Prop
  | .v4 ip => InSome missedV4 ip.bits
  | .v6 ip => InSome missedV6 ip.bits ∨
      Ipv6Addr.mappedBlock.Has ip.bits ∧ InSome missedV4 (ip.embedded 0).bits ∨
      ∃ embedding ∈ embeddings, embedding.1.Has ip.bits ∧
        InSome notReachableV4 (ip.embedded embedding.2).bits

theorem covers_v4 : Covers (testedV4 ++ missedV4) notReachableV4 := by decide

theorem missed_v4 : Covers notReachableV4 missedV4 := by decide

theorem covers_v6 : Covers (testedV6 ++ missedV6) notReachableV6 := by decide

theorem missed_v6 : Covers notReachableV6 missedV6 := by decide

theorem notReachableV4_cases {bits : Nat} (isIn : InSome notReachableV4 bits) :
    InSome testedV4 bits ∨ InSome missedV4 bits :=
  inSome_append.1 (covers_v4.inSome isIn)

theorem public_of_not_missed (untested : ¬ Tested addr) (notMissed : ¬ Missed addr) :
    Public addr := by
  cases addr with
  | v4 ip =>
      intro isIn
      exact (notReachableV4_cases isIn).elim untested notMissed
  | v6 ip =>
      constructor
      · intro isIn
        rcases inSome_append.1 (covers_v6.inSome isIn) with tested | missed
        · exact untested (.inl tested)
        · exact notMissed (.inl missed)
      · intro embedding member has isIn
        rcases List.mem_cons.1 member with rfl | member
        · rcases notReachableV4_cases isIn with tested | missed
          · exact untested (.inr ⟨has, tested⟩)
          · exact notMissed (.inr (.inl ⟨has, missed⟩))
        · exact notMissed (.inr (.inr ⟨embedding, member, has, isIn⟩))

theorem not_public_of_missed (missed : Missed addr) : ¬ Public addr := by
  intro isPublic
  cases addr with
  | v4 ip => exact isPublic (missed_v4.inSome missed)
  | v6 ip =>
      obtain ⟨reachable, embedded⟩ := isPublic
      rcases missed with missed | ⟨has, missed⟩ | ⟨embedding, member, has, isIn⟩
      · exact reachable (missed_v6.inSome missed)
      · exact embedded _ List.mem_cons_self has (missed_v4.inSome missed)
      · exact embedded _ (List.mem_cons_of_mem _ member) has isIn

/-- What the guard is for, when the host resolves to these addresses. -/
def Guards (network : Network) (repoUrl : String) (addrs : List IpAddr) : Prop :=
  ensureHostIsPublic network repoUrl = .ok () → addrs ≠ [] ∧ ∀ addr ∈ addrs, Public addr

theorem guards_iff {url : GixUrl} (parsed : network.parse repoUrl = .ok url)
    (hasHost : url.host = some host)
    (resolved : network.toSocketAddrs host (url.portOrDefault.getD 0) = .ok addrs) :
    Guards network repoUrl addrs ↔
      (∃ addr ∈ addrs, Tested addr) ∨ ∀ addr ∈ addrs, ¬ Missed addr := by
  have checked : ensureHostIsPublic network repoUrl = ensureAddrsArePublic host false addrs := by
    simp [ensureHostIsPublic, parsed, hasHost, resolved]
  rw [Guards, checked, ensureAddrsArePublic_eq_ok]
  constructor
  · intro guards
    by_cases tested : ∃ addr ∈ addrs, Tested addr
    · exact .inl tested
    · refine .inr fun addr member missed => ?_
      have untested : ∀ addr ∈ addrs, ¬ Tested addr :=
        fun addr member isTested => tested ⟨addr, member, isTested⟩
      have accepted := guards ⟨.inr (List.ne_nil_of_mem member), untested⟩
      exact not_public_of_missed missed (accepted.2 addr member)
  · rintro held ⟨nonempty, untested⟩
    rcases held with ⟨addr, member, tested⟩ | notMissed
    · exact absurd tested (untested addr member)
    · refine ⟨by simpa using nonempty, fun addr member => ?_⟩
      exact public_of_not_missed (untested addr member) (notMissed addr member)

/-- A host with these addresses. -/
def resolvesTo (host : String) (addrs : List IpAddr) : Network :=
  ⟨fun _ => .ok ⟨some host, some 443⟩, fun _ _ => .ok addrs⟩

def publicServer : IpAddr := .v4 ⟨8 * 2 ^ 24 + 8 * 2 ^ 16 + 8 * 2 ^ 8 + 8, by decide⟩

/-- `64:ff9b::a9fe:a9fe`, the metadata service `169.254.169.254` behind a NAT64. -/
def metadataServer : IpAddr :=
  .v6 ⟨0x64 * 2 ^ 112 + 0xff9b * 2 ^ 96 + 0xa9fe * 2 ^ 16 + 0xa9fe, by decide⟩

theorem guards_iff_public :
    ensureHostIsPublic (resolvesTo "8.8.8.8" [publicServer]) "https://8.8.8.8/repo.git" = .ok () ∧
      Guards (resolvesTo "8.8.8.8" [publicServer]) "https://8.8.8.8/repo.git" [publicServer] := by
  refine ⟨rfl, (guards_iff rfl rfl rfl).2 (.inr ?_)⟩
  intro addr member
  rw [List.mem_singleton.1 member]
  show ¬ InSome missedV4 _
  decide

theorem metadataServer_accepted :
    ensureHostIsPublic (resolvesTo "git.example" [metadataServer]) "https://git.example/repo.git" =
        .ok () ∧
      ¬ Public metadataServer ∧
      ¬ Guards (resolvesTo "git.example" [metadataServer]) "https://git.example/repo.git"
        [metadataServer] := by
  have accepted : ensureHostIsPublic (resolvesTo "git.example" [metadataServer])
      "https://git.example/repo.git" = .ok () := rfl
  have missed : Missed metadataServer :=
    .inr (.inr ⟨(v6Block 0x64 0xff9b 0 0 96, 0), by simp [embeddings], by decide, by decide⟩)
  have notPublic := not_public_of_missed missed
  refine ⟨accepted, notPublic, fun guards => ?_⟩
  exact notPublic ((guards accepted).2 metadataServer List.mem_cons_self)

end Berth.GitFetch
