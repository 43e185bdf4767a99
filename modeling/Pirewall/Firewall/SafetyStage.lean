/-
# Pirewall.Firewall.SafetyStage -- what the v1 safety stage lets through

`_validate_safety` judges the two networks of a restrictive candidate, of any prefix length, by overlap tests
against single addresses and by the two ends of each network. An overlap with a single address is membership, so
the named addresses are excluded exactly. The special-purpose blocks are excluded as far as the ends tell:
networks are nested or apart, so a block inside a network that contains neither end lies strictly within it.

The blocks at the edges of the address space always show at an end. `169.254.0.0/16` does not, and
`safety_stage_sound_iff` says that it is the only one a candidate can hide.
-/
import Pirewall.Firewall.Lifecycle

namespace Pirewall

/-! ## Special-purpose blocks -/

/-- An address no host can own, as `_is_targetable_network` asks of the two ends of a network. -/
def IPv4Address.isSpecial (a : IPv4Address) : Bool :=
  a.isUnspecified || a.isLoopback || a.isMulticast || a.isLinkLocal || a.isReserved

def loopbackBlock : IPv4Network := ⟨0x7F000000#32, 8, by decide, by decide⟩
def multicastBlock : IPv4Network := ⟨0xE0000000#32, 4, by decide, by decide⟩
def linkLocalBlock : IPv4Network := ⟨0xA9FE0000#32, 16, by decide, by decide⟩
def reservedBlock : IPv4Network := ⟨0xF0000000#32, 4, by decide, by decide⟩

/-- The special-purpose blocks of more than one address. -/
def specialBlocks : List IPv4Network := [loopbackBlock, multicastBlock, linkLocalBlock, reservedBlock]

theorem isSpecial_iff {a : IPv4Address} :
    a.isSpecial = true ↔ a = 0#32 ∨ ∃ block ∈ specialBlocks, block.contains a = true := by
  have hunspecified : a.isUnspecified = true ↔ a = 0#32 := beq_iff_eq
  simp only [IPv4Address.isSpecial, Bool.or_eq_true, hunspecified, or_assoc, specialBlocks, List.mem_cons,
    List.not_mem_nil, or_false, exists_eq_or_imp, exists_eq_left]
  rfl

theorem isTargetableNetwork_iff {n : IPv4Network} :
    isTargetableNetwork n = true ↔ n.networkAddress.isSpecial = false ∧ n.broadcastAddress.isSpecial = false := by
  simp only [isTargetableNetwork, List.all_cons, List.all_nil, Bool.and_true, Bool.and_eq_true, Bool.not_eq_true']
  rfl

theorem covers_iff {n target : IPv4Network} :
    covers n target = true ↔ n.networkAddress.toNat ≤ target.networkAddress.toNat ∧
      target.broadcastAddress.toNat ≤ n.broadcastAddress.toNat := by
  simp only [covers, IPv4Network.supernetOf, IPv4Network.subnetOf, Bool.or_eq_true, beq_iff_eq, Bool.and_eq_true,
    decide_eq_true_eq]
  constructor
  · rintro (rfl | hends)
    · exact ⟨Nat.le_refl _, Nat.le_refl _⟩
    · exact hends
  · exact .inr

/-- A network that shares an address with a block but has its end outside it covers the block, and has a shorter
prefix. -/
theorem covers_of_common {n block : IPv4Network} {a : IPv4Address} (hn : n.contains a = true)
    (hblock : block.contains a = true) (hend : block.contains n.networkAddress = false) :
    covers n block = true ∧ n.prefixlen < block.prefixlen := by
  have hlen : n.prefixlen < block.prefixlen := by
    by_contra hle
    have hin := IPv4Network.contains_of_common hn hblock (not_lt.mp hle) n.contains_networkAddress
    exact absurd (hin.symm.trans hend) (by decide)
  have hlow := IPv4Network.contains_iff_lt.mp
    (IPv4Network.contains_of_common hblock hn hlen.le block.contains_networkAddress)
  have hhigh := IPv4Network.contains_iff_lt.mp
    (IPv4Network.contains_of_common hblock hn hlen.le block.contains_broadcastAddress)
  have hclose := n.toNat_broadcastAddress
  exact ⟨covers_iff.mpr ⟨hlow.1, by omega⟩, hlen⟩

/-- The special addresses at the two edges of the address space's halves. -/
theorem special_of_between {a : IPv4Address}
    (h : a.toNat = 0 ∨ (0x7F000000 ≤ a.toNat ∧ a.toNat < 0x80000000) ∨ 0xE0000000 ≤ a.toNat) :
    a.isSpecial = true := by
  have hlt := a.isLt
  rw [isSpecial_iff]
  rcases h with hzero | hloopback | hhigh
  · exact .inl (BitVec.eq_of_toNat_eq hzero)
  · exact .inr ⟨loopbackBlock, by decide, IPv4Network.contains_iff_lt.mpr hloopback⟩
  · by_cases hreserved : 0xF0000000 ≤ a.toNat
    · exact .inr ⟨reservedBlock, by decide, IPv4Network.contains_iff_lt.mpr ⟨hreserved, hlt⟩⟩
    · exact .inr ⟨multicastBlock, by decide, IPv4Network.contains_iff_lt.mpr ⟨hhigh, not_le.mp hreserved⟩⟩

/-- A network that covers a special block other than the link-local one has a special end itself. -/
theorem special_end_of_covers {n block : IPv4Network} (hblock : block ∈ specialBlocks) (hne : block ≠ linkLocalBlock)
    (hcovers : covers n block = true) (hlen : n.prefixlen < block.prefixlen) :
    n.networkAddress.isSpecial = true ∨ n.broadcastAddress.isSpecial = true := by
  obtain ⟨hlow, hhigh⟩ := covers_iff.mp hcovers
  have haligned := n.networkAddress_toNat
  have hclose := n.toNat_broadcastAddress
  simp only [specialBlocks, List.mem_cons, List.not_mem_nil, or_false] at hblock
  rcases hblock with rfl | rfl | rfl | rfl
  · have hlow' : n.networkAddress.toNat ≤ 0x7F000000 := hlow
    have hhigh' : 0x7FFFFFFF ≤ n.broadcastAddress.toNat := hhigh
    have hlen' : n.prefixlen < 8 := hlen
    -- the whole space starts at zero; any other such network ends where the block does
    rcases Nat.eq_zero_or_pos n.networkAddress.toNat with hzero | hpos
    · exact .inl (special_of_between (.inl hzero))
    · refine .inr (special_of_between (.inr (.inl ⟨by omega, ?_⟩)))
      interval_cases n.prefixlen <;> omega
  · have hhigh' : 0xEFFFFFFF ≤ n.broadcastAddress.toNat := hhigh
    exact .inr (special_of_between (.inr (.inr (by omega))))
  · exact absurd rfl hne
  · have hhigh' : 0xFFFFFFFF ≤ n.broadcastAddress.toNat := hhigh
    exact .inr (special_of_between (.inr (.inr (by omega))))

/-- Of a network whose ends are no special addresses: it contains one exactly when it covers the link-local block. -/
theorem special_inside_iff {n : IPv4Network} (htargetable : isTargetableNetwork n = true) :
    (∀ a, n.contains a = true → a.isSpecial = false) ↔ covers n linkLocalBlock = false := by
  constructor
  · intro hapart
    by_contra hcovers
    have hends := covers_iff.mp (Bool.eq_true_of_not_eq_false hcovers)
    have hclose := n.toNat_broadcastAddress
    have hordered : linkLocalBlock.networkAddress.toNat ≤ linkLocalBlock.broadcastAddress.toNat := by decide
    have hinside : n.contains linkLocalBlock.networkAddress = true := by
      rw [IPv4Network.contains_iff_lt]
      omega
    exact absurd ((hapart _ hinside).symm.trans (show linkLocalBlock.networkAddress.isSpecial = true by decide))
      (by decide)
  · intro huncovered a hin
    obtain ⟨hfirst, hlast⟩ := isTargetableNetwork_iff.mp htargetable
    by_contra hspecial
    rw [Bool.not_eq_false, isSpecial_iff] at hspecial
    rcases hspecial with rfl | ⟨block, hblock, hcontains⟩
    · have hzero : n.networkAddress.toNat = 0 := Nat.le_zero.mp (IPv4Network.contains_iff_lt.mp hin).1
      exact absurd ((special_of_between (.inl hzero)).symm.trans hfirst) (by decide)
    · -- the block shares an address with the network but not its first one, so the network covers it
      have hend : block.contains n.networkAddress = false := by
        by_contra hfirst'
        have hspecial := isSpecial_iff.mpr (.inr ⟨block, hblock, Bool.eq_true_of_not_eq_false hfirst'⟩)
        exact absurd (hspecial.symm.trans hfirst) (by decide)
      obtain ⟨hcovers, hlen⟩ := covers_of_common hin hcontains hend
      by_cases hlinkLocal : block = linkLocalBlock
      · exact absurd (hlinkLocal ▸ hcovers) (by rw [huncovered]; decide)
      · rcases special_end_of_covers hblock hlinkLocal hcovers hlen with hspecial | hspecial
        · exact absurd (hspecial.symm.trans hfirst) (by decide)
        · exact absurd (hspecial.symm.trans hlast) (by decide)

/-! ## The stage -/

/-- The single addresses the stage protects. -/
def protectedAddresses (config : PirewallConfig) (view : LocalAddresses) : List IPv4Address :=
  view.host ++ view.broadcast ++
    [config.admin.adminPcIp, config.network.pirewallLanIp, config.network.upstreamGateway]

/-- A network a rule may name: no address of it is special or protected, it does not cover the protected network,
and it is no wider than configured. -/
structure SafeNetwork (config : PirewallConfig) (view : LocalAddresses) (n : IPv4Network) : Prop where
  special : ∀ a, n.contains a = true → a.isSpecial = false
  apart : ∀ a ∈ protectedAddresses config view, n.contains a = false
  uncovered : covers n config.network.protectedNetwork = false
  narrow : config.firewall.minRulePrefixLength ≤ n.prefixlen

/-- What the stage has established about a network of a restrictive candidate it accepts. -/
structure AcceptedNetwork (config : PirewallConfig) (view : LocalAddresses) (n : IPv4Network) : Prop where
  targetable : isTargetableNetwork n = true
  apart : ∀ a ∈ protectedAddresses config view, n.contains a = false
  uncovered : covers n config.network.protectedNetwork = false
  narrow : config.firewall.minRulePrefixLength ≤ n.prefixlen

theorem acceptedNetwork_of_safety {candidate : CandidateRule} {config : PirewallConfig} {view : LocalAddresses}
    (hrestrictive : candidate.action.restrictive = true) (hsafety : validateSafety candidate config view = none) :
    ∀ n ∈ [candidate.source, candidate.destination], AcceptedNetwork config view n := by
  simp only [validateSafety, hrestrictive, Bool.true_eq_false, if_false] at hsafety
  split_ifs at hsafety with htargetable hlocal hadmin hself hupstream hprotected hwhole hnarrow
  simp only [Bool.not_eq_false, List.all_eq_true] at htargetable
  simp only [Bool.not_eq_true, List.any_eq_false, IPv4Network.overlaps_host] at hlocal hadmin hself hupstream
  simp only [Bool.not_eq_true, List.any_eq_false, decide_eq_true_eq] at hprotected hnarrow
  intro n hn
  refine ⟨htargetable n hn, ?_, hprotected n hn, not_lt.mp (hnarrow n hn)⟩
  intro a ha
  rcases List.mem_append.mp ha with hheld | hnamed
  · exact hlocal a hheld n hn
  · simp only [List.mem_cons, List.not_mem_nil, or_false] at hnamed
    rcases hnamed with rfl | rfl | rfl
    · exact hadmin n hn
    · exact hself n hn
    · exact hupstream n hn

/-- **What the v1 safety stage lets through**: a restrictive candidate it accepts names safe networks exactly when
neither of them covers `169.254.0.0/16`. -/
theorem safety_stage_sound_iff {candidate : CandidateRule} {config : PirewallConfig} {view : LocalAddresses}
    (hrestrictive : candidate.action.restrictive = true) (hsafety : validateSafety candidate config view = none) :
    (∀ n ∈ [candidate.source, candidate.destination], SafeNetwork config view n) ↔
      ∀ n ∈ [candidate.source, candidate.destination], covers n linkLocalBlock = false := by
  have haccepted := acceptedNetwork_of_safety hrestrictive hsafety
  constructor
  · intro hsafe n hn
    exact (special_inside_iff (haccepted n hn).targetable).mp (hsafe n hn).special
  · intro huncovered n hn
    obtain ⟨htargetable, hapart, hcover, hnarrow⟩ := haccepted n hn
    exact ⟨(special_inside_iff htargetable).mpr (huncovered n hn), hapart, hcover, hnarrow⟩

/-! ## A wide rule around the link-local block -/

/-- The small site, with rules as wide as a `/8` admitted. -/
def wideConfig : PirewallConfig :=
  { siteConfig .active with firewall := { (siteConfig .active).firewall with minRulePrefixLength := 8 } }

/-- `169.252.0.0/14`: from `169.252.0.0` to `169.255.255.255`. -/
def aroundLinkLocal : IPv4Network := ⟨IPv4Address.ofOctets 169 252 0 0, 14, by decide, by decide⟩

/-- A BLOCK of everything from a source network. -/
def blockFrom (source : IPv4Network) : CandidateRule :=
  { siteCandidate "wide" .block 9 (seconds 600) with
    source := source
    target := none
    target_is_source := fun _ h => nomatch h }

/-- `10.1.0.0/24`. -/
def apartFromLinkLocal : IPv4Network := ⟨IPv4Address.ofOctets 10 1 0 0, 24, siteLan.prefixlen_le, by decide⟩

theorem safety_stage_sound_iff_narrow :
    validateSafety (blockFrom apartFromLinkLocal) wideConfig ⟨[], []⟩ = none ∧
      ((∀ n ∈ [(blockFrom apartFromLinkLocal).source, (blockFrom apartFromLinkLocal).destination],
          SafeNetwork wideConfig ⟨[], []⟩ n) ↔
        ∀ n ∈ [(blockFrom apartFromLinkLocal).source, (blockFrom apartFromLinkLocal).destination],
          covers n linkLocalBlock = false) := by
  have hsafety : validateSafety (blockFrom apartFromLinkLocal) wideConfig ⟨[], []⟩ = none := by decide +kernel
  exact ⟨hsafety, safety_stage_sound_iff rfl hsafety⟩

/-- The stage accepts a BLOCK of `169.252.0.0/14`, which contains the link-local address `169.254.1.1`. -/
theorem link_local_address_accepted :
    validateSafety (blockFrom aroundLinkLocal) wideConfig ⟨[], []⟩ = none ∧
      (blockFrom aroundLinkLocal).action = .block ∧ wideConfig.firewall.minRulePrefixLength ≤ 32 ∧
      ¬∀ n ∈ [(blockFrom aroundLinkLocal).source, (blockFrom aroundLinkLocal).destination],
        SafeNetwork wideConfig ⟨[], []⟩ n := by
  refine ⟨by decide +kernel, rfl, by decide, ?_⟩
  intro hsafe
  have hinside : aroundLinkLocal.contains (IPv4Address.ofOctets 169 254 1 1) = true := by decide
  have hspecial := (hsafe aroundLinkLocal List.mem_cons_self).special _ hinside
  exact absurd hspecial (by decide)

end Pirewall
