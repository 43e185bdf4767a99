/-
# Pirewall.Core.Net -- addresses, networks and device identities

The address vocabulary every layer shares. An `IPv4Address` is its 32-bit value; `IPv4Address.str`
and `IPv4Address.ofString?` are the dotted-quad text forms (`str(ip)`, `IPv4Address(text)`), and the
round trip between them is what lets a kernel element key stand for the address it was written from.
An `IPv4Network` carries the proof that its host bits are zero (`ipaddress` refuses any other). A
`Mac` is a normalised unicast MAC text (`UnicastMacAddress`): group addresses and the all-zero
address have no value of this type.
-/
import Mathlib.Data.BitVec
import Mathlib.Tactic

namespace Pirewall

/-! ## IPv4 addresses -/

/-- An IPv4 address, as `int(IPv4Address(..))`. -/
abbrev IPv4Address := BitVec 32

namespace IPv4Address

/-- The `i`-th octet, most significant first. -/
def octet (a : IPv4Address) (i : Nat) : Nat := a.toNat / 2 ^ (24 - 8 * i) % 256

theorem octet_lt (a : IPv4Address) (i : Nat) : octet a i < 256 := Nat.mod_lt _ (by decide)

/-- The address with these octets. -/
def ofOctets (a b c d : Nat) : IPv4Address := BitVec.ofNat 32 (((a * 256 + b) * 256 + c) * 256 + d)

theorem ofOctets_octets (a : IPv4Address) :
    ofOctets (octet a 0) (octet a 1) (octet a 2) (octet a 3) = a := by
  have h : a.toNat < 2 ^ 32 := a.isLt
  apply BitVec.eq_of_toNat_eq
  simp only [ofOctets, octet, BitVec.toNat_ofNat]
  omega

/-- `IPv4Address._parse_octet`: one to three ASCII digits, no leading zero, at most 255. -/
def parseOctet (cs : List Char) : Option Nat :=
  if cs = [] ∨ cs.all Char.isDigit = false ∨ 3 < cs.length ∨ (cs ≠ ['0'] ∧ cs.head? = some '0') then none
  else
    let n := cs.foldl (fun n c => n * 10 + (c.toNat - 48)) 0
    if 255 < n then none else some n

/-- `IPv4Address(text)`, `none` where the constructor raises. -/
def ofChars? (cs : List Char) : Option IPv4Address :=
  match (cs.splitOn '.').map parseOctet with
  | [some a, some b, some c, some d] => some (ofOctets a b c d)
  | _ => none

def ofString? (s : String) : Option IPv4Address := ofChars? s.toList

/-- The dotted quad, `str(address)`. -/
def strChars (a : IPv4Address) : List Char :=
  ['.'].intercalate ((List.range 4).map fun i => Nat.toDigits 10 (octet a i))

def str (a : IPv4Address) : String := String.ofList (strChars a)

theorem parseOctet_toDigits : ∀ n : Fin 256,
    parseOctet (Nat.toDigits 10 n) = some n.val ∧ '.' ∉ Nat.toDigits 10 n.val := by
  decide +kernel

theorem splitOn_strChars (a : IPv4Address) :
    (strChars a).splitOn '.' = (List.range 4).map fun i => Nat.toDigits 10 (octet a i) := by
  apply List.splitOn_intercalate
  · intro l hl
    obtain ⟨i, _, rfl⟩ := List.mem_map.mp hl
    exact (parseOctet_toDigits ⟨octet a i, octet_lt a i⟩).2
  · simp

/-- Reading an address back from its text gives the address. -/
theorem ofString?_str (a : IPv4Address) : ofString? (str a) = some a := by
  have hoct : ∀ i, parseOctet (Nat.toDigits 10 (octet a i)) = some (octet a i) := fun i =>
    (parseOctet_toDigits ⟨octet a i, octet_lt a i⟩).1
  simp only [ofString?, str, String.toList_ofList, ofChars?, splitOn_strChars, List.map_map]
  simp only [List.range, List.range.loop, List.map_cons, List.map_nil, Function.comp_apply, hoct,
    ofOctets_octets]

theorem str_injective {a b : IPv4Address} (h : str a = str b) : a = b := by
  have ha := ofString?_str a
  rw [h, ofString?_str b] at ha
  exact (Option.some.inj ha).symm

end IPv4Address

/-! ## IPv4 networks -/

/-- The mask of a prefix length. -/
def netmask (prefixlen : Nat) : BitVec 32 := BitVec.allOnes 32 <<< (32 - prefixlen)

/-- An IPv4 network in strict form: the host bits are zero. -/
structure IPv4Network where
  networkAddress : IPv4Address
  prefixlen : Nat
  prefixlen_le : prefixlen ≤ 32
  strict : networkAddress &&& ~~~ netmask prefixlen = 0#32
  deriving DecidableEq

namespace IPv4Network

/-- The network of the one address `a` (`IPv4Network(f"{a}/32")`). -/
def host (a : IPv4Address) : IPv4Network where
  networkAddress := a
  prefixlen := 32
  prefixlen_le := Nat.le_refl 32
  strict := by simp [netmask]

/-- `IPv4Network("0.0.0.0/0")`. -/
def wholeInternet : IPv4Network where
  networkAddress := 0#32
  prefixlen := 0
  prefixlen_le := Nat.zero_le 32
  strict := by simp

/-- The last address of the network. -/
def broadcastAddress (n : IPv4Network) : IPv4Address := n.networkAddress ||| ~~~ netmask n.prefixlen

/-- `address in network`. -/
def contains (n : IPv4Network) (a : IPv4Address) : Bool :=
  a &&& netmask n.prefixlen == n.networkAddress

/-- `a.overlaps(b)`. -/
def overlaps (a b : IPv4Network) : Bool :=
  a.contains b.networkAddress || a.contains b.broadcastAddress
    || b.contains a.networkAddress || b.contains a.broadcastAddress

/-- `a.subnet_of(b)`. -/
def subnetOf (a b : IPv4Network) : Bool :=
  decide (b.networkAddress.toNat ≤ a.networkAddress.toNat)
    && decide (a.broadcastAddress.toNat ≤ b.broadcastAddress.toNat)

/-- `a.supernet_of(b)`. -/
def supernetOf (a b : IPv4Network) : Bool := b.subnetOf a

theorem eq_host {n : IPv4Network} (h : n.prefixlen = 32) : n = host n.networkAddress := by
  cases n
  cases h
  rfl

/-- The host bits of a network address are zero, so masking it changes nothing. -/
theorem networkAddress_and_netmask (network : IPv4Network) :
    network.networkAddress &&& netmask network.prefixlen = network.networkAddress := by
  have hstrict := network.strict
  apply BitVec.eq_of_getLsbD_eq
  intro i hi
  have hbit := congrArg (fun v => v.getLsbD i) hstrict
  simp only [BitVec.getLsbD_and, BitVec.getLsbD_not, BitVec.getLsbD_zero, hi, decide_true,
    Bool.true_and] at hbit ⊢
  cases hx : network.networkAddress.getLsbD i with
  | false => rw [Bool.false_and]
  | true =>
    rw [hx, Bool.true_and] at hbit
    simpa using hbit

/-- Masking keeps the whole blocks of an address's value. -/
theorem toNat_and_netmask (a : IPv4Address) (len : Nat) :
    (a &&& netmask len).toNat = a.toNat / 2 ^ (32 - len) * 2 ^ (32 - len) := by
  have hshift : a &&& netmask len = (a >>> (32 - len)) <<< (32 - len) := by
    ext i hi
    simp only [netmask, BitVec.getElem_and, BitVec.getElem_shiftLeft, BitVec.getElem_allOnes]
    by_cases h : i < 32 - len
    · simp [h]
    · have hadd : 32 - len + (i - (32 - len)) = i := by omega
      simp [h, hadd, hi]
  have hlt : a.toNat / 2 ^ (32 - len) * 2 ^ (32 - len) < 2 ^ 32 :=
    Nat.lt_of_le_of_lt (Nat.div_mul_le_self _ _) a.isLt
  rw [hshift, BitVec.toNat_shiftLeft, BitVec.toNat_ushiftRight, Nat.shiftRight_eq_div_pow,
    Nat.shiftLeft_eq, Nat.mod_eq_of_lt hlt]

/-- `subnet_of` compares ends and `in` compares prefixes; of one address they say the same. -/
theorem contains_of_subnetOf {n : IPv4Network} {a : IPv4Address}
    (h : (IPv4Network.host a).subnetOf n = true) : n.contains a = true := by
  have hbroadcast : n.broadcastAddress &&& netmask n.prefixlen = n.networkAddress := by
    rw [broadcastAddress, BitVec.and_or_distrib_right, networkAddress_and_netmask]
    ext i hi
    simp
  have hhost : (IPv4Network.host a).broadcastAddress = a := by
    simp [host, broadcastAddress, netmask]
  simp only [subnetOf, Bool.and_eq_true, decide_eq_true_eq, hhost] at h
  -- all three lie in the block of the network, so their whole blocks are the same
  have hlow := Nat.div_le_div_right (c := 2 ^ (32 - n.prefixlen)) h.1
  have hhigh := Nat.div_le_div_right (c := 2 ^ (32 - n.prefixlen)) h.2
  have hfirst := congrArg BitVec.toNat n.networkAddress_and_netmask
  have hlast := congrArg BitVec.toNat hbroadcast
  rw [contains, beq_iff_eq]
  apply BitVec.eq_of_toNat_eq
  rw [toNat_and_netmask] at hfirst hlast ⊢
  apply Nat.le_antisymm
  · exact (Nat.mul_le_mul_right _ hhigh).trans hlast.le
  · exact hfirst.symm.le.trans (Nat.mul_le_mul_right _ hlow)

/-- A network address is a whole number of blocks of its network's size. -/
theorem networkAddress_toNat (n : IPv4Network) :
    n.networkAddress.toNat / 2 ^ (32 - n.prefixlen) * 2 ^ (32 - n.prefixlen) = n.networkAddress.toNat := by
  rw [← toNat_and_netmask, networkAddress_and_netmask]

/-- The addresses of a network: as many as its block is large, from the network address on. -/
theorem contains_iff_lt {n : IPv4Network} {a : IPv4Address} :
    n.contains a = true ↔
      n.networkAddress.toNat ≤ a.toNat ∧ a.toNat < n.networkAddress.toNat + 2 ^ (32 - n.prefixlen) := by
  have hsize : 0 < 2 ^ (32 - n.prefixlen) := Nat.two_pow_pos _
  have haligned := n.networkAddress_toNat
  rw [contains, beq_iff_eq, ← BitVec.toNat_inj, toNat_and_netmask]
  generalize 2 ^ (32 - n.prefixlen) = size at hsize haligned ⊢
  constructor
  · intro hblock
    have hlow := Nat.div_mul_le_self a.toNat size
    have hhigh : a.toNat < a.toNat / size * size + size := Nat.lt_div_mul_add hsize
    omega
  · rintro ⟨hlow, hhigh⟩
    rw [← haligned] at hlow hhigh ⊢
    have hquotient : a.toNat / size = n.networkAddress.toNat / size := by
      rw [Nat.div_eq_iff hsize]
      omega
    rw [hquotient]

theorem contains_networkAddress (n : IPv4Network) : n.contains n.networkAddress = true := by
  rw [contains, n.networkAddress_and_netmask]
  exact beq_self_eq_true _

/-- Networks with a common address are nested: the one with the longer prefix lies in the other. -/
theorem contains_of_common {n outer : IPv4Network} {a b : IPv4Address} (hn : n.contains a = true)
    (houter : outer.contains a = true) (hlen : outer.prefixlen ≤ n.prefixlen) (hb : n.contains b = true) :
    outer.contains b = true := by
  have hsize : 0 < 2 ^ (32 - n.prefixlen) := Nat.two_pow_pos _
  have hsizes : 2 ^ (32 - outer.prefixlen) = 2 ^ (32 - n.prefixlen) * 2 ^ (n.prefixlen - outer.prefixlen) := by
    have hle := n.prefixlen_le
    rw [← Nat.pow_add]
    congr 1
    omega
  simp only [contains, beq_iff_eq, ← BitVec.toNat_inj, toNat_and_netmask] at hn houter hb ⊢
  -- the two addresses have one quotient by the smaller size, so one by the larger
  have hquotient : b.toNat / 2 ^ (32 - n.prefixlen) = a.toNat / 2 ^ (32 - n.prefixlen) :=
    Nat.eq_of_mul_eq_mul_right hsize (hb.trans hn.symm)
  rw [← houter, hsizes, ← Nat.div_div_eq_div_mul, ← Nat.div_div_eq_div_mul, hquotient]

theorem blocks_mul_size (n : IPv4Network) : 2 ^ n.prefixlen * 2 ^ (32 - n.prefixlen) = 2 ^ 32 := by
  rw [← Nat.pow_add, Nat.add_sub_cancel' n.prefixlen_le]

/-- The block of a network lies within the address space. -/
theorem networkAddress_add_size_le (n : IPv4Network) :
    n.networkAddress.toNat + 2 ^ (32 - n.prefixlen) ≤ 2 ^ 32 := by
  have hlt := n.networkAddress.isLt
  rw [← n.networkAddress_toNat, ← n.blocks_mul_size] at hlt ⊢
  have hblock := Nat.lt_of_mul_lt_mul_right hlt
  rw [← Nat.succ_mul]
  exact Nat.mul_le_mul_right _ hblock

/-- The last address closes the block. -/
theorem toNat_broadcastAddress (n : IPv4Network) :
    n.broadcastAddress.toNat + 1 = n.networkAddress.toNat + 2 ^ (32 - n.prefixlen) := by
  have hsize : 0 < 2 ^ (32 - n.prefixlen) := Nat.two_pow_pos _
  have hroom := n.networkAddress_add_size_le
  have hmask : (netmask n.prefixlen).toNat + 2 ^ (32 - n.prefixlen) = 2 ^ 32 := by
    have hones : BitVec.allOnes 32 &&& netmask n.prefixlen = netmask n.prefixlen := BitVec.allOnes_and
    have hpos : 0 < 2 ^ n.prefixlen := Nat.two_pow_pos _
    have hle := Nat.le_mul_of_pos_left (2 ^ (32 - n.prefixlen)) hpos
    have hquotient : (2 ^ n.prefixlen * 2 ^ (32 - n.prefixlen) - 1) / 2 ^ (32 - n.prefixlen) =
        2 ^ n.prefixlen - 1 := by
      rw [Nat.div_eq_iff hsize, Nat.sub_mul]
      omega
    rw [← hones, toNat_and_netmask, BitVec.toNat_allOnes, ← n.blocks_mul_size, hquotient, Nat.sub_mul]
    omega
  -- the host bits of the network address are zero, so `|` adds
  have hlast : n.broadcastAddress = n.networkAddress + ~~~ netmask n.prefixlen :=
    (BitVec.add_eq_or_of_and_eq_zero _ _ n.strict).symm
  have hnot := BitVec.toNat_not (x := netmask n.prefixlen)
  rw [hlast, BitVec.toNat_add, Nat.mod_eq_of_lt] <;> omega

theorem contains_broadcastAddress (n : IPv4Network) : n.contains n.broadcastAddress = true := by
  have hsize : 0 < 2 ^ (32 - n.prefixlen) := Nat.two_pow_pos _
  have hclose := n.toNat_broadcastAddress
  rw [contains_iff_lt]
  omega

/-- Of a single address, overlapping a network is lying in it. -/
theorem overlaps_host {n : IPv4Network} {a : IPv4Address} : n.overlaps (host a) = n.contains a := by
  have hends : (host a).networkAddress = a ∧ (host a).broadcastAddress = a := by
    simp [host, broadcastAddress, netmask]
  have hback : ∀ b, (host a).contains b = true → b = a := by
    intro b hb
    have hbetween : a.toNat ≤ b.toNat ∧ b.toNat < a.toNat + 1 := contains_iff_lt.mp hb
    apply BitVec.eq_of_toNat_eq
    omega
  rw [overlaps, hends.1, hends.2, Bool.or_self, Bool.eq_iff_iff]
  simp only [Bool.or_eq_true]
  constructor
  · rintro ((hin | hfirst) | hlast)
    · exact hin
    · exact hback _ hfirst ▸ n.contains_networkAddress
    · exact hback _ hlast ▸ n.contains_broadcastAddress
  · exact fun hin => .inl (.inl hin)

end IPv4Network

/-- `10.0.0.0/24`, the protected network of the modules' concrete inputs. -/
def siteLan : IPv4Network := ⟨IPv4Address.ofOctets 10 0 0 0, 24, by decide, by decide⟩

namespace IPv4Address

/-- Membership in a special-purpose block, given by its network address and prefix. -/
def inBlock (a : IPv4Address) (block : IPv4Address) (prefixlen : Nat) : Bool :=
  a &&& netmask prefixlen == block

def isUnspecified (a : IPv4Address) : Bool := a == 0#32
def isLoopback (a : IPv4Address) : Bool := inBlock a 0x7F000000#32 8
def isMulticast (a : IPv4Address) : Bool := inBlock a 0xE0000000#32 4
def isLinkLocal (a : IPv4Address) : Bool := inBlock a 0xA9FE0000#32 16
def isReserved (a : IPv4Address) : Bool := inBlock a 0xF0000000#32 4

end IPv4Address

/-! ## MAC addresses -/

/-- `[0-9A-Fa-f]`. -/
def isHexDigit (c : Char) : Bool :=
  c.isDigit || (decide ('a' ≤ c) && decide (c ≤ 'f')) || (decide ('A' ≤ c) && decide (c ≤ 'F'))

/-- `int(c, 16)` of one hex digit. -/
def hexValue (c : Char) : Nat :=
  if c.isDigit then c.toNat - 48 else c.toLower.toNat - 87

/-- `_normalise_mac`: six hex octets with one separator style, lowered, separated by `:`. -/
def normaliseMac : List Char → Option (List Char)
  | [a, b, s, c, d, s₂, e, f, s₃, g, h, s₄, i, j, s₅, k, l] =>
    if (s = ':' ∨ s = '-') ∧ s₂ = s ∧ s₃ = s ∧ s₄ = s ∧ s₅ = s
        ∧ [a, b, c, d, e, f, g, h, i, j, k, l].all isHexDigit = true then
      some [a.toLower, b.toLower, ':', c.toLower, d.toLower, ':', e.toLower, f.toLower, ':',
        g.toLower, h.toLower, ':', i.toLower, j.toLower, ':', k.toLower, l.toLower]
    else none
  | _ => none

/-- `_require_unicast_identity`: neither a group address nor the all-zero one. -/
def isUnicastIdentity (cs : List Char) : Bool :=
  (hexValue ((cs.drop 1).headD '1') % 2 == 0) && cs != "00:00:00:00:00:00".toList

/-- `TypeAdapter(UnicastMacAddress).validate_python`, `none` where it raises. -/
def validateUnicastMac (cs : List Char) : Option (List Char) :=
  match normaliseMac cs with
  | none => none
  | some n => if isUnicastIdentity n then some n else none

/-- The digits a hex digit lowers to are hex digits that lower to themselves. -/
theorem isHexDigit_toLower {c : Char} (h : isHexDigit c = true) :
    isHexDigit c.toLower = true ∧ c.toLower.toLower = c.toLower := by
  have hdig : ∀ n : Fin 128, isHexDigit (Char.ofNat n) = true →
      isHexDigit (Char.ofNat n).toLower = true ∧
        (Char.ofNat n).toLower.toLower = (Char.ofNat n).toLower := by decide +kernel
  have hlt : c.toNat < 128 := by
    have hle : ∀ {a b : Char}, a ≤ b → a.toNat ≤ b.toNat := fun hab => hab
    simp only [isHexDigit, Char.isDigit, Bool.or_eq_true, Bool.and_eq_true, decide_eq_true_eq] at h
    rcases h with (⟨_, h⟩ | ⟨_, h⟩) | ⟨_, h⟩
    · exact Nat.lt_of_le_of_lt (hle h) (by decide)
    · exact Nat.lt_of_le_of_lt (hle h) (by decide)
    · exact Nat.lt_of_le_of_lt (hle h) (by decide)
  have hc := hdig ⟨c.toNat, hlt⟩
  simp only [Char.ofNat_toNat] at hc
  exact hc h

/-- Normalising twice is normalising once. -/
theorem normaliseMac_idem {cs n : List Char} (h : normaliseMac cs = some n) :
    normaliseMac n = some n := by
  unfold normaliseMac at h
  split at h
  · split at h
    · rename_i hok
      obtain ⟨_, _, _, _, _, hall⟩ := hok
      simp only [List.all_cons, List.all_nil, Bool.and_true, Bool.and_eq_true] at hall
      obtain ⟨ha, hb, hc, hd, he, hf, hg, hh, hi, hj, hk, hl⟩ := hall
      subst_vars
      obtain rfl := Option.some.inj h
      simp only [normaliseMac, isHexDigit_toLower ha, isHexDigit_toLower hb, isHexDigit_toLower hc,
        isHexDigit_toLower hd, isHexDigit_toLower he, isHexDigit_toLower hf, isHexDigit_toLower hg,
        isHexDigit_toLower hh, isHexDigit_toLower hi, isHexDigit_toLower hj, isHexDigit_toLower hk,
        isHexDigit_toLower hl, List.all_cons, List.all_nil, Bool.and_true, and_self, true_or, if_true]
    · exact absurd h (by simp)
  · exact absurd h (by simp)

theorem validateUnicastMac_idem {cs n : List Char} (h : validateUnicastMac cs = some n) :
    validateUnicastMac n = some n := by
  unfold validateUnicastMac at h
  split at h
  · exact absurd h (by simp)
  · rename_i m hm
    split at h
    · rename_i hu
      obtain rfl := Option.some.inj h
      simp [validateUnicastMac, normaliseMac_idem hm, hu]
    · exact absurd h (by simp)

/-- A MAC that can name one device (`UnicastMacAddress`), in its normalised text form. -/
structure Mac where
  text : String
  canonical : validateUnicastMac text.toList = some text.toList
  deriving DecidableEq

/-- `UnicastMacAddress` validation of a text. -/
def Mac.ofChars? (cs : List Char) : Option Mac :=
  match h : validateUnicastMac cs with
  | none => none
  | some n => some ⟨String.ofList n, by simpa using validateUnicastMac_idem h⟩

def Mac.ofString? (s : String) : Option Mac := Mac.ofChars? s.toList

theorem Mac.ext_text {a b : Mac} (h : a.text = b.text) : a = b := by
  cases a
  cases b
  cases h
  rfl

/-- A MAC's own text validates to itself. -/
theorem Mac.ofString?_text (m : Mac) : Mac.ofString? m.text = some m := by
  unfold Mac.ofString? Mac.ofChars?
  split
  · rename_i h
    rw [m.canonical] at h
    exact absurd h (by simp)
  · rename_i n h
    rw [m.canonical] at h
    obtain rfl := Option.some.inj h
    exact congrArg some (Mac.ext_text (by simp))

/-- No text is both a MAC's and an address's: a MAC has colons. -/
theorem Mac.text_ne_str (m : Mac) (ip : IPv4Address) : m.text ≠ IPv4Address.str ip := by
  have hcolon : ':' ∈ m.text.toList := by
    have h := m.canonical
    unfold validateUnicastMac at h
    split at h
    · exact absurd h (by simp)
    · rename_i n hn
      unfold normaliseMac at hn
      split at hn
      · split at hn
        · obtain rfl := Option.some.inj hn
          split at h
          · rw [← Option.some.inj h]
            simp
          · exact absurd h (by simp)
        · exact absurd hn (by simp)
      · exact absurd hn (by simp)
  have hdigits : ∀ n, ':' ∉ Nat.toDigits 10 n := by
    intro n hmem
    exact absurd (Nat.isDigit_of_mem_toDigits (by decide) (by decide) hmem) (by decide)
  intro h
  rw [h, IPv4Address.str, String.toList_ofList, IPv4Address.strChars] at hcolon
  simp [List.intercalate, List.range, List.range.loop, List.intersperse, hdigits] at hcolon

end Pirewall
