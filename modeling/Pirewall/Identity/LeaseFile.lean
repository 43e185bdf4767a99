/-
# Pirewall.Identity.LeaseFile -- reading dnsmasq leases

`parse_leases` turns the lease file into the bindings the anti-spoof guard trusts. The file is written by
dnsmasq, one line a lease, and two of its five fields are whatever the DHCP client sent. The parser never
looks inside those two; the question is whether they can still reach it through the way the text is cut
into lines.

The model follows the source: `leaseLine` is the `_LEASE_LINE` pattern (its fields hold no space, so
matching is cutting at single spaces), `parseLine` is `_parse_line`, and `parseLeases` collects one
binding a pair, counts what it drops, and leaves out every address that two MACs claim. `parseLeases_bindings`
says that only the sequence of usable lines matters; the rest of the module is about what the two client
fields can do to that sequence.
-/
import Pirewall.Lib.Dict
import Pirewall.Lib.Text
import Pirewall.Core.Models

namespace Pirewall

open Lib

/-! ## One line -/

/-- `_MAX_LINE_CHARS`. -/
def maxLineChars : Nat := 512

/-- Why one lease-file line did not become a binding. -/
inductive IgnoredLease where
  | malformed | tooLong | ipv6 | infinite | outsideNetwork | notUnicast | duplicate | conflict
  deriving DecidableEq, Repr

/-- `[0-9]{1,n}`. -/
def matchesDigits (n : Nat) (cs : List Char) : Bool :=
  decide (1 ≤ cs.length) && decide (cs.length ≤ n) && cs.all Char.isDigit

/-- `[0-9A-Fa-f]{2}(?::[0-9A-Fa-f]{2}){5}`. -/
def matchesMac (cs : List Char) : Bool :=
  let octets := cs.splitOn ':'
  octets.length == 6 && octets.all fun octet => octet.length == 2 && octet.all isHexDigit

/-- `[0-9]{1,3}(?:\.[0-9]{1,3}){3}`. -/
def matchesIpv4 (cs : List Char) : Bool :=
  let octets := cs.splitOn '.'
  octets.length == 4 && octets.all (matchesDigits 3)

/-- `int(text)` of decimal digits. -/
def decimal (cs : List Char) : Nat := cs.foldl (fun n c => n * 10 + (c.toNat - 48)) 0

/-- `_LEASE_LINE.fullmatch`: the expiry, MAC and IP groups of a line with five fields. -/
def leaseLine (line : List Char) : Option (List Char × List Char × List Char) :=
  match line.splitOn ' ' with
  | [expiry, mac, ip, hostname, clientId] =>
    if matchesDigits 11 expiry && matchesMac mac && matchesIpv4 ip && hostname != [] && clientId != [] then
      some (expiry, mac, ip)
    else none
  | _ => none

/-! ### IPv6 addresses, as `ipaddress` reads them -/

/-- `_parse_hextet`: one to four hex digits. -/
def isHextet (cs : List Char) : Bool :=
  decide (1 ≤ cs.length) && decide (cs.length ≤ 4) && cs.all isHexDigit

/-- `_ip_int_from_string`, cut to whether it raises: eight hextets, or fewer around one `::`, the last two
possibly as an IPv4 address. -/
def isIpv6Text (cs : List Char) : Bool :=
  let parts := cs.splitOn ':'
  let last := parts.getLastD []
  let parts? :=
    if last.contains '.' then
      (IPv4Address.ofChars? last).map fun _ => parts.dropLast ++ [['0'], ['0']]
    else some parts
  match parts? with
  | none => false
  | some parts =>
    if (cs.splitOn ':').length < 3 then false
    else if 9 < parts.length then false
    else
      let inner := (parts.drop 1).dropLast
      match inner.findIdx? (· == []) with
      | none => parts.length == 8 && parts.all isHextet
      | some i =>
        let hi := parts.take (i + 1)
        let lo := parts.drop (i + 2)
        let hiOk := hi == [[]] || hi.all isHextet
        let loOk := lo == [[]] || lo.all isHextet
        let count := (if hi == [[]] then 0 else hi.length) + (if lo == [[]] then 0 else lo.length)
        (inner.drop (i + 1)).all (· != []) && hiOk && loOk && decide (count < 8)

/-- `_is_ipv6`: an address with an optional, non-empty scope id. -/
def isIpv6 (cs : List Char) : Bool :=
  if cs.contains '/' then false
  else
    match cs.splitOn '%' with
    | [address] => isIpv6Text address
    | [address, scope] => scope != [] && isIpv6Text address
    | _ => false

example : isIpv6 "fe80::1%eth0".toList = true ∧ isIpv6 "1:2:3:4:5:6:1.2.3.4".toList = true ∧
    isIpv6 "::".toList = true ∧ isIpv6 "1::2::3".toList = false ∧ isIpv6 ":1:2:3:4:5:6:7".toList = false := by
  decide

/-- `_parse_line`. An expiry of eleven digits is always within the range of `datetime`. -/
def parseLine (line : List Char) (protectedNetwork : IPv4Network) : Except IgnoredLease Binding :=
  match leaseLine line with
  | none =>
    let fields := line.splitOn ' '
    if fields.headD [] = "duid".toList ∨ (fields.length = 5 ∧ isIpv6 (fields.getD 2 []) = true) then
      .error .ipv6
    else .error .malformed
  | some (expiry, mac, ip) =>
    match IPv4Address.ofChars? ip with
    | none => .error .malformed
    | some ip =>
      if decimal expiry = 0 then .error .infinite
      else if protectedNetwork.contains ip = false then .error .outsideNetwork
      else
        match Mac.ofChars? mac with
        | none => .error .notUnicast
        | some mac =>
          .ok { ip, mac, source := .lease, expiresAt := some (seconds (decimal expiry)),
                expiry_matches_source := by simp }

/-! ## The file -/

/-- What `parse_leases` made of a lease file. -/
structure LeaseParse where
  bindings : List Binding
  ignored : Dict IgnoredLease Nat

/-- The state of the loop over the lines: the counts, and one binding for each `(IP, MAC)` pair. -/
abbrev LeaseScan := Dict IgnoredLease Nat × Dict (IPv4Address × Mac) Binding

/-- `ignored[reason] += 1`. -/
def countIgnored (ignored : Dict IgnoredLease Nat) (reason : IgnoredLease) : Dict IgnoredLease Nat :=
  ignored.set reason ((ignored.get? reason).getD 0 + 1)

/-- `_expiry`: lease bindings always carry one. -/
def Binding.expiry (binding : Binding) : Time := binding.expiresAt.getD 0

/-- Keep the later expiry of a pair. -/
def keepLater (byPair : Dict (IPv4Address × Mac) Binding) (binding : Binding) :
    Dict (IPv4Address × Mac) Binding :=
  match byPair.get? (binding.ip, binding.mac) with
  | some previous =>
    if binding.expiry ≤ previous.expiry then byPair else byPair.set (binding.ip, binding.mac) binding
  | none => byPair.set (binding.ip, binding.mac) binding

/-- One iteration of the loop over the lines. -/
def scanLine (protectedNetwork : IPv4Network) (scan : LeaseScan) (line : List Char) : LeaseScan :=
  if isBlank line then scan
  else if maxLineChars < line.length then (countIgnored scan.1 .tooLong, scan.2)
  else
    match parseLine line protectedNetwork with
    | .error reason => (countIgnored scan.1 reason, scan.2)
    | .ok binding =>
      let ignored :=
        if scan.2.contains (binding.ip, binding.mac) then countIgnored scan.1 .duplicate else scan.1
      (ignored, keepLater scan.2 binding)

/-- The order of `sorted(by_pair.items())`: by address, then MAC text. -/
def pairLe (x y : (IPv4Address × Mac) × Binding) : Prop :=
  x.1.1.toNat < y.1.1.toNat ∨ (x.1.1 = y.1.1 ∧ x.1.2.text ≤ y.1.2.text)

instance : DecidableRel pairLe := fun _ _ => inferInstanceAs (Decidable (_ ∨ _))

/-- `len(macs_by_ip[ip]) > 1`: another pair claims the address. -/
def isContested (byPair : Dict (IPv4Address × Mac) Binding) (ip : IPv4Address) : Bool :=
  decide (1 < (byPair.keys.filter fun pair => pair.1 == ip).length)

/-- `parse_leases`. -/
def parseLeases (text : String) (protectedNetwork : IPv4Network) : LeaseParse :=
  let (ignored, byPair) := (splitlines text.toList).foldl (scanLine protectedNetwork) (Dict.empty, Dict.empty)
  let items := byPair.entries.insertionSort pairLe
  let contested := items.filter fun item => isContested byPair item.1.1
  { bindings := (items.filter fun item => !isContested byPair item.1.1).map Prod.snd
    ignored := contested.foldl (fun ignored _ => countIgnored ignored .conflict) ignored }

/-! ## Only the usable lines matter -/

/-- The binding a line stands for, if it is used at all. -/
def leaseRecord (protectedNetwork : IPv4Network) (line : List Char) : Option Binding :=
  if isBlank line ∨ maxLineChars < line.length then none
  else (parseLine line protectedNetwork).toOption

theorem scanLine_byPair (protectedNetwork : IPv4Network) (scan : LeaseScan) (line : List Char) :
    (scanLine protectedNetwork scan line).2 =
      (leaseRecord protectedNetwork line).elim scan.2 (keepLater scan.2) := by
  unfold scanLine leaseRecord
  by_cases hblank : isBlank line = true
  · simp [hblank]
  by_cases hlong : maxLineChars < line.length
  · simp [hblank, hlong]
  simp only [hblank, hlong, or_self, if_false, Bool.false_eq_true]
  cases parseLine line protectedNetwork with
  | error reason => rfl
  | ok binding => rfl

theorem foldl_scanLine_byPair (protectedNetwork : IPv4Network) (lines : List (List Char))
    (scan : LeaseScan) :
    (lines.foldl (scanLine protectedNetwork) scan).2 =
      (lines.filterMap (leaseRecord protectedNetwork)).foldl keepLater scan.2 := by
  induction lines generalizing scan with
  | nil => rfl
  | cons line lines ih =>
    rw [List.foldl_cons, ih, scanLine_byPair, List.filterMap_cons]
    cases leaseRecord protectedNetwork line with
    | none => rfl
    | some binding => rfl

/-- The bindings of one pair each, in order, without the contested addresses. -/
def uncontested (byPair : Dict (IPv4Address × Mac) Binding) : List Binding :=
  ((byPair.entries.insertionSort pairLe).filter fun item => !isContested byPair item.1.1).map Prod.snd

/-- The bindings depend on the usable lines alone. -/
theorem parseLeases_bindings (text : String) (protectedNetwork : IPv4Network) :
    (parseLeases text protectedNetwork).bindings = uncontested
      (((splitlines text.toList).filterMap (leaseRecord protectedNetwork)).foldl keepLater Dict.empty) := by
  rw [← foldl_scanLine_byPair protectedNetwork _ (Dict.empty, Dict.empty)]
  rfl

theorem leaseRecord_source {protectedNetwork : IPv4Network} {line : List Char} {binding : Binding}
    (h : leaseRecord protectedNetwork line = some binding) : binding.source = .lease := by
  unfold leaseRecord at h
  split at h
  · exact absurd h (by simp)
  unfold parseLine at h
  split at h
  · simp only at h
    split at h
    · exact absurd h (by simp [Except.toOption])
    · exact absurd h (by simp [Except.toOption])
  · split at h
    · exact absurd h (by simp [Except.toOption])
    · split at h
      · exact absurd h (by simp [Except.toOption])
      · split at h
        · exact absurd h (by simp [Except.toOption])
        · split at h
          · exact absurd h (by simp [Except.toOption])
          · obtain rfl := Option.some.inj h
            rfl

/-- `parse_leases` returns LEASE bindings only. -/
theorem parseLeases_source {text : String} {protectedNetwork : IPv4Network} {binding : Binding}
    (h : binding ∈ (parseLeases text protectedNetwork).bindings) : binding.source = .lease := by
  rw [parseLeases_bindings] at h
  generalize hrecords : (splitlines text.toList).filterMap (leaseRecord protectedNetwork) = records at h
  have hsource : ∀ record ∈ records, record.source = .lease := by
    intro record hrecord
    rw [← hrecords] at hrecord
    obtain ⟨line, _, hline⟩ := List.mem_filterMap.mp hrecord
    exact leaseRecord_source hline
  -- every binding that is filed comes from a usable line
  suffices hfold : ∀ byPair : Dict (IPv4Address × Mac) Binding,
      (∀ record ∈ byPair.values, record.source = .lease) →
      ∀ record ∈ (records.foldl keepLater byPair).values, record.source = .lease by
    obtain ⟨item, hitem, rfl⟩ := List.mem_map.mp h
    have hmem := (List.mem_insertionSort pairLe).mp (List.mem_of_mem_filter hitem)
    exact hfold Dict.empty (by simp [Dict.values, Dict.empty]) item.2 (List.mem_map_of_mem hmem)
  clear h hrecords
  induction records with
  | nil => exact fun byPair h => h
  | cons record records ih =>
    intro byPair hfiled
    obtain ⟨hrecord, hrecords⟩ := List.forall_mem_cons.mp hsource
    have hset : ∀ other ∈ (byPair.set (record.ip, record.mac) record).values, other.source = .lease := by
      intro other hother
      rcases Dict.mem_values_set hother with rfl | hother
      · exact hrecord
      · exact hfiled other hother
    refine ih hrecords (keepLater byPair record) ?_
    unfold keepLater
    split
    · split
      · exact hfiled
      · exact hset
    · exact hset

/-- Bindings of distinct addresses are all kept. -/
theorem foldl_keepLater_entries {records : List Binding} (h : (records.map Binding.ip).Nodup)
    (byPair : Dict (IPv4Address × Mac) Binding)
    (hnew : ∀ record ∈ records, ∀ pair ∈ byPair.keys, pair.1 ≠ record.ip) :
    (records.foldl keepLater byPair).entries =
      byPair.entries ++ records.map fun record => ((record.ip, record.mac), record) := by
  induction records generalizing byPair with
  | nil => simp
  | cons record records ih =>
    rw [List.map_cons, List.nodup_cons] at h
    have hnone : byPair.get? (record.ip, record.mac) = none := by
      rw [Dict.get?_eq_none_iff]
      exact fun hmem => hnew record List.mem_cons_self _ hmem rfl
    have hkeep : keepLater byPair record = byPair.set (record.ip, record.mac) record := by
      simp only [keepLater, hnone]
    have hentries : (byPair.set (record.ip, record.mac) record).entries =
        byPair.entries ++ [((record.ip, record.mac), record)] := Dict.entries_set_of_none hnone record
    rw [List.foldl_cons, hkeep, ih h.2, hentries]
    · simp
    · intro other hother pair hpair
      rw [Dict.mem_keys_set] at hpair
      rcases hpair with rfl | hpair
      · exact fun heq => h.1 (List.mem_map.mpr ⟨other, hother, heq.symm⟩)
      · exact hnew other (List.mem_cons_of_mem _ hother) pair hpair

/-- Usable lines with distinct addresses are all bound. -/
theorem mem_uncontested {records : List Binding} (h : (records.map Binding.ip).Nodup)
    (binding : Binding) :
    binding ∈ uncontested (records.foldl keepLater Dict.empty) ↔ binding ∈ records := by
  have hentries := foldl_keepLater_entries h Dict.empty (by simp [Dict.keys, Dict.empty])
  have hkeys : (records.foldl keepLater Dict.empty).keys =
      records.map fun record => (record.ip, record.mac) := by
    rw [Dict.keys, hentries]
    simp [Dict.empty]
  have hfree : ∀ ip, isContested (records.foldl keepLater Dict.empty) ip = false := by
    intro ip
    have hcount := List.nodup_iff_count_le_one.mp h ip
    rw [List.count_eq_countP, List.countP_map, List.countP_eq_length_filter] at hcount
    rw [isContested, hkeys, decide_eq_false_iff_not, not_lt, List.filter_map, List.length_map]
    exact hcount
  have hall : uncontested (records.foldl keepLater Dict.empty) =
      ((records.foldl keepLater Dict.empty).entries.insertionSort pairLe).map Prod.snd := by
    rw [uncontested, List.filter_eq_self.mpr]
    intro item _
    rw [hfree]
    rfl
  rw [hall, List.mem_map]
  constructor
  · rintro ⟨item, hitem, rfl⟩
    rw [List.mem_insertionSort, hentries] at hitem
    obtain ⟨record, hrecord, rfl⟩ := List.mem_map.mp hitem
    exact hrecord
  · intro hmem
    refine ⟨((binding.ip, binding.mac), binding), ?_, rfl⟩
    rw [List.mem_insertionSort, hentries]
    exact List.mem_map.mpr ⟨binding, hmem, rfl⟩

/-! ## The client's fields -/

/-- A lease line as dnsmasq writes it: three fields of its own and two that the client chose. -/
structure LeaseLine where
  expiry : List Char
  mac : List Char
  ip : List Char
  hostname : List Char
  clientId : List Char
  /-- The daemon's own fields are plain text. -/
  own : ∀ field ∈ [expiry, mac, ip], ∀ c ∈ field, c ≠ ' ' ∧ isLineBoundary c = false
  /-- The client's are anything but spaces and line feeds. -/
  client : ∀ field ∈ [hostname, clientId], field ≠ [] ∧ ' ' ∉ field ∧ '\n' ∉ field

/-- Five fields, separated by single spaces. -/
def joinFields (expiry mac ip hostname clientId : List Char) : List Char :=
  expiry ++ ' ' :: (mac ++ ' ' :: (ip ++ ' ' :: (hostname ++ ' ' :: clientId)))

namespace LeaseLine

def chars (line : LeaseLine) : List Char :=
  joinFields line.expiry line.mac line.ip line.hostname line.clientId

/-- The binding the daemon's fields stand for: the line's, had the client sent nothing (`*`). -/
def binding? (line : LeaseLine) (protectedNetwork : IPv4Network) : Option Binding :=
  (parseLine (joinFields line.expiry line.mac line.ip ['*'] ['*']) protectedNetwork).toOption

/-- The client's fields leave their line in one piece as far as its fifth field. -/
def Intact (line : LeaseLine) : Prop :=
  (∀ c ∈ line.hostname, isLineBoundary c = false) ∧ ∀ c ∈ line.clientId.head?, isLineBoundary c = false

instance (line : LeaseLine) : Decidable line.Intact :=
  decidable_of_iff (line.hostname.all (fun c => !isLineBoundary c) = true ∧
    line.clientId.head?.all (fun c => !isLineBoundary c) = true) (by
      cases h : line.clientId.head? <;> simp [Intact, h])

end LeaseLine

/-- A line of the file: a lease line, or anything else the two files have in common. -/
inductive FileLine where
  | other (line : List Char)
  | lease (line : LeaseLine)

namespace FileLine

def chars : FileLine → List Char
  | .other line => line
  | .lease line => line.chars

/-- No line feed inside, and no longer than `parse_leases` reads. -/
def WellFormed (line : FileLine) : Prop := '\n' ∉ line.chars ∧ line.chars.length ≤ maxLineChars

/-- The same line but for what the client put into it. -/
def SameButClient : FileLine → FileLine → Prop
  | .other line, .other line' => line = line'
  | .lease line, .lease line' => line.expiry = line'.expiry ∧ line.mac = line'.mac ∧ line.ip = line'.ip
  | _, _ => False

/-- The usable pieces of a line. -/
def records (protectedNetwork : IPv4Network) (line : FileLine) : List Binding :=
  (splitlines (line.chars ++ ['\n'])).filterMap (leaseRecord protectedNetwork)

/-- What the line binds if the client does not interfere. -/
def claimed (protectedNetwork : IPv4Network) : FileLine → List Binding
  | .other line => (FileLine.other line).records protectedNetwork
  | .lease line => (line.binding? protectedNetwork).toList

end FileLine

/-- The lease file with these lines. -/
def leaseText (lines : List FileLine) : String :=
  String.ofList ((lines.map FileLine.chars).flatMap (· ++ ['\n']))

/-! ### What splitting leaves of a lease line -/

section Fields

variable {expiry mac ip hostname clientId : List Char}

theorem splitOn_joinFields (hfields : ∀ field ∈ [expiry, mac, ip, hostname, clientId], ' ' ∉ field) :
    (joinFields expiry mac ip hostname clientId).splitOn ' ' = [expiry, mac, ip, hostname, clientId] := by
  simp only [List.forall_mem_cons] at hfields
  obtain ⟨h1, h2, h3, h4, h5, _⟩ := hfields
  rw [joinFields, List.splitOn_append_cons_self_of_not_mem h1, List.splitOn_append_cons_self_of_not_mem h2,
    List.splitOn_append_cons_self_of_not_mem h3, List.splitOn_append_cons_self_of_not_mem h4,
    List.splitOn_eq_singleton h5]

theorem leaseLine_count {line : List Char} {groups : List Char × List Char × List Char}
    (h : leaseLine line = some groups) : line.count ' ' = 4 := by
  unfold leaseLine at h
  split at h
  · rename_i hsplit
    have hlen := length_splitOn ' ' line
    rw [hsplit] at hlen
    simpa using hlen.symm
  · exact absurd h (by simp)

theorem leaseLine_not_blank {line : List Char} {groups : List Char × List Char × List Char}
    (h : leaseLine line = some groups) : isBlank line = false := by
  unfold leaseLine at h
  split at h
  · rename_i expiry mac ip hostname clientId hsplit
    split at h
    · rename_i hmatch
      simp only [Bool.and_eq_true, matchesDigits, decide_eq_true_eq] at hmatch
      obtain ⟨⟨⟨⟨⟨⟨hpos, _⟩, hdigits⟩, _⟩, _⟩, _⟩, _⟩ := hmatch
      obtain ⟨d, expiry, rfl⟩ := List.exists_cons_of_length_pos hpos
      have hline : [' '].intercalate (line.splitOn ' ') = line := List.intercalate_splitOn ' '
      rw [hsplit] at hline
      rw [isBlank, ← hline]
      have hd := isSpace_of_isDigit (List.all_eq_true.mp hdigits d List.mem_cons_self)
      simp [List.intercalate, hd]
    · exact absurd h (by simp)
  · exact absurd h (by simp)

theorem parseLine_toOption_of_none {line : List Char} (h : leaseLine line = none)
    (protectedNetwork : IPv4Network) : (parseLine line protectedNetwork).toOption = none := by
  simp only [parseLine, h]
  split <;> rfl

/-- A piece with too few fields is not used. -/
theorem leaseRecord_of_count {line : List Char} (h : line.count ' ' ≠ 4) (protectedNetwork : IPv4Network) :
    leaseRecord protectedNetwork line = none := by
  have hnone : leaseLine line = none := by
    by_contra hsome
    obtain ⟨groups, hgroups⟩ := Option.ne_none_iff_exists'.mp hsome
    exact h (leaseLine_count hgroups)
  unfold leaseRecord
  split
  · rfl
  · exact parseLine_toOption_of_none hnone protectedNetwork

/-- A line of five fields, the last two of them not empty, is used for its first three alone. -/
theorem leaseRecord_joinFields (hfields : ∀ field ∈ [expiry, mac, ip, hostname, clientId], ' ' ∉ field)
    (hhost : hostname ≠ []) (hid : clientId ≠ [])
    (hshort : (joinFields expiry mac ip hostname clientId).length ≤ maxLineChars)
    (protectedNetwork : IPv4Network) :
    leaseRecord protectedNetwork (joinFields expiry mac ip hostname clientId) =
      (parseLine (joinFields expiry mac ip ['*'] ['*']) protectedNetwork).toOption := by
  have hstar : ∀ field ∈ [expiry, mac, ip, ['*'], ['*']], ' ' ∉ field := by
    simp only [List.forall_mem_cons] at hfields ⊢
    exact ⟨hfields.1, hfields.2.1, hfields.2.2.1, by decide, by decide, by simp⟩
  have hsame : leaseLine (joinFields expiry mac ip hostname clientId) =
      leaseLine (joinFields expiry mac ip ['*'] ['*']) := by
    simp only [leaseLine, splitOn_joinFields hfields, splitOn_joinFields hstar]
    have h1 : (hostname != []) = true := by simpa using hhost
    have h2 : (clientId != []) = true := by simpa using hid
    simp [h1, h2]
  cases hline : leaseLine (joinFields expiry mac ip hostname clientId) with
  | none =>
    rw [parseLine_toOption_of_none (hsame ▸ hline)]
    unfold leaseRecord
    split
    · rfl
    · exact parseLine_toOption_of_none hline protectedNetwork
  | some groups =>
    have hparse : parseLine (joinFields expiry mac ip hostname clientId) protectedNetwork =
        parseLine (joinFields expiry mac ip ['*'] ['*']) protectedNetwork := by
      rw [hline] at hsame
      simp only [parseLine, hline, ← hsame]
    rw [leaseRecord, if_neg, hparse]
    simp [leaseLine_not_blank hline, hshort]

end Fields

namespace LeaseLine

variable (line : LeaseLine)

/-- The daemon's part of the line. -/
def front : List Char := line.expiry ++ ' ' :: (line.mac ++ ' ' :: (line.ip ++ [' ']))

theorem front_plain : ∀ c ∈ line.front, isLineBoundary c = false := by
  have hown := line.own
  simp only [List.forall_mem_cons] at hown
  have hspace : isLineBoundary ' ' = false := by decide
  intro c hc
  simp only [front, List.mem_append, List.mem_cons, List.not_mem_nil, or_false] at hc
  rcases hc with hc | rfl | hc | rfl | hc | rfl
  · exact (hown.1 c hc).2
  · exact hspace
  · exact (hown.2.1 c hc).2
  · exact hspace
  · exact (hown.2.2.1 c hc).2
  · exact hspace

theorem front_count : line.front.count ' ' = 3 := by
  have hown : ∀ field ∈ [line.expiry, line.mac, line.ip], field.count ' ' = 0 := fun field hfield =>
    List.count_eq_zero.mpr fun hc => (line.own field hfield ' ' hc).1 rfl
  simp only [List.forall_mem_cons] at hown
  simp [front, List.count_append, hown]

theorem chars_eq : line.chars = line.front ++ (line.hostname ++ ' ' :: line.clientId) := by
  simp [chars, joinFields, front]

theorem spaceless (clientId : List Char) (h : ' ' ∉ clientId) :
    ∀ field ∈ [line.expiry, line.mac, line.ip, line.hostname, clientId], ' ' ∉ field := by
  have hown : ∀ field ∈ [line.expiry, line.mac, line.ip], ' ' ∉ field := fun field hfield hc =>
    (line.own field hfield ' ' hc).1 rfl
  have hclient := line.client line.hostname (by simp)
  simp only [List.forall_mem_cons] at hown ⊢
  exact ⟨hown.1, hown.2.1, hown.2.2.1, hclient.2.1, h, by simp⟩

end LeaseLine

theorem filterMap_leaseRecord_nil {pieces : List (List Char)} (h : ∀ piece ∈ pieces, piece.count ' ' ≠ 4)
    (protectedNetwork : IPv4Network) : pieces.filterMap (leaseRecord protectedNetwork) = [] :=
  List.filterMap_eq_nil_iff.mpr fun piece hpiece => leaseRecord_of_count (h piece hpiece) protectedNetwork

/-- An intact lease line binds what its first three fields say. -/
theorem LeaseLine.records_of_intact (line : LeaseLine) (hshort : line.chars.length ≤ maxLineChars)
    (h : line.Intact) (protectedNetwork : IPv4Network) :
    (FileLine.lease line).records protectedNetwork = (line.binding? protectedNetwork).toList := by
  obtain ⟨hhost, hhead⟩ := h
  obtain ⟨hidne, hidspace, hidlf⟩ := line.client line.clientId (by simp)
  obtain ⟨before, b, after, hsplit, hbefore, hb⟩ := exists_first_boundary
    (t := line.clientId ++ ['\n']) ⟨'\n', by simp, by decide⟩
  -- what the line keeps of the client id: everything before its first boundary, at least one character
  have hkept : ∃ more, line.clientId = before ++ more ∧ before ≠ [] ∧ '\n' ∉ before := by
    have hle : before.length ≤ line.clientId.length := by
      have := congrArg List.length hsplit
      simp only [List.length_append, List.length_cons, List.length_nil] at this
      omega
    have htake := congrArg (List.take before.length) hsplit
    rw [List.take_append_of_le_length hle, List.take_left] at htake
    refine ⟨line.clientId.drop before.length, by rw [← htake]; simp [List.length_take, hle], ?_, ?_⟩
    · rintro rfl
      obtain ⟨c, clientId, hcons⟩ := List.exists_cons_of_ne_nil hidne
      rw [hcons, List.cons_append, List.nil_append] at hsplit
      rw [hcons] at hhead
      exact absurd (hhead c rfl) (by rw [(List.cons.inj hsplit).1, hb]; simp)
    · exact fun hlf => absurd (hbefore '\n' hlf) (by decide)
  obtain ⟨more, hmore, hne, _⟩ := hkept
  have hplain : ∀ c ∈ line.front ++ (line.hostname ++ ' ' :: before), isLineBoundary c = false := by
    intro c hc
    rcases List.mem_append.mp hc with hc | hc
    · exact line.front_plain c hc
    rcases List.mem_append.mp hc with hc | hc
    · exact hhost c hc
    rcases List.mem_cons.mp hc with rfl | hc
    · decide
    · exact hbefore c hc
  have htext : (FileLine.lease line).chars ++ ['\n'] =
      (line.front ++ (line.hostname ++ ' ' :: before)) ++ b :: after := by
    rw [FileLine.chars, line.chars_eq]
    simp only [List.append_assoc, List.cons_append, List.append_cancel_left_eq, List.cons.injEq, true_and]
    exact hsplit
  obtain ⟨rest, hlines, hrest⟩ := splitlines_first hplain hb ' '
  have hspaces : after.count ' ' = 0 := by
    have hcount := congrArg (List.count ' ') hsplit
    have hlf : ['\n'].count ' ' = 0 := by decide
    rw [List.count_append, List.count_append, List.count_eq_zero.mpr hidspace, hlf, List.count_cons] at hcount
    omega
  have hfirst : line.front ++ (line.hostname ++ ' ' :: before) =
      joinFields line.expiry line.mac line.ip line.hostname before := by
    simp [joinFields, LeaseLine.front]
  have hrecord := leaseRecord_joinFields (line.spaceless before
    fun hc => hidspace (hmore ▸ List.mem_append_left _ hc)) (line.client _ (by simp)).1 hne (by
      have hlen := hshort
      rw [line.chars_eq, hmore] at hlen
      rw [← hfirst]
      simp only [List.length_append, List.length_cons] at hlen ⊢
      omega) protectedNetwork
  rw [FileLine.records, htext, hlines, hfirst, List.filterMap_cons, hrecord,
    filterMap_leaseRecord_nil (fun piece hpiece => by have := hrest piece hpiece; omega)]
  unfold LeaseLine.binding?
  cases (parseLine (joinFields line.expiry line.mac line.ip ['*'] ['*']) protectedNetwork).toOption with
  | none => rfl
  | some binding => rfl

/-- A lease line that is cut before its fifth field binds nothing. -/
theorem LeaseLine.records_of_not_intact (line : LeaseLine) (h : ¬ line.Intact)
    (protectedNetwork : IPv4Network) : (FileLine.lease line).records protectedNetwork = [] := by
  obtain ⟨_, hhostspace, _⟩ := line.client line.hostname (by simp)
  obtain ⟨hidne, hidspace, _⟩ := line.client line.clientId (by simp)
  have hlf : ['\n'].count ' ' = 0 := by decide
  by_cases hhost : ∀ c ∈ line.hostname, isLineBoundary c = false
  · -- the client id begins with a boundary: four fields and an empty fifth
    obtain ⟨c, clientId, hcons⟩ := List.exists_cons_of_ne_nil hidne
    have hc : isLineBoundary c = true := by
      by_contra hc
      refine h ⟨hhost, ?_⟩
      rw [hcons]
      rintro _ ⟨⟩
      exact Bool.eq_false_iff.mpr hc
    have hplain : ∀ d ∈ line.front ++ (line.hostname ++ [' ']), isLineBoundary d = false := by
      intro d hd
      rcases List.mem_append.mp hd with hd | hd
      · exact line.front_plain d hd
      rcases List.mem_append.mp hd with hd | hd
      · exact hhost d hd
      · rw [List.mem_singleton.mp hd]
        decide
    have htext : (FileLine.lease line).chars ++ ['\n'] =
        (line.front ++ (line.hostname ++ [' '])) ++ c :: (clientId ++ ['\n']) := by
      rw [FileLine.chars, line.chars_eq, hcons]
      simp
    obtain ⟨rest, hlines, hrest⟩ := splitlines_first (t := clientId ++ ['\n']) hplain hc ' '
    have hcount : (clientId ++ ['\n']).count ' ' = 0 := by
      rw [List.count_append, hlf, List.count_eq_zero.mpr fun hd => hidspace (hcons ▸ List.mem_cons_of_mem c hd)]
    have hempty : leaseLine (line.front ++ (line.hostname ++ [' '])) = none := by
      have hjoin : line.front ++ (line.hostname ++ [' ']) =
          joinFields line.expiry line.mac line.ip line.hostname [] := by
        simp [joinFields, LeaseLine.front]
      simp [hjoin, leaseLine, splitOn_joinFields (line.spaceless [] (by simp))]
    have hnone : leaseRecord protectedNetwork (line.front ++ (line.hostname ++ [' '])) = none := by
      unfold leaseRecord
      split
      · rfl
      · exact parseLine_toOption_of_none hempty protectedNetwork
    rw [FileLine.records, htext, hlines, List.filterMap_cons, hnone,
      filterMap_leaseRecord_nil (fun piece hpiece => by have := hrest piece hpiece; omega)]
  · -- the hostname has a boundary: three fields and a beginning before it, at most two after
    simp only [not_forall, Bool.not_eq_false] at hhost
    obtain ⟨c, hmem, hc⟩ := hhost
    obtain ⟨before, b, after, hsplit, hbefore, hb⟩ := exists_first_boundary ⟨c, hmem, hc⟩
    have hplain : ∀ d ∈ line.front ++ before, isLineBoundary d = false := by
      intro d hd
      rcases List.mem_append.mp hd with hd | hd
      · exact line.front_plain d hd
      · exact hbefore d hd
    have htext : (FileLine.lease line).chars ++ ['\n'] =
        (line.front ++ before) ++ b :: (after ++ ' ' :: (line.clientId ++ ['\n'])) := by
      rw [FileLine.chars, line.chars_eq, hsplit]
      simp
    obtain ⟨rest, hlines, hrest⟩ := splitlines_first
      (t := after ++ ' ' :: (line.clientId ++ ['\n'])) hplain hb ' '
    rw [hsplit] at hhostspace
    have hafter : (after ++ ' ' :: (line.clientId ++ ['\n'])).count ' ' = 1 := by
      rw [List.count_append, List.count_cons_self, List.count_append, hlf,
        List.count_eq_zero.mpr hidspace, List.count_eq_zero.mpr fun hd => hhostspace (by simp [hd])]
    have hfirst : (line.front ++ before).count ' ' = 3 := by
      rw [List.count_append, line.front_count, List.count_eq_zero.mpr fun hd => hhostspace (by simp [hd])]
    rw [FileLine.records, htext, hlines]
    refine filterMap_leaseRecord_nil ?_ protectedNetwork
    intro piece hpiece
    rcases List.mem_cons.mp hpiece with rfl | hpiece
    · omega
    · have := hrest piece hpiece
      omega

/-! ## Noninterference -/

/-- Wherever the two files have a lease that can be used, the client's fields cut neither line, or
both. -/
def ClientFieldsAgree (protectedNetwork : IPv4Network) (lines lines' : List FileLine) : Prop :=
  ∀ (i : Nat) (line line' : LeaseLine), lines[i]? = some (.lease line) → lines'[i]? = some (.lease line') →
    (line.binding? protectedNetwork).isSome = true → (line.Intact ↔ line'.Intact)

/-- No address is leased twice. -/
def AddressesDistinct (protectedNetwork : IPv4Network) (lines : List FileLine) : Prop :=
  ((lines.flatMap (FileLine.claimed protectedNetwork)).map Binding.ip).Nodup

theorem LeaseLine.binding?_congr {line line' : LeaseLine}
    (h : FileLine.SameButClient (.lease line) (.lease line')) (protectedNetwork : IPv4Network) :
    line.binding? protectedNetwork = line'.binding? protectedNetwork := by
  obtain ⟨h1, h2, h3⟩ := h
  simp only [LeaseLine.binding?, h1, h2, h3]

theorem FileLine.records_lease {line : LeaseLine} (h : (FileLine.lease line).WellFormed)
    (protectedNetwork : IPv4Network) : (FileLine.lease line).records protectedNetwork =
      if line.Intact then (line.binding? protectedNetwork).toList else [] := by
  split
  · exact line.records_of_intact h.2 ‹_› protectedNetwork
  · exact line.records_of_not_intact ‹_› protectedNetwork

theorem FileLine.records_congr {x y : FileLine} (hsame : SameButClient x y) (hx : x.WellFormed)
    (hy : y.WellFormed) (protectedNetwork : IPv4Network)
    (hagree : ∀ line line', x = .lease line → y = .lease line' →
      (line.binding? protectedNetwork).isSome = true → (line.Intact ↔ line'.Intact)) :
    x.records protectedNetwork = y.records protectedNetwork := by
  match x, y, hsame with
  | .other line, .other _, rfl => rfl
  | .lease line, .lease line', hsame =>
    rw [records_lease hx, records_lease hy, ← LeaseLine.binding?_congr hsame protectedNetwork]
    by_cases hsome : (line.binding? protectedNetwork).isSome = true
    · simp only [hagree line line' rfl rfl hsome]
    · rw [Option.not_isSome_iff_eq_none.mp hsome]
      simp

theorem FileLine.claimed_congr {x y : FileLine} (hsame : SameButClient x y)
    (protectedNetwork : IPv4Network) : x.claimed protectedNetwork = y.claimed protectedNetwork := by
  match x, y, hsame with
  | .other line, .other _, rfl => rfl
  | .lease line, .lease line', hsame =>
    simp only [FileLine.claimed, LeaseLine.binding?_congr hsame protectedNetwork]

/-- A line binds at most what it claims. -/
theorem FileLine.records_sublist {x : FileLine} (h : x.WellFormed) (protectedNetwork : IPv4Network) :
    List.Sublist (x.records protectedNetwork) (x.claimed protectedNetwork) := by
  cases x with
  | other line => exact List.Sublist.refl _
  | lease line =>
    rw [records_lease h]
    split
    · exact List.Sublist.refl _
    · exact List.nil_sublist _

/-- The bindings of a file of well-formed lines, line by line. -/
theorem parseLeases_leaseText {lines : List FileLine} (h : ∀ line ∈ lines, line.WellFormed)
    (protectedNetwork : IPv4Network) :
    (parseLeases (leaseText lines) protectedNetwork).bindings =
      uncontested ((lines.flatMap (FileLine.records protectedNetwork)).foldl keepLater Dict.empty) := by
  have hlf : ∀ chars ∈ lines.map FileLine.chars, '\n' ∉ chars := by
    intro chars hchars
    obtain ⟨line, hline, rfl⟩ := List.mem_map.mp hchars
    exact (h line hline).1
  rw [parseLeases_bindings, leaseText, String.toList_ofList, splitlines_flatMap hlf, List.flatMap_map,
    List.filterMap_flatMap]
  rfl

theorem flatMap_records_congr {lines lines' : List FileLine}
    (hsame : List.Forall₂ FileLine.SameButClient lines lines') (h : ∀ line ∈ lines, line.WellFormed)
    (h' : ∀ line ∈ lines', line.WellFormed) (protectedNetwork : IPv4Network)
    (hagree : ClientFieldsAgree protectedNetwork lines lines') :
    lines.flatMap (FileLine.records protectedNetwork) =
      lines'.flatMap (FileLine.records protectedNetwork) := by
  induction hsame with
  | nil => rfl
  | @cons x y xs ys hxy _ ih =>
    obtain ⟨hx, hxs⟩ := List.forall_mem_cons.mp h
    obtain ⟨hy, hys⟩ := List.forall_mem_cons.mp h'
    have hhead := FileLine.records_congr hxy hx hy protectedNetwork fun line line' hl hl' =>
      hagree 0 line line' (by simp [hl]) (by simp [hl'])
    have htail := ih hxs hys fun i line line' hl hl' =>
      hagree (i + 1) line line' (by simpa using hl) (by simpa using hl')
    rw [List.flatMap_cons, List.flatMap_cons, hhead, htail]

/-- In a file without repeated addresses, a usable lease is bound exactly if its line is intact. -/
theorem mem_bindings_iff_intact {lines : List FileLine} (h : ∀ line ∈ lines, line.WellFormed)
    (protectedNetwork : IPv4Network) (hdistinct : AddressesDistinct protectedNetwork lines) {i : Nat}
    {line : LeaseLine} (hline : lines[i]? = some (.lease line)) {binding : Binding}
    (hbinding : line.binding? protectedNetwork = some binding) :
    binding ∈ (parseLeases (leaseText lines) protectedNetwork).bindings ↔ line.Intact := by
  have hsub : List.Sublist (lines.flatMap (FileLine.records protectedNetwork))
      (lines.flatMap (FileLine.claimed protectedNetwork)) := by
    clear hline hdistinct
    induction lines with
    | nil => exact List.Sublist.refl _
    | cons x xs ih =>
      obtain ⟨hx, hxs⟩ := List.forall_mem_cons.mp h
      exact (FileLine.records_sublist hx protectedNetwork).append (ih hxs)
  rw [parseLeases_leaseText h, mem_uncontested (hdistinct.sublist (hsub.map Binding.ip))]
  obtain ⟨hi, hget⟩ := List.getElem?_eq_some_iff.mp hline
  have hsplit : lines = lines.take i ++ .lease line :: lines.drop (i + 1) := by
    rw [← hget, List.cons_getElem_drop_succ, List.take_append_drop]
  have hwf := h _ (List.mem_of_getElem? hline)
  constructor
  · intro hmem
    by_contra hcut
    -- another line would have to claim the same address
    unfold AddressesDistinct at hdistinct
    rw [hsplit, List.flatMap_append, List.flatMap_cons, List.map_append, List.map_append] at hdistinct
    rw [hsplit, List.flatMap_append, List.flatMap_cons, FileLine.records_lease hwf, if_neg hcut,
      List.nil_append] at hmem
    have hclaims : binding.ip ∈ ((FileLine.lease line).claimed protectedNetwork).map Binding.ip :=
      List.mem_map_of_mem (by simp [FileLine.claimed, hbinding])
    rw [List.nodup_append] at hdistinct
    obtain ⟨_, htail, hcross⟩ := hdistinct
    rw [List.nodup_append] at htail
    have hother : ∀ part : List FileLine, (∀ l ∈ part, l ∈ lines) →
        binding ∈ part.flatMap (FileLine.records protectedNetwork) →
        binding.ip ∈ (part.flatMap (FileLine.claimed protectedNetwork)).map Binding.ip := by
      intro part hpart hb
      obtain ⟨l, hl, hbl⟩ := List.mem_flatMap.mp hb
      exact List.mem_map_of_mem (List.mem_flatMap.mpr ⟨l, hl,
        (FileLine.records_sublist (h l (hpart l hl)) protectedNetwork).subset hbl⟩)
    rcases List.mem_append.mp hmem with hb | hb
    · exact hcross _ (hother _ (fun l hl => List.mem_of_mem_take hl) hb) _
        (List.mem_append_left _ hclaims) rfl
    · exact htail.2.2 _ hclaims _ (hother _ (fun l hl => List.mem_of_mem_drop hl) hb) rfl
  · intro hintact
    refine List.mem_flatMap.mpr ⟨.lease line, List.mem_of_getElem? hline, ?_⟩
    rw [FileLine.records_lease hwf, if_pos hintact, hbinding]
    simp

/-- **What a client's fields can do.** Two lease files with the same lines, but for the hostnames and
client ids, give the same bindings if the client's fields cut the same usable leases in both. In files
that lease no address twice this is exactly when they do. -/
theorem client_fields_and_bindings (protectedNetwork : IPv4Network) (lines lines' : List FileLine)
    (hsame : List.Forall₂ FileLine.SameButClient lines lines') (h : ∀ line ∈ lines, line.WellFormed)
    (h' : ∀ line ∈ lines', line.WellFormed) :
    (ClientFieldsAgree protectedNetwork lines lines' →
      (parseLeases (leaseText lines) protectedNetwork).bindings =
        (parseLeases (leaseText lines') protectedNetwork).bindings) ∧
    (AddressesDistinct protectedNetwork lines →
      (parseLeases (leaseText lines) protectedNetwork).bindings =
        (parseLeases (leaseText lines') protectedNetwork).bindings →
      ClientFieldsAgree protectedNetwork lines lines') := by
  constructor
  · intro hagree
    rw [parseLeases_leaseText h, parseLeases_leaseText h',
      flatMap_records_congr hsame h h' protectedNetwork hagree]
  · intro hdistinct heq i line line' hline hline' hsome
    have hclaimed : lines.flatMap (FileLine.claimed protectedNetwork) =
        lines'.flatMap (FileLine.claimed protectedNetwork) := by
      clear hdistinct heq hline hline' h h'
      induction hsame with
      | nil => rfl
      | cons hxy _ ih => rw [List.flatMap_cons, List.flatMap_cons, FileLine.claimed_congr hxy, ih]
    have hdistinct' : AddressesDistinct protectedNetwork lines' := by
      unfold AddressesDistinct
      rw [← hclaimed]
      exact hdistinct
    obtain ⟨binding, hbinding⟩ := Option.isSome_iff_exists.mp hsome
    have hpair : FileLine.SameButClient (.lease line) (.lease line') := by
      obtain ⟨hi, hget⟩ := List.getElem?_eq_some_iff.mp hline
      obtain ⟨hi', hget'⟩ := List.getElem?_eq_some_iff.mp hline'
      have hpaired := (List.forall₂_iff_get.mp hsame).2 i hi hi'
      simpa [hget, hget'] using hpaired
    rw [← mem_bindings_iff_intact h protectedNetwork hdistinct hline hbinding, heq,
      mem_bindings_iff_intact h' protectedNetwork hdistinct' hline'
        ((LeaseLine.binding?_congr hpair protectedNetwork) ▸ hbinding)]

/-- One device's lease, with the hostname it sent. -/
def deviceLine (hostname : List Char)
    (h : ∀ field ∈ [hostname, ['*']], field ≠ [] ∧ ' ' ∉ field ∧ '\n' ∉ field) : FileLine :=
  .lease ⟨"1893456000".toList, "02:00:00:00:00:09".toList, "10.0.0.9".toList, hostname, ['*'], by
    have hown : ["1893456000".toList, "02:00:00:00:00:09".toList, "10.0.0.9".toList].all
        (fun field => field.all fun c => c != ' ' && !isLineBoundary c) = true := by decide +kernel
    simpa only [List.all_eq_true, Bool.and_eq_true, bne_iff_ne, Bool.not_eq_true'] using hown, h⟩

def phoneFile : List FileLine := [deviceLine "phone".toList (by decide)]

def tabletFile : List FileLine := [deviceLine "tablet".toList (by decide)]

/-- The phone's hostname with a line separator in it. -/
def cutFile : List FileLine := [deviceLine "pho\u2028ne".toList (by decide)]

theorem client_fields_and_bindings_plain_hostnames :
    (parseLeases (leaseText phoneFile) siteLan).bindings =
      (parseLeases (leaseText tabletFile) siteLan).bindings ∧
    (parseLeases (leaseText phoneFile) siteLan).bindings.map Binding.ip =
      [IPv4Address.ofOctets 10 0 0 9] := by
  refine ⟨?_, by decide +kernel⟩
  refine (client_fields_and_bindings siteLan phoneFile tabletFile
    (.cons ⟨rfl, rfl, rfl⟩ .nil) ?_ ?_).1 ?_
  · simp only [phoneFile, List.forall_mem_singleton]
    exact ⟨by decide +kernel, by decide +kernel⟩
  · simp only [tabletFile, List.forall_mem_singleton]
    exact ⟨by decide +kernel, by decide +kernel⟩
  · intro i line line' hline hline' _
    cases i with
    | zero =>
      simp only [phoneFile, tabletFile, deviceLine, List.getElem?_cons_zero, Option.some.injEq,
        FileLine.lease.injEq] at hline hline'
      subst hline hline'
      exact iff_of_true (by decide +kernel) (by decide +kernel)
    | succ i => exact absurd hline (by simp [phoneFile])

/-- With a line separator in its hostname the phone loses its binding. -/
theorem hostname_removes_binding :
    List.Forall₂ FileLine.SameButClient phoneFile cutFile ∧
    (∀ line ∈ phoneFile, line.WellFormed) ∧ (∀ line ∈ cutFile, line.WellFormed) ∧
    (parseLeases (leaseText phoneFile) siteLan).bindings ≠
      (parseLeases (leaseText cutFile) siteLan).bindings := by
  refine ⟨.cons ⟨rfl, rfl, rfl⟩ .nil, ?_, ?_, ?_⟩
  · simp only [phoneFile, List.forall_mem_singleton]
    exact ⟨by decide +kernel, by decide +kernel⟩
  · simp only [cutFile, List.forall_mem_singleton]
    exact ⟨by decide +kernel, by decide +kernel⟩
  · have hphone : (parseLeases (leaseText phoneFile) siteLan).bindings.length = 1 := by
      decide +kernel
    have hcut : (parseLeases (leaseText cutFile) siteLan).bindings.length = 0 := by
      decide +kernel
    intro heq
    rw [heq, hcut] at hphone
    exact absurd hphone (by decide)

end Pirewall
