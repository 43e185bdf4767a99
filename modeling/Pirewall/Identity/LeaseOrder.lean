/-
# Pirewall.Identity.LeaseOrder -- the order of the lease lines does not matter

`parse_leases` goes through the file once, with one dictionary for what it keeps and one for what it drops. Both are
described here without the order of the lines. A pair is kept with the latest binding that any line has for it
(`get?_foldl_keepLater`), and of a pair that comes more than once all but one line are duplicates, whichever they are
(`foldl_scanLine_ignored`). What follows the loop, the sort and the search for conflicts, only reads the pairs that
were kept.

The order of the lines can be seen in one place of the loop: of two lines of one pair it compares each with what was
kept so far, and keeps the later expiry. Of equal expiries it keeps one of two leases that do not differ
(`Binding.eq_of_expiry`), which is why the comparison may be strict or not. The dictionary itself remembers the order
in which its keys came, so what is compared is what it has under each key, and the sort makes a list of that which
depends on the entries alone (`insertionSort_congr`).

The counts are sums over the lines: one for each line that is dropped at sight, by its reason, one duplicate for each
used line that brings no new pair, and the conflicts, by the pairs that were kept.
-/
import Pirewall.Identity.LeaseFile
import Pirewall.Lib.Tally
import Mathlib.Data.String.Basic

namespace Pirewall

open Lib

/-! ## What is kept -/

/-- The `(IP, MAC)` pair a binding is kept under. -/
def Binding.pair (binding : Binding) : IPv4Address × Mac := (binding.ip, binding.mac)

/-- A binding of a pair that expires no earlier than any other of that pair. -/
structure Latest (records : List Binding) (pair : IPv4Address × Mac) (binding : Binding) : Prop where
  mem : binding ∈ records
  pair_eq : binding.pair = pair
  latest : ∀ other ∈ records, other.pair = pair → other.expiry ≤ binding.expiry

/-- A lease is its pair and its expiry. -/
theorem Binding.eq_of_expiry {binding other : Binding} (hsource : binding.source = .lease)
    (hother : other.source = .lease) (hpair : binding.pair = other.pair) (hexpiry : binding.expiry = other.expiry) :
    binding = other := by
  obtain ⟨ip, mac, source, expiresAt, hmatches⟩ := binding
  obtain ⟨ip', mac', source', expiresAt', hmatches'⟩ := other
  obtain ⟨rfl, rfl⟩ := Prod.mk.inj hpair
  subst hsource hother
  obtain ⟨t, rfl⟩ := Option.isSome_iff_exists.mp (hmatches.mp rfl)
  obtain ⟨t', rfl⟩ := Option.isSome_iff_exists.mp (hmatches'.mp rfl)
  have htime : t = t' := hexpiry
  subst htime
  rfl

/-- A line changes nothing for other pairs. -/
theorem get?_keepLater_of_ne {byPair : Dict (IPv4Address × Mac) Binding} {binding : Binding}
    {pair : IPv4Address × Mac} (h : pair ≠ binding.pair) :
    (keepLater byPair binding).get? pair = byPair.get? pair := by
  have hset : (byPair.set (binding.ip, binding.mac) binding).get? pair = byPair.get? pair := by
    rw [Dict.get?_set]
    exact if_neg h
  rw [keepLater]
  split
  · split
    · rfl
    · exact hset
  · exact hset

/-- Of its own pair, the later of the two is kept. -/
theorem get?_keepLater_self (byPair : Dict (IPv4Address × Mac) Binding) (binding : Binding) :
    (keepLater byPair binding).get? binding.pair =
      some (match byPair.get? binding.pair with
        | some previous => if binding.expiry ≤ previous.expiry then previous else binding
        | none => binding) := by
  rw [keepLater, Binding.pair]
  cases hget : byPair.get? (binding.ip, binding.mac) with
  | none => exact (Dict.get?_set _ _ _ _).trans (if_pos rfl)
  | some previous =>
    simp only
    split
    · exact hget
    · exact (Dict.get?_set _ _ _ _).trans (if_pos rfl)

/-- A pair is kept when a line has it, with the latest binding there is for it. -/
theorem get?_foldl_keepLater (records : List Binding) (pair : IPv4Address × Mac) :
    match (records.foldl keepLater Dict.empty).get? pair with
    | none => ∀ record ∈ records, record.pair ≠ pair
    | some binding => Latest records pair binding := by
  -- the last line decides for its own pair only
  induction records using List.reverseRecOn with
  | nil => simp
  | append_singleton records record ih =>
    rw [List.foldl_append, List.foldl_cons, List.foldl_nil]
    by_cases hpair : pair = record.pair
    · subst hpair
      rw [get?_keepLater_self]
      cases hget : (records.foldl keepLater Dict.empty).get? record.pair with
      | none =>
        rw [hget] at ih
        refine ⟨by simp, rfl, ?_⟩
        intro other hother hsame
        rcases List.mem_append.mp hother with hold | hnew
        · exact absurd hsame (ih other hold)
        · rw [List.mem_singleton.mp hnew]
      | some previous =>
        rw [hget] at ih
        obtain ⟨hmem, hprevious, hlatest⟩ := ih
        simp only
        split
        -- what was kept expires no earlier, and stays
        · rename_i hle
          refine ⟨List.mem_append_left _ hmem, hprevious, ?_⟩
          intro other hother hsame
          rcases List.mem_append.mp hother with hold | hnew
          · exact hlatest other hold hsame
          · rw [List.mem_singleton.mp hnew]
            exact hle
        -- the new line expires later than all of before
        · rename_i hlt
          refine ⟨by simp, rfl, ?_⟩
          intro other hother hsame
          rcases List.mem_append.mp hother with hold | hnew
          · exact (hlatest other hold hsame).trans (not_le.mp hlt).le
          · rw [List.mem_singleton.mp hnew]
    · rw [get?_keepLater_of_ne hpair]
      cases hget : (records.foldl keepLater Dict.empty).get? pair with
      | none =>
        rw [hget] at ih
        intro other hother
        rcases List.mem_append.mp hother with hold | hnew
        · exact ih other hold
        · rw [List.mem_singleton.mp hnew]
          exact Ne.symm hpair
      | some binding =>
        rw [hget] at ih
        refine ⟨List.mem_append_left _ ih.mem, ih.pair_eq, ?_⟩
        intro other hother hsame
        rcases List.mem_append.mp hother with hold | hnew
        · exact ih.latest other hold hsame
        · rw [List.mem_singleton.mp hnew] at hsame
          exact absurd hsame.symm hpair

/-- What is kept depends on which bindings the lines have, not on their order. -/
theorem get?_foldl_keepLater_congr {records records' : List Binding}
    (hsource : ∀ record ∈ records, record.source = .lease) (hsame : ∀ record, record ∈ records ↔ record ∈ records')
    (pair : IPv4Address × Mac) :
    (records.foldl keepLater Dict.empty).get? pair = (records'.foldl keepLater Dict.empty).get? pair := by
  have h := get?_foldl_keepLater records pair
  have h' := get?_foldl_keepLater records' pair
  cases hget : (records.foldl keepLater Dict.empty).get? pair with
  | none =>
    rw [hget] at h
    cases hget' : (records'.foldl keepLater Dict.empty).get? pair with
    | none => rfl
    | some binding' =>
      rw [hget'] at h'
      exact absurd h'.pair_eq (h binding' ((hsame binding').mpr h'.mem))
  | some binding =>
    rw [hget] at h
    cases hget' : (records'.foldl keepLater Dict.empty).get? pair with
    | none =>
      rw [hget'] at h'
      exact absurd h.pair_eq (h' binding ((hsame binding).mp h.mem))
    | some binding' =>
      rw [hget'] at h'
      have hmem' := (hsame binding').mpr h'.mem
      have hexpiry : binding.expiry = binding'.expiry := le_antisymm
        (h'.latest binding ((hsame binding).mp h.mem) h.pair_eq) (h.latest binding' hmem' h'.pair_eq)
      rw [Binding.eq_of_expiry (hsource binding h.mem) (hsource binding' hmem')
        (h.pair_eq.trans h'.pair_eq.symm) hexpiry]

/-! ## What follows the loop -/

instance : Std.Total pairLe where
  total := by
    rintro ⟨⟨ip, mac⟩, _⟩ ⟨⟨ip', mac'⟩, _⟩
    rcases lt_trichotomy ip.toNat ip'.toNat with hlt | heq | hgt
    · exact .inl (.inl hlt)
    · have hip : ip = ip' := BitVec.eq_of_toNat_eq heq
      rcases le_total mac.text mac'.text with hle | hle
      · exact .inl (.inr ⟨hip, hle⟩)
      · exact .inr (.inr ⟨hip.symm, hle⟩)
    · exact .inr (.inl hgt)

instance : IsTrans ((IPv4Address × Mac) × Binding) pairLe where
  trans := by
    rintro ⟨⟨ip, mac⟩, _⟩ ⟨⟨ip', mac'⟩, _⟩ ⟨⟨ip'', mac''⟩, _⟩ (hlt | ⟨hip, hle⟩) (hlt' | ⟨hip', hle'⟩)
    · exact .inl (Nat.lt_trans hlt hlt')
    · exact .inl (hip' ▸ hlt)
    · exact .inl (hip ▸ hlt')
    · exact .inr ⟨hip.trans hip', le_trans hle hle'⟩

/-- Entries that precede each other are of one pair. -/
theorem pairLe_antisymm {x y : (IPv4Address × Mac) × Binding} (hxy : pairLe x y) (hyx : pairLe y x) : x.1 = y.1 := by
  obtain ⟨⟨ip, mac⟩, binding⟩ := x
  obtain ⟨⟨ip', mac'⟩, binding'⟩ := y
  simp only [pairLe] at hxy hyx
  rcases hxy with hlt | ⟨hip, hle⟩
  · rcases hyx with hlt' | ⟨hip', -⟩
    · omega
    · rw [hip'] at hlt
      exact absurd hlt (Nat.lt_irrefl _)
  · rcases hyx with hlt' | ⟨-, hle'⟩
    · rw [hip] at hlt'
      exact absurd hlt' (Nat.lt_irrefl _)
    · rw [Prod.mk.injEq]
      exact ⟨hip, Mac.ext_text (le_antisymm hle hle')⟩

/-- The sort depends on the entries alone. -/
theorem insertionSort_congr {byPair byPair' : Dict (IPv4Address × Mac) Binding}
    (h : ∀ pair, byPair.get? pair = byPair'.get? pair) :
    byPair.entries.insertionSort pairLe = byPair'.entries.insertionSort pairLe := by
  have hperm := Dict.entries_perm_of_get? h
  refine List.Perm.eq_of_pairwise ?_ (List.pairwise_insertionSort pairLe _) (List.pairwise_insertionSort pairLe _)
    ((List.perm_insertionSort pairLe _).trans (hperm.trans (List.perm_insertionSort pairLe _).symm))
  rintro ⟨pair, binding⟩ ⟨pair', binding'⟩ hx hy hxy hyx
  obtain rfl : pair = pair' := pairLe_antisymm hxy hyx
  rw [List.mem_insertionSort] at hx hy
  have hget := Dict.mem_entries_iff.mp hx
  rw [h pair, Dict.mem_entries_iff.mp hy] at hget
  rw [Option.some.inj hget]

/-- Whether an address is contested depends on the pairs that were kept. -/
theorem isContested_congr {byPair byPair' : Dict (IPv4Address × Mac) Binding}
    (h : ∀ pair, byPair.get? pair = byPair'.get? pair) (ip : IPv4Address) :
    isContested byPair ip = isContested byPair' ip := by
  have hperm : byPair.keys.Perm byPair'.keys := (Dict.entries_perm_of_get? h).map Prod.fst
  rw [isContested, isContested, (hperm.filter _).length_eq]

/-! ## What is dropped -/

/-- Why a line is dropped at sight. -/
def lineReason (protectedNetwork : IPv4Network) (line : List Char) : Option IgnoredLease :=
  if isBlank line then none
  else if maxLineChars < line.length then some .tooLong
  else
    match parseLine line protectedNetwork with
    | .error reason => some reason
    | .ok _ => none

/-- A line that is not blank is either dropped at sight or used. -/
theorem lineReason_or_leaseRecord (protectedNetwork : IPv4Network) (line : List Char) :
    (lineReason protectedNetwork line).toList.length + (leaseRecord protectedNetwork line).toList.length =
      if isBlank line then 0 else 1 := by
  unfold lineReason leaseRecord
  by_cases hblank : isBlank line = true
  · simp [hblank]
  by_cases hlong : maxLineChars < line.length
  · simp [hblank, hlong]
  simp only [hblank, hlong, or_self, if_false, Bool.false_eq_true]
  cases parseLine line protectedNetwork <;> rfl

/-- What one line counts. -/
theorem scanLine_ignored (protectedNetwork : IPv4Network) (scan : LeaseScan) (line : List Char) :
    (scanLine protectedNetwork scan line).1 =
      match lineReason protectedNetwork line, leaseRecord protectedNetwork line with
      | some reason, _ => countIgnored scan.1 reason
      | none, some binding =>
        if scan.2.contains binding.pair then countIgnored scan.1 .duplicate else scan.1
      | none, none => scan.1 := by
  unfold scanLine lineReason leaseRecord
  by_cases hblank : isBlank line = true
  · simp [hblank]
  by_cases hlong : maxLineChars < line.length
  · simp [hblank, hlong]
  simp only [hblank, hlong, or_self, if_false, Bool.false_eq_true]
  cases parseLine line protectedNetwork with
  | error reason => rfl
  | ok binding => rfl

/-- A pair is new, or it is not. -/
theorem size_keepLater (byPair : Dict (IPv4Address × Mac) Binding) (binding : Binding) :
    (keepLater byPair binding).size = byPair.size + if byPair.contains binding.pair then 0 else 1 := by
  rw [keepLater, Binding.pair, Dict.contains]
  cases hget : byPair.get? (binding.ip, binding.mac) with
  | none => exact Dict.size_set_of_none hget binding
  | some previous =>
    simp only
    split
    · rfl
    · exact Dict.size_set_of_some hget binding

/-- The loop counts what it drops at sight, and a duplicate for every used line that brings no new pair. -/
theorem foldl_scanLine_ignored (protectedNetwork : IPv4Network) (lines : List (List Char)) :
    let scan := lines.foldl (scanLine protectedNetwork) (Dict.empty, Dict.empty)
    ∃ duplicates, scan.2.size + duplicates = (lines.filterMap (leaseRecord protectedNetwork)).length ∧
      Lib.Tally scan.1 (lines.filterMap (lineReason protectedNetwork) ++ List.replicate duplicates .duplicate) := by
  induction lines using List.reverseRecOn with
  | nil => exact ⟨0, rfl, Lib.Tally.empty⟩
  | append_singleton lines line ih =>
    obtain ⟨duplicates, hsize, htally⟩ := ih
    simp only [List.foldl_append, List.foldl_cons, List.foldl_nil, scanLine_ignored, scanLine_byPair,
      filterMap_concat_toList]
    generalize lines.foldl (scanLine protectedNetwork) (Dict.empty, Dict.empty) = scan at hsize htally ⊢
    have hone := lineReason_or_leaseRecord protectedNetwork line
    cases hreason : lineReason protectedNetwork line with
    | some reason =>
      rw [hreason] at hone
      have hnone : leaseRecord protectedNetwork line = none := by
        cases hrecord : leaseRecord protectedNetwork line with
        | none => rfl
        | some binding =>
          rw [hrecord] at hone
          split at hone <;> simp at hone
      rw [hnone]
      refine ⟨duplicates, by simpa using hsize, (htally.countUp reason).perm ?_⟩
      rw [Option.toList_some, List.append_assoc, List.append_assoc]
      exact List.perm_append_comm.append_left _
    | none =>
      rw [Option.toList_none, List.append_nil]
      cases hrecord : leaseRecord protectedNetwork line with
      | none => exact ⟨duplicates, by simpa using hsize, htally⟩
      | some binding =>
        simp only [Option.elim_some, Option.toList_some, List.length_append, List.length_singleton,
          size_keepLater]
        by_cases hknown : scan.2.contains binding.pair = true
        · refine ⟨duplicates + 1, by simp only [hknown, if_true]; omega, ?_⟩
          rw [if_pos hknown, List.replicate_succ', ← List.append_assoc]
          exact htally.countUp .duplicate
        · refine ⟨duplicates, by simp only [hknown]; simp; omega, ?_⟩
          rw [if_neg hknown]
          exact htally

/-- Counting conflicts. -/
theorem foldl_conflict {α : Type} {ignored : Dict IgnoredLease Nat} {keys : List IgnoredLease}
    (h : Lib.Tally ignored keys) (contested : List α) :
    Lib.Tally (contested.foldl (fun ignored _ => countIgnored ignored .conflict) ignored)
      (keys ++ List.replicate contested.length .conflict) := by
  induction contested generalizing ignored keys with
  | nil => exact (List.append_nil keys).symm ▸ h
  | cons item contested ih =>
    have hrest := ih (h.countUp .conflict)
    rw [List.append_assoc] at hrest
    exact hrest

/-! ## The file -/

/-- The lease file with these lines, each terminated. -/
def linesText (lines : List (List Char)) : String := String.ofList (lines.flatMap (· ++ ['\n']))

/-- Lines without separators are read back one by one. -/
theorem splitlines_linesText {lines : List (List Char)} (h : ∀ line ∈ lines, ∀ c ∈ line, isLineBoundary c = false) :
    splitlines (linesText lines).toList = lines := by
  have hnone : ∀ line ∈ lines, '\n' ∉ line := fun line hline hc => absurd (h line hline '\n' hc) (by decide)
  have hone : ∀ line ∈ lines, splitlines (line ++ ['\n']) = [line] := by
    intro line hline
    rw [splitlines, splitlinesFrom_append_plain (h line hline), splitlinesFrom_boundary (by decide) (by decide)]
    simp [splitlinesFrom]
  rw [linesText, String.toList_ofList, splitlines_flatMap hnone]
  clear h hnone
  induction lines with
  | nil => rfl
  | cons line lines ih =>
    rw [List.flatMap_cons, hone line List.mem_cons_self,
      ih fun other hother => hone other (List.mem_cons_of_mem _ hother)]
    rfl

/-- The pairs that are kept are those that some line has. -/
theorem mem_keys_foldl_keepLater {records : List Binding} {pair : IPv4Address × Mac} :
    pair ∈ (records.foldl keepLater Dict.empty).keys ↔ ∃ record ∈ records, record.pair = pair := by
  have h := get?_foldl_keepLater records pair
  constructor
  · intro hkey
    obtain ⟨binding, hget⟩ := Dict.mem_keys_iff.mp hkey
    rw [hget] at h
    exact ⟨binding, h.mem, h.pair_eq⟩
  · rintro ⟨record, hrecord, hpair⟩
    by_contra hnot
    rw [Dict.get?_eq_none_iff.mpr hnot] at h
    exact h record hrecord hpair

/-- An address is contested when two pairs claim it. -/
theorem isContested_eq_false_iff {byPair : Dict (IPv4Address × Mac) Binding} {ip : IPv4Address} :
    isContested byPair ip = false ↔
      ∀ pair ∈ byPair.keys, ∀ pair' ∈ byPair.keys, pair.1 = ip → pair'.1 = ip → pair = pair' := by
  have hnodup : (byPair.keys.filter fun pair => pair.1 == ip).Nodup := byPair.nodup.filter _
  have hmem : ∀ pair, pair ∈ (byPair.keys.filter fun pair => pair.1 == ip) ↔ pair ∈ byPair.keys ∧ pair.1 = ip := by
    intro pair
    rw [List.mem_filter, beq_iff_eq]
  rw [isContested, decide_eq_false_iff_not, not_lt]
  generalize (byPair.keys.filter fun pair => pair.1 == ip) = claims at hnodup hmem ⊢
  constructor
  · intro hlength pair hpair pair' hpair' hip hip'
    have hin := (hmem pair).mpr ⟨hpair, hip⟩
    have hin' := (hmem pair').mpr ⟨hpair', hip'⟩
    cases claims with
    | nil => exact absurd hin List.not_mem_nil
    | cons claim rest =>
      obtain rfl := List.eq_nil_of_length_eq_zero (Nat.le_zero.mp (Nat.le_of_succ_le_succ hlength))
      rw [List.mem_singleton.mp hin, List.mem_singleton.mp hin']
  · intro hsame
    cases claims with
    | nil => exact Nat.zero_le 1
    | cons claim rest =>
      cases rest with
      | nil => exact Nat.le_refl 1
      | cons claim' rest =>
        obtain ⟨hkey, hip⟩ := (hmem claim).mp List.mem_cons_self
        obtain ⟨hkey', hip'⟩ := (hmem claim').mp (List.mem_cons_of_mem _ List.mem_cons_self)
        rw [hsame claim hkey claim' hkey' hip hip', List.nodup_cons] at hnodup
        exact absurd List.mem_cons_self hnodup.1

section Uncontested

variable {records : List Binding}

/-- What is bound: the latest binding of a pair whose address no other pair claims. -/
theorem mem_uncontested_iff (hsource : ∀ record ∈ records, record.source = .lease) {binding : Binding} :
    binding ∈ uncontested (records.foldl keepLater Dict.empty) ↔
      Latest records binding.pair binding ∧ ∀ other ∈ records, other.ip = binding.ip → other.mac = binding.mac := by
  constructor
  · intro h
    obtain ⟨⟨pair, binding⟩, hitem, rfl⟩ := List.mem_map.mp h
    obtain ⟨hentry, hfree⟩ := List.mem_filter.mp hitem
    rw [List.mem_insertionSort] at hentry
    have hlatest := get?_foldl_keepLater records pair
    rw [Dict.mem_entries_iff.mp hentry] at hlatest
    rw [Bool.not_eq_true', isContested_eq_false_iff] at hfree
    obtain rfl := hlatest.pair_eq
    refine ⟨hlatest, ?_⟩
    intro other hother hip
    have hsame := hfree other.pair (mem_keys_foldl_keepLater.mpr ⟨other, hother, rfl⟩) binding.pair
      (mem_keys_foldl_keepLater.mpr ⟨binding, hlatest.mem, rfl⟩) hip rfl
    exact (Prod.mk.inj hsame).2
  · rintro ⟨hlatest, hfree⟩
    have hget := get?_foldl_keepLater records binding.pair
    cases hkept : (records.foldl keepLater Dict.empty).get? binding.pair with
    | none =>
      rw [hkept] at hget
      exact absurd rfl (hget binding hlatest.mem)
    | some kept =>
      rw [hkept] at hget
      have hsame : kept = binding := Binding.eq_of_expiry (hsource kept hget.mem) (hsource binding hlatest.mem)
        hget.pair_eq (le_antisymm (hlatest.latest kept hget.mem hget.pair_eq) (hget.latest binding hlatest.mem rfl))
      subst hsame
      refine List.mem_map.mpr ⟨(kept.pair, kept), List.mem_filter.mpr ⟨?_, ?_⟩, rfl⟩
      · rw [List.mem_insertionSort]
        exact Dict.mem_entries_iff.mpr hkept
      · rw [Bool.not_eq_true', isContested_eq_false_iff]
        intro pair hpair pair' hpair' hip hip'
        obtain ⟨record, hrecord, rfl⟩ := mem_keys_foldl_keepLater.mp hpair
        obtain ⟨record', hrecord', rfl⟩ := mem_keys_foldl_keepLater.mp hpair'
        exact Prod.ext (hip.trans hip'.symm) ((hfree record hrecord hip).trans (hfree record' hrecord' hip').symm)

/-- No address is bound twice. -/
theorem nodup_uncontested : ((uncontested (records.foldl keepLater Dict.empty)).map Binding.ip).Nodup := by
  rw [uncontested, List.map_map]
  refine List.Nodup.map_on ?_ (.filter _ ?_)
  · rintro ⟨pair, binding⟩ hx ⟨pair', binding'⟩ hy hip
    obtain ⟨hentry, hfree⟩ := List.mem_filter.mp hx
    obtain ⟨hentry', -⟩ := List.mem_filter.mp hy
    rw [List.mem_insertionSort] at hentry hentry'
    have hlatest := get?_foldl_keepLater records pair
    have hlatest' := get?_foldl_keepLater records pair'
    rw [Dict.mem_entries_iff.mp hentry] at hlatest
    rw [Dict.mem_entries_iff.mp hentry'] at hlatest'
    rw [Bool.not_eq_true', isContested_eq_false_iff] at hfree
    have hfst : pair'.1 = pair.1 := by
      rw [← hlatest.pair_eq, ← hlatest'.pair_eq]
      exact hip.symm
    obtain rfl := hfree pair (List.mem_map_of_mem hentry) pair' (List.mem_map_of_mem hentry') rfl hfst
    have hget := Dict.mem_entries_iff.mp hentry
    rw [Dict.mem_entries_iff.mp hentry'] at hget
    rw [Option.some.inj hget]
  · exact (List.perm_insertionSort pairLe _).nodup_iff.mpr (.of_map _ (Dict.nodup _))

end Uncontested

/-- Every line that is not blank is dropped at sight or used. -/
theorem length_lines (protectedNetwork : IPv4Network) (lines : List (List Char)) :
    (lines.filterMap (lineReason protectedNetwork)).length + (lines.filterMap (leaseRecord protectedNetwork)).length =
      (lines.filter fun line => !isBlank line).length := by
  induction lines with
  | nil => rfl
  | cons line lines ih =>
    have hone := lineReason_or_leaseRecord protectedNetwork line
    rw [filterMap_cons_toList, filterMap_cons_toList, List.length_append, List.length_append]
    by_cases hblank : isBlank line = true
    · rw [if_pos hblank] at hone
      rw [List.filter_cons_of_neg (by simp [hblank]), ← ih]
      omega
    · rw [if_neg hblank] at hone
      rw [List.filter_cons_of_pos (by simp [hblank]), List.length_cons, ← ih]
      omega

/-- The counts of the whole file, by the lines that are used and those dropped at sight. -/
theorem parseLeases_ignored (text : String) (protectedNetwork : IPv4Network) :
    let lines := splitlines text.toList
    let byPair := (lines.filterMap (leaseRecord protectedNetwork)).foldl keepLater Dict.empty
    ∃ duplicates, byPair.size + duplicates = (lines.filterMap (leaseRecord protectedNetwork)).length ∧
      Lib.Tally (parseLeases text protectedNetwork).ignored
        (lines.filterMap (lineReason protectedNetwork) ++ List.replicate duplicates .duplicate ++
          List.replicate ((byPair.entries.insertionSort pairLe).filter fun item => isContested byPair item.1.1).length
            .conflict) := by
  obtain ⟨duplicates, hsize, htally⟩ := foldl_scanLine_ignored protectedNetwork (splitlines text.toList)
  rw [foldl_scanLine_byPair] at hsize
  refine ⟨duplicates, hsize, ?_⟩
  have hconflicts := foldl_conflict htally (((((splitlines text.toList).filterMap
    (leaseRecord protectedNetwork)).foldl keepLater Dict.empty).entries.insertionSort pairLe).filter fun item =>
      isContested (((splitlines text.toList).filterMap (leaseRecord protectedNetwork)).foldl keepLater Dict.empty)
        item.1.1)
  simp only [parseLeases, foldl_scanLine_byPair]
  exact hconflicts

/-! ## Any order of the lines -/

section

variable (protectedNetwork : IPv4Network) {lines lines' : List (List Char)}

/-- What a line yields is a lease. -/
theorem records_source {record : Binding} (h : record ∈ lines.filterMap (leaseRecord protectedNetwork)) :
    record.source = .lease := by
  obtain ⟨line, -, hline⟩ := List.mem_filterMap.mp h
  exact leaseRecord_source hline

/-- The same lines in another order leave the same under every pair. -/
theorem get?_records_congr (hperm : lines.Perm lines') (pair : IPv4Address × Mac) :
    ((lines.filterMap (leaseRecord protectedNetwork)).foldl keepLater Dict.empty).get? pair =
      ((lines'.filterMap (leaseRecord protectedNetwork)).foldl keepLater Dict.empty).get? pair :=
  get?_foldl_keepLater_congr (fun _ => records_source protectedNetwork)
    (fun _ => (hperm.filterMap _).mem_iff) pair

/-- The bindings, of the lines in either order. -/
theorem bindings_perm (hperm : lines.Perm lines') :
    uncontested ((lines.filterMap (leaseRecord protectedNetwork)).foldl keepLater Dict.empty) =
      uncontested ((lines'.filterMap (leaseRecord protectedNetwork)).foldl keepLater Dict.empty) := by
  have hget := get?_records_congr protectedNetwork hperm
  rw [uncontested, uncontested, insertionSort_congr hget]
  simp only [isContested_congr hget]

/-- The counts, of the lines in either order. -/
theorem ignored_perm (h : ∀ line ∈ lines, ∀ c ∈ line, isLineBoundary c = false) (hperm : lines.Perm lines')
    (reason : IgnoredLease) :
    (parseLeases (linesText lines) protectedNetwork).ignored.get? reason =
      (parseLeases (linesText lines') protectedNetwork).ignored.get? reason := by
  have h' : ∀ line ∈ lines', ∀ c ∈ line, isLineBoundary c = false := fun line hline =>
    h line (hperm.mem_iff.mpr hline)
  obtain ⟨duplicates, hsize, htally⟩ := parseLeases_ignored (linesText lines) protectedNetwork
  obtain ⟨duplicates', hsize', htally'⟩ := parseLeases_ignored (linesText lines') protectedNetwork
  rw [splitlines_linesText h] at hsize htally
  rw [splitlines_linesText h'] at hsize' htally'
  have hget := get?_records_congr protectedNetwork hperm
  have hentries := Dict.entries_perm_of_get? hget
  -- as many pairs are kept of as many used lines, so as many lines were duplicates
  have hduplicates : duplicates = duplicates' := by
    have hkept : _ = _ := hentries.length_eq
    have hused := (hperm.filterMap (leaseRecord protectedNetwork)).length_eq
    simp only [Dict.size] at hsize hsize'
    omega
  subst hduplicates
  rw [insertionSort_congr hget] at htally
  simp only [isContested_congr hget] at htally
  exact htally.get?_congr htally'
    (fun reason => ((((hperm.filterMap _).append_right _).append_right _).count_eq reason)) reason

end

/-- **The order of the lease lines does not matter**: the bindings and the counts are those of any other order; no
address is bound twice; what is bound is the latest binding of a pair whose address no other MAC holds; and what is
bound and what is counted make up the lines that are not blank. -/
theorem parse_leases_any_order (protectedNetwork : IPv4Network) (lines : List (List Char))
    (h : ∀ line ∈ lines, ∀ c ∈ line, isLineBoundary c = false) :
    let parsed := parseLeases (linesText lines) protectedNetwork
    let records := lines.filterMap (leaseRecord protectedNetwork)
    (∀ lines', lines.Perm lines' →
      (parseLeases (linesText lines') protectedNetwork).bindings = parsed.bindings ∧
        ∀ reason, (parseLeases (linesText lines') protectedNetwork).ignored.get? reason = parsed.ignored.get? reason) ∧
      (parsed.bindings.map Binding.ip).Nodup ∧
      (∀ record ∈ records, ∀ other ∈ records, record.ip = other.ip → record.mac ≠ other.mac →
        ∀ binding ∈ parsed.bindings, binding.ip ≠ record.ip) ∧
      (∀ binding, binding ∈ parsed.bindings ↔
        Latest records binding.pair binding ∧ ∀ other ∈ records, other.ip = binding.ip → other.mac = binding.mac) ∧
      parsed.bindings.length + parsed.ignored.values.sum = (lines.filter fun line => !isBlank line).length := by
  have hbindings : ∀ lines : List (List Char), (∀ line ∈ lines, ∀ c ∈ line, isLineBoundary c = false) →
      (parseLeases (linesText lines) protectedNetwork).bindings =
        uncontested ((lines.filterMap (leaseRecord protectedNetwork)).foldl keepLater Dict.empty) := by
    intro lines h
    rw [parseLeases_bindings, splitlines_linesText h]
  have hbound : ∀ binding, binding ∈ (parseLeases (linesText lines) protectedNetwork).bindings ↔
      Latest (lines.filterMap (leaseRecord protectedNetwork)) binding.pair binding ∧
        ∀ other ∈ lines.filterMap (leaseRecord protectedNetwork), other.ip = binding.ip → other.mac = binding.mac := by
    intro binding
    rw [hbindings lines h]
    exact mem_uncontested_iff fun _ => records_source protectedNetwork
  refine ⟨?_, ?_, ?_, hbound, ?_⟩
  · intro lines' hperm
    refine ⟨?_, fun reason => (ignored_perm protectedNetwork h hperm reason).symm⟩
    rw [hbindings lines h, hbindings lines' fun line hline => h line (hperm.mem_iff.mpr hline)]
    exact (bindings_perm protectedNetwork hperm).symm
  · rw [hbindings lines h]
    exact nodup_uncontested
  · intro record hrecord other hother hip hmac binding hbinding hsame
    obtain ⟨-, hfree⟩ := (hbound binding).mp hbinding
    exact hmac ((hfree record hrecord hsame.symm).trans (hfree other hother (hip ▸ hsame.symm)).symm)
  · obtain ⟨duplicates, hsize, htally⟩ := parseLeases_ignored (linesText lines) protectedNetwork
    rw [splitlines_linesText h] at hsize htally
    rw [htally.sum_values, hbindings lines h, ← length_lines protectedNetwork lines, uncontested, List.length_map,
      List.length_append, List.length_append, List.length_replicate, List.length_replicate]
    -- the entries are the contested ones and the others
    have hsplit := List.length_eq_length_filter_add (l := ((lines.filterMap (leaseRecord protectedNetwork)).foldl
      keepLater Dict.empty).entries.insertionSort pairLe) fun item => isContested
        ((lines.filterMap (leaseRecord protectedNetwork)).foldl keepLater Dict.empty) item.1.1
    rw [List.length_insertionSort] at hsplit
    simp only [Dict.size] at hsize
    omega

/-- A lease that was renewed, an address that two devices hold, and a blank line. -/
def renewedLines : List (List Char) :=
  ["1893456000 02:00:00:00:00:09 10.0.0.9 phone *", "1893459600 02:00:00:00:00:09 10.0.0.9 phone *",
    "1893456000 02:00:00:00:00:0a 10.0.0.8 tablet *", "1893456000 02:00:00:00:00:0b 10.0.0.8 laptop *", " "].map
    String.toList

theorem renewedLines_unbroken : ∀ line ∈ renewedLines, ∀ c ∈ line, isLineBoundary c = false := by
  have hall : (renewedLines.all fun line => line.all fun c => !isLineBoundary c) = true := by decide +kernel
  intro line hline c hc
  have hline' := List.all_eq_true.mp hall line hline
  exact (Bool.not_eq_true' _).mp (List.all_eq_true.mp hline' c hc)

theorem parse_leases_any_order_renewed :
    ((parseLeases (linesText renewedLines) siteLan).bindings.map fun binding => (binding.ip, binding.expiry)) =
        [(IPv4Address.ofOctets 10 0 0 9, 1893459600000000)] ∧
      (parseLeases (linesText renewedLines.reverse) siteLan).bindings =
        (parseLeases (linesText renewedLines) siteLan).bindings ∧
      (parseLeases (linesText renewedLines) siteLan).bindings.length +
        (parseLeases (linesText renewedLines) siteLan).ignored.values.sum = 4 := by
  obtain ⟨horder, -, -, -, hcount⟩ := parse_leases_any_order siteLan renewedLines renewedLines_unbroken
  exact ⟨by decide +kernel, (horder renewedLines.reverse (List.reverse_perm _).symm).1, hcount.trans (by decide)⟩

end Pirewall
