/-
# Pirewall.Ipc.History -- a bounded history one source cannot flush

`FairShareHistory` keeps its items by sequence number and the numbers of each key in a queue of its own. When it is
full an append first evicts: the key with the most entries gives up its oldest one, and of several such keys the one
whose oldest entry is oldest.

Both structures tell of one list of entries (`Represents`), and on that list an append is the one of a fair log
(`Represents.append`). `kept` reads the list off the history: the entries of the log whose number it holds. The
promises of the history are about what is kept of a log, over any appends.
-/
import Mathlib.Data.List.MinMax
import Mathlib.Data.Prod.Lex
import Pirewall.Lib.Dict
import Pirewall.Lib.FairShare

namespace Pirewall

open Lib Lib.FairShare

/-! ## The container -/

/-- `_items` and `_by_key`: what was recorded under a number, and the numbers of a key. -/
structure FairShareHistory (κ τ : Type) where
  maxlen : Nat
  key : τ → κ
  sequence : Nat
  items : Dict Nat τ
  byKey : Dict κ (List Nat)
  maxlen_pos : 0 < maxlen

namespace FairShareHistory

variable {κ τ : Type}

/-- The constructor; `ValueError` by its message. -/
def new (maxlen : Int) (key : τ → κ) : Except String (FairShareHistory κ τ) :=
  if h : maxlen < 1 then .error "maxlen must be at least 1"
  else .ok ⟨maxlen.toNat, key, 0, Dict.empty, Dict.empty, by omega⟩

/-- The order of the tuples that keys are compared by: the number of entries first. -/
instance : Preorder (Nat ×ₗ Int) := (Prod.Lex.instLinearOrder Nat Int).toPartialOrder.toPreorder

/-- What a key is compared by, with the key; an empty queue raises. -/
def score (e : κ × List Nat) : Option (κ × (Nat ×ₗ Int)) :=
  e.2.head?.map fun first => (e.1, toLex (e.2.length, -(first : Int)))

/-- `max` over the keys: the first of the largest. No key at all raises. -/
def victim (h : FairShareHistory κ τ) : Option κ := do
  let scored ← h.byKey.entries.mapM score
  (scored.argmax Prod.snd).map Prod.fst

variable [DecidableEq κ]

/-- The first number of a queue leaves both structures; a queue that is empty is deleted. -/
def withdraw (h : FairShareHistory κ τ) (victim : κ) (first : Nat) (rest : List Nat) : FairShareHistory κ τ :=
  { h with
    items := h.items.erase first
    byKey := if rest.isEmpty then h.byKey.erase victim else h.byKey.set victim rest }

/-- `_evict_one`; `none` stands for what `max`, `[0]`, `popleft` and `del` raise. -/
def evictOne (h : FairShareHistory κ τ) : Option (FairShareHistory κ τ) := do
  let victim ← h.victim
  let sequences ← h.byKey.get? victim
  match sequences with
  | [] => none
  | first :: rest =>
    if h.items.contains first then some (h.withdraw victim first rest) else none

/-- The item under the next number, which goes to the end of its key's queue. -/
def record (h : FairShareHistory κ τ) (item : τ) (resolved : κ) : FairShareHistory κ τ :=
  { h with
    sequence := h.sequence + 1
    items := h.items.set (h.sequence + 1) item
    byKey := h.byKey.set resolved ((h.byKey.get? resolved).getD [] ++ [h.sequence + 1]) }

/-- `append`. A key that is given overrides the key function. -/
def append (h : FairShareHistory κ τ) (item : τ) (key : Option κ) : Option (FairShareHistory κ τ) := do
  let resolved := key.getD (h.key item)
  let h ← if h.items.size ≥ h.maxlen then h.evictOne else some h
  some (h.record item resolved)

/-- `__len__`. -/
def len (h : FairShareHistory κ τ) : Nat := h.items.size

/-- `__iter__`. -/
def iterate (h : FairShareHistory κ τ) : List τ := h.items.values

/-- The history after some appends. -/
def run (h : FairShareHistory κ τ) (appends : List (τ × Option κ)) : Option (FairShareHistory κ τ) :=
  appends.foldlM (fun h a => h.append a.1 a.2) h

/-- The appends with their numbers and the keys they count for. -/
def log (key : τ → κ) (appends : List (τ × Option κ)) : List (Entry κ τ) :=
  (appends.zipIdx 1).map fun a => ⟨a.2, a.1.2.getD (key a.1.1), a.1.1⟩

/-- What the history holds of a log. -/
def kept (h : FairShareHistory κ τ) (log : List (Entry κ τ)) : List (Entry κ τ) :=
  log.filter fun e => h.items.contains e.sequence

/-! ## Two structures, one list -/

/-- The items and the queues of the keys, both told by one list of entries. -/
structure Represents (h : FairShareHistory κ τ) (held : List (Entry κ τ)) : Prop where
  ordered : Ordered held
  items : h.items.entries = held.map fun e => (e.sequence, e.item)
  queues : ∀ k, (h.byKey.get? k).getD [] = (of held k).map Entry.sequence
  nonempty : ∀ k, h.byKey.get? k ≠ some []
  below : ∀ e ∈ held, e.sequence ≤ h.sequence

variable {h : FairShareHistory κ τ} {held : List (Entry κ τ)}

namespace Represents

theorem size (hr : h.Represents held) : h.items.size = held.length := by
  rw [Dict.size, hr.items, List.length_map]

theorem contains_iff (hr : h.Represents held) (n : Nat) :
    h.items.contains n = true ↔ n ∈ held.map Entry.sequence := by
  have hkeys : h.items.keys = held.map Entry.sequence := by
    rw [Dict.keys, hr.items, List.map_map]
    rfl
  rw [← hkeys, Dict.mem_keys_iff, Dict.contains, Option.isSome_iff_exists]

theorem iterate (hr : h.Represents held) : h.iterate = held.map Entry.item := by
  rw [FairShareHistory.iterate, Dict.values, hr.items, List.map_map]
  rfl

theorem kept (hr : h.Represents held) {log : List (Entry κ τ)} (hlog : Ordered log) (hsub : held.Sublist log) :
    h.kept log = held := by
  refine Eq.trans (List.filter_congr ?_) (hlog.filter_mem hsub)
  intro e _
  rw [Bool.eq_iff_iff, hr.contains_iff, decide_eq_true_eq]

/-- The queue of a key that has one. -/
theorem queue (hr : h.Represents held) {k : κ} {sequences : List Nat} (hk : h.byKey.get? k = some sequences) :
    sequences = (of held k).map Entry.sequence ∧ sequences ≠ [] := by
  have hqueue := hr.queues k
  rw [hk, Option.getD_some] at hqueue
  exact ⟨hqueue, fun hnil => hr.nonempty k (hnil ▸ hk)⟩

/-- A key with an entry has a queue, headed by the number of its first entry. -/
theorem queue_of_mem (hr : h.Represents held) {e : Entry κ τ} (he : e ∈ held) :
    ∃ first rest, of held e.key = first :: rest ∧
      h.byKey.get? e.key = some (first.sequence :: rest.map Entry.sequence) ∧ first.sequence ≤ e.sequence := by
  have hmem := mem_of.mpr ⟨he, rfl⟩
  obtain ⟨first, rest, hsplit⟩ := List.exists_cons_of_ne_nil (List.ne_nil_of_mem hmem)
  refine ⟨first, rest, hsplit, ?_, ?_⟩
  · have hqueue := hr.queues e.key
    rw [hsplit, List.map_cons] at hqueue
    cases hget : h.byKey.get? e.key with
    | none =>
      rw [hget] at hqueue
      cases hqueue
    | some sequences =>
      rw [hget, Option.getD_some] at hqueue
      rw [hqueue]
  · have hordered : Ordered (of held e.key) := List.Pairwise.filter _ hr.ordered
    rw [hsplit] at hordered hmem
    rcases List.mem_cons.mp hmem with rfl | hrest
    · exact Nat.le_refl _
    · exact ((List.pairwise_cons.mp hordered).1 e hrest).le

end Represents

/-! ## Eviction -/

omit [DecidableEq κ] in
/-- No score raises while every queue has an entry. -/
theorem mapM_score {entries : List (κ × List Nat)} (h : ∀ e ∈ entries, e.2 ≠ []) :
    entries.mapM score = some (entries.map fun e => (e.1, toLex (e.2.length, -(e.2.headD 0 : Int)))) := by
  induction entries with
  | nil => rfl
  | cons e rest ih =>
    obtain ⟨first, later, hsplit⟩ := List.exists_cons_of_ne_nil (h e List.mem_cons_self)
    rw [List.mapM_cons, ih fun a ha => h a (List.mem_cons_of_mem _ ha), score, hsplit]
    simp [hsplit]

/-- The score of a key with an entry: how many it has, and how old its first one is. -/
theorem Represents.mem_scored (hr : h.Represents held) {a : Entry κ τ} (ha : a ∈ held) :
    ∃ first ∈ held, first.key = a.key ∧ first.sequence ≤ a.sequence ∧
      (a.key, toLex (share held a.key, -(first.sequence : Int))) ∈
        h.byKey.entries.map fun e => (e.1, toLex (e.2.length, -(e.2.headD 0 : Int))) := by
  obtain ⟨first, rest, hsplit, hget, hle⟩ := hr.queue_of_mem ha
  have hfirst := mem_of.mp (hsplit ▸ List.mem_cons_self : first ∈ of held a.key)
  refine ⟨first, hfirst.1, hfirst.2, hle, List.mem_map.mpr ⟨_, Dict.mem_entries_iff.mpr hget, ?_⟩⟩
  rw [share, hsplit, List.length_cons, List.length_cons, List.length_map]
  rfl

/-- The key that is chosen is the one whose first entry a fair log evicts. -/
theorem Represents.victim (hr : h.Represents held) (hne : held ≠ []) :
    ∃ e rest, IsVictim held e ∧ h.victim = some e.key ∧
      h.byKey.get? e.key = some (e.sequence :: rest) := by
  have hqueues : ∀ e ∈ h.byKey.entries, e.2 ≠ [] := fun e he => (hr.queue (Dict.mem_entries_iff.mp he)).2
  obtain ⟨some_entry, hsome⟩ := List.exists_mem_of_ne_nil _ hne
  obtain ⟨_, _, _, _, hscored⟩ := hr.mem_scored hsome
  obtain ⟨best, hbest⟩ := Option.ne_none_iff_exists'.mp
    fun hnone => List.ne_nil_of_mem hscored (List.argmax_eq_none (f := Prod.snd).mp hnone)
  obtain ⟨⟨k, sequences⟩, hentry, rfl⟩ := List.mem_map.mp (List.argmax_mem hbest)
  have hget := Dict.mem_entries_iff.mp hentry
  obtain ⟨hsequences, hnil⟩ := hr.queue hget
  -- the key has an entry, and the first one of them is the victim
  obtain ⟨a, hof⟩ := List.exists_mem_of_ne_nil _ fun hof : of held k = [] => hnil (by rw [hsequences, hof]; rfl)
  obtain ⟨ha, rfl⟩ := mem_of.mp hof
  obtain ⟨first, rest, hsplit, hget', hle⟩ := hr.queue_of_mem ha
  have hfirst := mem_of.mp (hsplit ▸ List.mem_cons_self : first ∈ of held a.key)
  have hqueue : sequences = first.sequence :: rest.map Entry.sequence := Option.some.inj (hget.symm.trans hget')
  have hlargest : ∀ b ∈ held, ∃ oldest ∈ held, oldest.key = b.key ∧ oldest.sequence ≤ b.sequence ∧
      (share held b.key < share held a.key ∨
        share held b.key = share held a.key ∧ first.sequence ≤ oldest.sequence) := by
    intro b hb
    obtain ⟨oldest, hmem, hkey, hage, hscored⟩ := hr.mem_scored hb
    refine ⟨oldest, hmem, hkey, hage, ?_⟩
    have hmax := List.le_of_mem_argmax hscored hbest
    rw [Prod.Lex.toLex_le_toLex, hqueue] at hmax
    simp only [List.length_cons, List.length_map, List.headD_cons] at hmax
    have hshare : share held a.key = rest.length + 1 := congrArg List.length hsplit
    omega
  refine ⟨first, rest.map Entry.sequence, ⟨hfirst.1, ?_, ?_⟩, ?_, ?_⟩
  · intro b hb
    obtain ⟨_, _, _, _, hcase⟩ := hlargest b hb
    rw [hfirst.2]
    omega
  · intro b hb heq
    obtain ⟨_, _, _, _, hcase⟩ := hlargest b hb
    rw [hfirst.2] at heq
    omega
  · rw [FairShareHistory.victim, mapM_score hqueues]
    show (List.argmax Prod.snd _).map Prod.fst = _
    rw [hbest, hfirst.2]
    rfl
  · rw [hfirst.2]
    exact hget'

theorem get?_withdraw (h : FairShareHistory κ τ) (k j : κ) (first : Nat) (rest : List Nat) :
    (h.withdraw k first rest).byKey.get? j =
      if j = k then (if rest.isEmpty then none else some rest) else h.byKey.get? j := by
  unfold withdraw
  cases rest with
  | nil => exact Dict.get?_erase _ _ _
  | cons n rest => exact Dict.get?_set _ _ _ _

theorem Represents.withdraw (hr : h.Represents held) {e : Entry κ τ} {rest : List Nat} (hv : IsVictim held e)
    (hget : h.byKey.get? e.key = some (e.sequence :: rest)) :
    (h.withdraw e.key e.sequence rest).Represents (remove held e) := by
  have hrest : rest = (of (remove held e) e.key).map Entry.sequence := by
    have hqueue := (hr.queue hget).1
    rw [hv.of_eq_cons hr.ordered, List.map_cons] at hqueue
    exact (List.cons.inj hqueue).2
  refine ⟨List.Pairwise.filter _ hr.ordered, ?_, ?_, ?_, ?_⟩
  · show h.items.entries.filter _ = (held.filter _).map _
    rw [hr.items, List.filter_map]
    rfl
  · intro k
    rw [get?_withdraw]
    by_cases hk : k = e.key
    · subst hk
      rw [if_pos rfl, ← hrest]
      cases rest <;> rfl
    · rw [if_neg hk, of_remove_of_ne hr.ordered hv.mem (Ne.symm hk)]
      exact hr.queues k
  · intro k
    rw [get?_withdraw]
    by_cases hk : k = e.key
    · rw [if_pos hk]
      cases rest <;> simp
    · rw [if_neg hk]
      exact hr.nonempty k
  · intro a ha
    exact hr.below a (mem_remove.mp ha).1

/-- An eviction takes the victim of a fair log, and does not raise. -/
theorem Represents.evictOne (hr : h.Represents held) (hne : held ≠ []) :
    ∃ e rest, IsVictim held e ∧ h.evictOne = some (h.withdraw e.key e.sequence rest) ∧
      (h.withdraw e.key e.sequence rest).Represents (remove held e) := by
  obtain ⟨e, rest, hv, hvictim, hget⟩ := hr.victim hne
  have hin : h.items.contains e.sequence = true := (hr.contains_iff _).mpr (List.mem_map_of_mem hv.mem)
  refine ⟨e, rest, hv, ?_, hr.withdraw hv hget⟩
  rw [FairShareHistory.evictOne, hvictim, Option.bind_eq_bind, Option.bind_some, hget]
  exact if_pos hin

/-! ## Appends -/

theorem Represents.record (hr : h.Represents held) (item : τ) (resolved : κ) :
    (h.record item resolved).Represents (held ++ [⟨h.sequence + 1, resolved, item⟩]) := by
  have hnew : h.items.get? (h.sequence + 1) = none := by
    refine Option.not_isSome_iff_eq_none.mp ?_
    intro hin
    obtain ⟨a, ha, heq⟩ := List.mem_map.mp ((hr.contains_iff _).mp hin)
    have := hr.below a ha
    omega
  refine ⟨hr.ordered.snoc fun a ha => Nat.lt_succ_of_le (hr.below a ha), ?_, ?_, ?_, ?_⟩
  · show (h.items.set _ item).entries = _
    rw [Dict.entries_set_of_none hnew, hr.items, List.map_append]
    rfl
  · intro k
    show ((h.byKey.set resolved _).get? k).getD [] = _
    rw [Dict.get?_set, of_append, List.map_append]
    by_cases hk : k = resolved
    · subst hk
      rw [if_pos rfl, Option.getD_some, hr.queues, of, of, List.filter_cons_of_pos (by simp)]
      rfl
    · rw [if_neg hk, of_singleton_of_ne (Ne.symm hk), hr.queues, List.map_nil, List.append_nil]
  · intro k
    show (h.byKey.set resolved _).get? k ≠ some []
    rw [Dict.get?_set]
    split
    · simp
    · exact hr.nonempty k
  · intro a ha
    show a.sequence ≤ h.sequence + 1
    rcases List.mem_append.mp ha with hold | hnew
    · exact Nat.le_succ_of_le (hr.below a hold)
    · rw [List.mem_singleton.mp hnew]

/-- An append does not raise, and is an append to a fair log. -/
theorem Represents.append (hr : h.Represents held) (item : τ) (key : Option κ) :
    ∃ h' held', h.append item key = some h' ∧ h'.Represents held' ∧
      Appended h.maxlen held ⟨h.sequence + 1, key.getD (h.key item), item⟩ held' ∧
      h'.maxlen = h.maxlen ∧ h'.key = h.key ∧ h'.sequence = h.sequence + 1 := by
  have hpos := h.maxlen_pos
  unfold FairShareHistory.append
  by_cases hfull : h.items.size ≥ h.maxlen
  · have hlength : h.maxlen ≤ held.length := hr.size ▸ hfull
    obtain ⟨e, rest, hv, hevict, hr'⟩ := hr.evictOne (List.ne_nil_of_length_pos (by omega))
    rw [if_pos hfull, hevict]
    exact ⟨_, _, rfl, hr'.record _ _, .evict hlength hv, rfl, rfl, rfl⟩
  · rw [if_neg hfull]
    have hlength : held.length < h.maxlen := hr.size ▸ Nat.lt_of_not_le hfull
    exact ⟨_, _, rfl, hr.record _ _, .room hlength, rfl, rfl, rfl⟩

/-! ## Runs -/

section Runs

variable {key : τ → κ} {maxlen : Nat} {appends : List (τ × Option κ)}

omit [DecidableEq κ] in
theorem log_snoc (key : τ → κ) (appends : List (τ × Option κ)) (a : τ × Option κ) :
    log key (appends ++ [a]) = log key appends ++ [⟨appends.length + 1, a.2.getD (key a.1), a.1⟩] := by
  rw [log, List.zipIdx_append, List.map_append, Nat.add_comm]
  rfl

omit [DecidableEq κ] in
theorem log_sequence_le {e : Entry κ τ} (he : e ∈ log key appends) : e.sequence ≤ appends.length := by
  obtain ⟨a, ha, rfl⟩ := List.mem_map.mp he
  have := List.snd_lt_of_mem_zipIdx ha
  show a.2 ≤ appends.length
  omega

/-- A history that holds `held` of some appends. -/
structure Holds (h : FairShareHistory κ τ) (maxlen : Nat) (key : τ → κ) (appends : List (τ × Option κ))
    (held : List (Entry κ τ)) : Prop where
  represents : h.Represents held
  follows : Follows maxlen (log key appends) held
  maxlen_eq : h.maxlen = maxlen
  key_eq : h.key = key
  sequence_eq : h.sequence = appends.length

theorem Holds.new {size : Int} (hnew : new size key = .ok h) : h.Holds size.toNat key [] [] := by
  unfold FairShareHistory.new at hnew
  split at hnew
  · cases hnew
  · cases hnew
    refine ⟨⟨.nil, rfl, fun _ => rfl, ?_, ?_⟩, .nil _, rfl, rfl, rfl⟩
    · intro k
      simp
    · intro e he
      cases he

theorem Holds.kept (hh : h.Holds maxlen key appends held) : h.kept (log key appends) = held :=
  hh.represents.kept hh.follows.ordered hh.follows.sublist

/-- One append more. -/
theorem Holds.append (hh : h.Holds maxlen key appends held) (a : τ × Option κ) :
    ∃ h' held', h.append a.1 a.2 = some h' ∧
      Appended maxlen held ⟨appends.length + 1, a.2.getD (key a.1), a.1⟩ held' ∧
      h'.Holds maxlen key (appends ++ [a]) held' := by
  obtain ⟨h', held', happend, hr', happended, hmaxlen, hkey, hsequence⟩ := hh.represents.append a.1 a.2
  rw [hh.maxlen_eq, hh.key_eq, hh.sequence_eq] at happended
  refine ⟨h', held', happend, happended, hr', ?_, ?_, ?_, ?_⟩
  · rw [log_snoc]
    exact hh.follows.append (fun e he => Nat.lt_succ_of_le (log_sequence_le he)) happended
  · rw [hmaxlen, hh.maxlen_eq]
  · rw [hkey, hh.key_eq]
  · rw [hsequence, hh.sequence_eq, List.length_append, List.length_singleton]

theorem run_append (h : FairShareHistory κ τ) (first rest : List (τ × Option κ)) :
    h.run (first ++ rest) = (h.run first).bind fun h => h.run rest := List.foldlM_append

theorem run_snoc (h : FairShareHistory κ τ) (appends : List (τ × Option κ)) (a : τ × Option κ) :
    h.run (appends ++ [a]) = (h.run appends).bind fun h => h.append a.1 a.2 := by
  rw [run_append]
  exact congrArg _ (funext fun h => bind_pure _)

theorem Holds.run (hh : h.Holds maxlen key [] []) (appends : List (τ × Option κ)) :
    ∃ h' held, h.run appends = some h' ∧ h'.Holds maxlen key appends held := by
  induction appends using List.reverseRecOn with
  | nil => exact ⟨h, [], rfl, hh⟩
  | append_singleton appends a ih =>
    obtain ⟨h', held, hrun, hh'⟩ := ih
    obtain ⟨h'', held', happend, _, hh''⟩ := hh'.append a
    refine ⟨h'', held', ?_, hh''⟩
    rw [run_snoc, hrun]
    exact happend

/-- While one key floods, a key that holds less loses nothing. -/
theorem Holds.flood (hh : h.Holds maxlen key appends held) {k : κ} (flood : List (τ × Option κ))
    (hflood : ∀ a ∈ flood, a.2.getD (key a.1) = k) :
    ∃ h' held', h.run flood = some h' ∧ h'.Holds maxlen key (appends ++ flood) held' ∧
      share held k ≤ share held' k ∧ ∀ j, share held j < share held k → of held' j = of held j := by
  induction flood using List.reverseRecOn with
  | nil => exact ⟨h, held, rfl, by rwa [List.append_nil], Nat.le_refl _, fun _ _ => rfl⟩
  | append_singleton flood a ih =>
    obtain ⟨h', held', hrun, hh', hshare, hkept⟩ := ih fun b hb => hflood b (List.mem_append_left _ hb)
    obtain ⟨h'', held'', happend, happended, hh''⟩ := hh'.append a
    have hkey := hflood a (List.mem_append_right _ List.mem_cons_self)
    rw [hkey] at happended
    have hordered := hh'.follows.ordered_held
    refine ⟨h'', held'', ?_, List.append_assoc _ _ _ ▸ hh'', hshare.trans (happended.share_le hordered), ?_⟩
    · rw [run_snoc, hrun]
      exact happend
    · intro j hj
      have hless : share held' j < share held' k := by
        rw [share, hkept j hj]
        exact hj.trans_le hshare
      have hne : k ≠ j := by
        rintro rfl
        exact Nat.lt_irrefl _ hj
      rw [happended.keeps_smaller hordered hless, hkept j hj, of_singleton_of_ne hne, List.append_nil]

end Runs

/-- After any appends the history holds at most `maxlen` items, in the order they came, and of each key the last ones.
An append that finds no room evicts from a key holding the most entries, so a key that holds less than an equal share
loses nothing by it. Nor does one that holds less than a key which floods, as all others do if that is the largest
holder. With a single key the history is a `deque(maxlen)`. -/
theorem fair_share_promises {maxlen : Int} {key : τ → κ} {h₀ : FairShareHistory κ τ} (hnew : new maxlen key = .ok h₀)
    (appends : List (τ × Option κ)) :
    ∃ h, h₀.run appends = some h ∧
      (h.len : Int) ≤ maxlen ∧
      h.iterate = (h.kept (log key appends)).map Entry.item ∧
      (∀ k, of (h.kept (log key appends)) k <:+ of (log key appends) k) ∧
      (∀ item given, ∃ h', h₀.run (appends ++ [(item, given)]) = some h' ∧
        Appended maxlen.toNat (h.kept (log key appends)) ⟨appends.length + 1, given.getD (key item), item⟩
          (h'.kept (log key (appends ++ [(item, given)]))) ∧
        ∀ e ∈ h.kept (log key appends),
          (share (h.kept (log key appends)) e.key *
            ((h.kept (log key appends)).map Entry.key).toFinset.card : Int) < maxlen →
          e ∈ h'.kept (log key (appends ++ [(item, given)]))) ∧
      (∀ k flood, (∀ a ∈ flood, a.2.getD (key a.1) = k) → ∃ h', h₀.run (appends ++ flood) = some h' ∧
        ∀ e ∈ h.kept (log key appends),
          share (h.kept (log key appends)) e.key < share (h.kept (log key appends)) k →
          e ∈ h'.kept (log key (appends ++ flood))) ∧
      ∀ k, (∀ a ∈ appends, a.2.getD (key a.1) = k) → h.iterate = (appends.map Prod.fst).rtake maxlen.toNat := by
  obtain ⟨h, held, hrun, hh⟩ := (Holds.new hnew).run appends
  have hordered := hh.follows.ordered_held
  have hpos := h.maxlen_pos
  rw [hh.maxlen_eq] at hpos
  refine ⟨h, hrun, ?_⟩
  rw [hh.kept]
  refine ⟨?_, hh.represents.iterate, hh.follows.suffix, ?_, ?_, ?_⟩
  · show (h.items.size : Int) ≤ maxlen
    rw [hh.represents.size, hh.follows.count]
    omega
  -- one append more: an entry whose key has less than its share is not the victim
  · intro item given
    obtain ⟨h', held', happend, happended, hh'⟩ := hh.append (item, given)
    refine ⟨h', ?_, ?_⟩
    · rw [run_snoc, hrun]
      exact happend
    · rw [hh'.kept]
      refine ⟨happended, ?_⟩
      intro e he hless
      have hkeeps := happended.keeps_of_share hordered (k := e.key) (by omega)
      exact (mem_of.mp (hkeeps ▸ List.mem_append_left _ (mem_of.mpr ⟨he, rfl⟩))).1
  -- a flood of one key evicts nothing of a key that holds less
  · intro k flood hflood
    obtain ⟨h', held', hrun', hh', _, hkeeps⟩ := hh.flood flood hflood
    refine ⟨h', ?_, ?_⟩
    · rw [run_append, hrun]
      exact hrun'
    · rw [hh'.kept]
      intro e he hless
      exact (mem_of.mp ((hkeeps e.key hless).symm ▸ mem_of.mpr ⟨he, rfl⟩)).1
  · intro k hone
    -- with one key the log is the appends, and what is kept of it the last of them
    have hlog : ∀ e ∈ log key appends, e.key = k := by
      intro e he
      obtain ⟨a, ha, rfl⟩ := List.mem_map.mp he
      exact hone a.1 (List.fst_mem_of_mem_zipIdx ha)
    have hitems : (log key appends).map Entry.item = appends.map Prod.fst := by
      rw [log, List.map_map]
      show (appends.zipIdx 1).map (Prod.fst ∘ Prod.fst) = _
      rw [← List.map_map, List.zipIdx_map_fst]
    have hlength : (log key appends).length = (appends.map Prod.fst).length := by
      rw [← hitems, List.length_map]
    rw [hh.represents.iterate, hh.follows.eq_rtake hlog, List.rtake, List.map_drop, hitems, hlength, List.rtake]

/-- Items of two keys fill a history of three. -/
def twoKeys : List (Nat × Option Nat) := [(10, none), (11, none), (20, none)]

/-- And then the key that holds more floods it. -/
def keyFlood : List (Nat × Option Nat) := [(12, none), (30, some 1), (13, none)]

theorem fair_share_promises_two_keys :
    ∃ h₀ h h' : FairShareHistory Nat Nat, new 3 (fun item => item / 10) = .ok h₀ ∧ h₀.run twoKeys = some h ∧
      h.iterate = [10, 11, 20] ∧ h₀.run (twoKeys ++ keyFlood) = some h' ∧
      ⟨3, 2, 20⟩ ∈ h'.kept (log (fun item => item / 10) (twoKeys ++ keyFlood)) := by
  have hnew : new 3 (fun item => item / 10) =
      .ok (⟨3, fun item => item / 10, 0, Dict.empty, Dict.empty, by decide⟩ : FairShareHistory Nat Nat) := rfl
  obtain ⟨h, hrun, _, hiterate, _, _, hflood, _⟩ := fair_share_promises hnew twoKeys
  have hfull : ((⟨3, fun item => item / 10, 0, Dict.empty, Dict.empty, by decide⟩ : FairShareHistory Nat Nat).run
      twoKeys).map (fun h => h.kept (log (fun item => item / 10) twoKeys)) =
      some [⟨1, 1, 10⟩, ⟨2, 1, 11⟩, ⟨3, 2, 20⟩] := by decide +kernel
  rw [hrun, Option.map_some, Option.some.injEq] at hfull
  obtain ⟨h', hrun', hkeeps⟩ := hflood 1 keyFlood (by decide)
  -- the second key holds one of the three, the flooding one two
  rw [hfull] at hkeeps hiterate
  exact ⟨_, h, h', hnew, hrun, hiterate, hrun', hkeeps ⟨3, 2, 20⟩ (by decide) (by decide)⟩

end FairShareHistory

end Pirewall
