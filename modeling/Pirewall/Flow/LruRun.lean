/-
# Pirewall.Flow.LruRun -- the native table, call after call

The table is accessed, filled, emptied key by key and cleared, in any order. `OrderedTable` is what it stands for, an
`OrderedDict` with `move_to_end` on access, as `FlowTable` keeps one; `TableCall` is a call of either.

Along a run whose inserts are of absent keys the native table does not panic and answers as the ordered one does
(`Simulates.run`). What is left when the calls are over is `Consistent`: the list through the slab, the index and the
stack of free slots tell of the same slots. That no slot is lost between the list and the stack is a count
(`Balanced`), and with it every slot is in one of the two.

The condition on inserts is the one the engine's own loop meets: it looks a key up before it inserts, and `insert` of
a key that is there would thread a second node for it and leave the first one in the list.

`Represents` alone does not say that the table is used up to its bound. A slot that is neither in the chain nor on the
stack would be lost for good, without any operation noticing. No operation loses one, because each moves as many slots
as it takes: making room pushes the slot it frees, a new key pops one or makes the slab longer.

The last section is about recency. `lastUse` reads off the calls when a key was last accessed or inserted, and the
order of the list is the order of these times (`ByRecency`), so that what a full table evicts is the key whose last
use is longest ago.
-/
import Pirewall.Flow.Aggregator
import Pirewall.Flow.LruTable
import Pirewall.Lib.Run

namespace Pirewall.Native

open Lib

variable {κ α : Type}

/-! ## Calls -/

/-- A call of a table; `access` writes through the reference it gets. -/
inductive TableCall (κ α : Type)
  | access (key : κ) (write : α → α)
  | insert (key : κ) (state : α)
  | pop (key : κ)
  | clear

section Calls

variable [DecidableEq κ]

/-- `access` and `insert` make a key the most recently used. -/
def TableCall.uses (c : TableCall κ α) (k : κ) : Bool :=
  match c with
  | .access key _ => k = key
  | .insert key _ => k = key
  | .pop _ => false
  | .clear => false

/-- A call of the native table: what it found, evicted or removed, and the table after it. -/
def LruTable.call (t : LruTable κ α) : TableCall κ α → Option (Option α × LruTable κ α)
  | .access key write => do
      let (slot, t) ← t.getMut key
      match slot with
      | none => some (none, t)
      | some slot =>
        let n ← t.node slot
        let t ← t.modifyNode slot fun n => { n with state := write n.state }
        some (some n.state, t)
  | .insert key state => t.insert key state
  | .pop key => t.pop key
  | .clear => some (none, t.clear)

/-- The calls of a run, one after the other. -/
def LruTable.runCalls (t : LruTable κ α) : List (TableCall κ α) → Option (List (Option α) × LruTable κ α)
  | [] => some ([], t)
  | c :: rest => do
      let (answer, t) ← t.call c
      let (answers, t) ← t.runCalls rest
      some (answer :: answers, t)

/-- An `OrderedDict` of at most `max` entries, least recently used first. -/
structure OrderedTable (κ α : Type) where
  max : Nat
  flows : Dict κ α

namespace OrderedTable

def new (max : Nat) : OrderedTable κ α := ⟨max, Dict.empty⟩

/-- A call of the ordered table: `FlowTable`, over any keys. -/
def call (d : OrderedTable κ α) : TableCall κ α → Option α × OrderedTable κ α
  | .access key write =>
    match d.flows.get? key with
    | none => (none, d)
    | some state => (some state, { d with flows := (d.flows.moveToEnd key).set key (write state) })
  | .insert key state =>
    if d.flows.size ≥ d.max then
      (d.flows.values.head?, { d with flows := d.flows.popFirst.set key state })
    else (none, { d with flows := d.flows.set key state })
  | .pop key => (d.flows.get? key, { d with flows := d.flows.erase key })
  | .clear => (none, { d with flows := Dict.empty })

/-- The table after a call. -/
def step (d : OrderedTable κ α) (c : TableCall κ α) : OrderedTable κ α := (d.call c).2

/-- The answers of a run. -/
def answers (d : OrderedTable κ α) : List (TableCall κ α) → List (Option α)
  | [] => []
  | c :: rest => (d.call c).1 :: (d.step c).answers rest

/-- `insert` is for keys that are not there. -/
def Admits (d : OrderedTable κ α) : TableCall κ α → Prop
  | .insert key _ => d.flows.get? key = none
  | _ => True

instance [DecidableEq α] (d : OrderedTable κ α) (c : TableCall κ α) : Decidable (d.Admits c) :=
  match c with
  | .insert key _ => inferInstanceAs (Decidable (d.flows.get? key = none))
  | .access _ _ | .pop _ | .clear => .isTrue trivial

end OrderedTable

end Calls

/-- `FlowTable` is the ordered table of flow keys. -/
theorem flowTable_calls (t : FlowTable) (key : Pirewall.FlowKey) (state : Pirewall.FlowState) :
    (t.insert key state).1 = ((⟨t.maxFlows, t.flows⟩ : OrderedTable _ _).call (.insert key state)).1 ∧
      (t.insert key state).2.flows = ((⟨t.maxFlows, t.flows⟩ : OrderedTable _ _).step (.insert key state)).flows ∧
      (t.pop key).flows = ((⟨t.maxFlows, t.flows⟩ : OrderedTable _ _).step (.pop key)).flows ∧
      (t.get key).1 = t.flows.get? key ∧ (t.get key).2.flows = t.flows.moveToEnd key := by
  refine ⟨?_, ?_, rfl, ?_, ?_⟩
  · unfold FlowTable.insert OrderedTable.call
    dsimp only
    split <;> rfl
  · unfold FlowTable.insert OrderedTable.step OrderedTable.call
    dsimp only
    split <;> rfl
  · unfold FlowTable.get
    cases h : t.flows.get? key <;> rfl
  · unfold FlowTable.get Dict.moveToEnd
    cases h : t.flows.get? key <;> rfl

/-! ## The count of the slots -/

namespace LruTable

/-- Every slot of the slab is in use or free. -/
def Balanced (t : LruTable κ α) : Prop := t.nodes.length = t.index.size + t.free.length

/-- Index, stack and slab are of the same size. -/
structure SameSlab (t t' : LruTable κ α) : Prop where
  index : t'.index = t.index
  free : t'.free = t.free
  length : t'.nodes.length = t.nodes.length

theorem SameSlab.trans {t t' t'' : LruTable κ α} (h : SameSlab t t') (h' : SameSlab t' t'') : SameSlab t t'' :=
  ⟨h'.index.trans h.index, h'.free.trans h.free, h'.length.trans h.length⟩

/-- An operation on the links moves no slot. -/
theorem SameSlab.balanced {t t' : LruTable κ α} (h : SameSlab t t') (hb : t.Balanced) : t'.Balanced := by
  rw [Balanced, h.length, h.index, h.free]
  exact hb

theorem modifyNode_slab {t t' : LruTable κ α} {slot : Nat} {f : Node κ α → Node κ α}
    (h : t.modifyNode slot f = some t') : SameSlab t t' := by
  obtain ⟨n, -, h⟩ := Option.bind_eq_some_iff.mp h
  cases h
  exact ⟨rfl, rfl, List.length_set⟩

theorem setAfter_slab {t t' : LruTable κ α} {before x : Option Nat} (h : t.setAfter before x = some t') :
    SameSlab t t' := by
  cases before with
  | none =>
    cases h
    exact ⟨rfl, rfl, rfl⟩
  | some slot => exact modifyNode_slab h

theorem setBefore_slab {t t' : LruTable κ α} {after x : Option Nat} (h : t.setBefore after x = some t') :
    SameSlab t t' := by
  cases after with
  | none =>
    cases h
    exact ⟨rfl, rfl, rfl⟩
  | some slot => exact modifyNode_slab h

theorem unlink_slab {t t' : LruTable κ α} {slot : Nat} (h : t.unlink slot = some t') : SameSlab t t' := by
  obtain ⟨n, -, h⟩ := Option.bind_eq_some_iff.mp h
  obtain ⟨mid, hafter, hbefore⟩ := Option.bind_eq_some_iff.mp h
  exact (setAfter_slab hafter).trans (setBefore_slab hbefore)

theorem linkTail_slab {t t' : LruTable κ α} {slot : Nat} (h : t.linkTail slot = some t') : SameSlab t t' := by
  obtain ⟨first, hmodify, h⟩ := Option.bind_eq_some_iff.mp h
  obtain ⟨mid, hafter, h⟩ := Option.bind_eq_some_iff.mp h
  cases h
  have hslab := (modifyNode_slab hmodify).trans (setAfter_slab hafter)
  exact ⟨hslab.index, hslab.free, hslab.length⟩

theorem touch_slab {t t' : LruTable κ α} {slot : Nat} (h : t.touch slot = some t') : SameSlab t t' := by
  unfold touch at h
  split at h
  · obtain ⟨mid, hunlink, hlink⟩ := Option.bind_eq_some_iff.mp h
    exact (unlink_slab hunlink).trans (linkTail_slab hlink)
  · cases h
    exact ⟨rfl, rfl, rfl⟩

/-- A slot taken from the stack, or a new one. -/
theorem place_slab (t : LruTable κ α) (n : Node κ α) : (t.place n).2.index = t.index ∧
    (t.place n).2.nodes.length + t.free.length = t.nodes.length + (t.place n).2.free.length + 1 := by
  unfold place
  split
  · rename_i slot free hfree
    refine ⟨rfl, ?_⟩
    rw [List.length_set, hfree, List.length_cons, Nat.add_assoc]
  · rename_i hfree
    refine ⟨rfl, ?_⟩
    show (t.nodes ++ [some n]).length + t.free.length = t.nodes.length + t.free.length + 1
    rw [List.length_append, List.length_singleton]
    omega

section Keys

variable [DecidableEq κ]

theorem getMut_slab {t t' : LruTable κ α} {key : κ} {slot : Option Nat} (h : t.getMut key = some (slot, t')) :
    SameSlab t t' := by
  unfold getMut at h
  split at h
  · cases h
    exact ⟨rfl, rfl, rfl⟩
  · obtain ⟨mid, htouch, h⟩ := Option.bind_eq_some_iff.mp h
    obtain ⟨n, -, h⟩ := Option.bind_eq_some_iff.mp h
    cases h
    exact touch_slab htouch

/-- The slot of a removed key goes from the index to the stack. -/
theorem Balanced.pop {t t' : LruTable κ α} {key : κ} {answer : Option α} (hb : t.Balanced)
    (h : t.pop key = some (answer, t')) : t'.Balanced := by
  unfold LruTable.pop at h
  split at h
  · cases h
    exact hb
  · rename_i slot hslot
    obtain ⟨mid, hunlink, h⟩ := Option.bind_eq_some_iff.mp h
    obtain ⟨n, -, h⟩ := Option.bind_eq_some_iff.mp h
    cases h
    have hslab := unlink_slab hunlink
    have hsize := Dict.size_erase_of_some hslot
    have hlength : mid.nodes.length = t.nodes.length := hslab.length
    show (mid.nodes.set slot none).length = mid.index.size + (slot :: mid.free).length
    rw [List.length_set, List.length_cons, hlength, hslab.index, hslab.free]
    show t.nodes.length = (t.index.erase key).size + (t.free.length + 1)
    have := hb
    unfold Balanced at this
    omega

/-- Making room pushes the slot that it frees. -/
theorem Balanced.makeRoom {t t' : LruTable κ α} {answer : Option α} (hb : t.Balanced)
    (h : t.makeRoom = some (answer, t')) : t'.Balanced := by
  unfold LruTable.makeRoom at h
  split at h
  · cases h
    exact hb
  · split at h
    · obtain ⟨n, -, h⟩ := Option.bind_eq_some_iff.mp h
      exact hb.pop h
    · cases h
      exact hb

/-- Making room adds no key. -/
theorem makeRoom_absent {t t' : LruTable κ α} {answer : Option α} {key : κ} (habsent : t.index.get? key = none)
    (h : t.makeRoom = some (answer, t')) : t'.index.get? key = none := by
  unfold LruTable.makeRoom at h
  split at h
  · cases h
    exact habsent
  · split at h
    · obtain ⟨n, -, h⟩ := Option.bind_eq_some_iff.mp h
      unfold LruTable.pop at h
      split at h
      · cases h
        exact habsent
      · obtain ⟨mid, hunlink, h⟩ := Option.bind_eq_some_iff.mp h
        obtain ⟨n', -, h⟩ := Option.bind_eq_some_iff.mp h
        cases h
        show mid.index.get? key = none
        rw [(unlink_slab hunlink).index, Dict.get?_erase, habsent, ite_self]
    · cases h
      exact habsent

/-- `insert`, in its parts. -/
theorem insert_eq_some {t t' : LruTable κ α} {key : κ} {state : α} {answer : Option α}
    (h : t.insert key state = some (answer, t')) : ∃ room linked, t.makeRoom = some (answer, room) ∧
      (room.place ⟨key, state, none, none⟩).2.linkTail (room.place ⟨key, state, none, none⟩).1 = some linked ∧
      t' = { linked with index := linked.index.set key (room.place ⟨key, state, none, none⟩).1 } := by
  obtain ⟨⟨evicted, room⟩, hroom, h⟩ := Option.bind_eq_some_iff.mp h
  obtain ⟨linked, hlink, h⟩ := Option.bind_eq_some_iff.mp h
  obtain ⟨rfl, rfl⟩ := Prod.mk.inj (Option.some.inj h)
  exact ⟨room, linked, hroom, hlink, rfl⟩

/-- A new key takes a slot off the stack, or makes one. -/
theorem Balanced.insert {t t' : LruTable κ α} {key : κ} {state : α} {answer : Option α} (hb : t.Balanced)
    (habsent : t.index.get? key = none) (h : t.insert key state = some (answer, t')) : t'.Balanced := by
  obtain ⟨room, linked, hroom, hlink, rfl⟩ := insert_eq_some h
  have hbroom := hb.makeRoom hroom
  have habsent' := makeRoom_absent habsent hroom
  have hslab := linkTail_slab hlink
  obtain ⟨hindex, hcount⟩ := room.place_slab ⟨key, state, none, none⟩
  show linked.nodes.length = (linked.index.set key _).size + linked.free.length
  rw [hslab.length, hslab.index, hslab.free, hindex, Dict.size_set_of_none habsent']
  unfold Balanced at hbroom
  omega

theorem Balanced.call {t t' : LruTable κ α} {c : TableCall κ α} {answer : Option α} (hb : t.Balanced)
    (habsent : ∀ key state, c = .insert key state → t.index.get? key = none)
    (h : t.call c = some (answer, t')) : t'.Balanced := by
  cases c with
  | access key write =>
    obtain ⟨⟨slot, mid⟩, hget, h⟩ := Option.bind_eq_some_iff.mp h
    have hmid := (getMut_slab hget).balanced hb
    cases slot with
    | none =>
      cases h
      exact hmid
    | some slot =>
      obtain ⟨n, -, h⟩ := Option.bind_eq_some_iff.mp h
      obtain ⟨written, hwrite, h⟩ := Option.bind_eq_some_iff.mp h
      cases h
      exact (modifyNode_slab hwrite).balanced hmid
  | insert key state => exact hb.insert (habsent key state rfl) h
  | pop key => exact hb.pop h
  | clear =>
    cases h
    rfl

end Keys

end LruTable

/-! ## One run, twice -/

section Runs

variable [DecidableEq κ] {t : LruTable κ α} {d : OrderedTable κ α}

/-- The native table holds the entries of the ordered one, in its order, and has lost no slot. -/
structure Simulates (t : LruTable κ α) (d : OrderedTable κ α) : Prop where
  holds : t.Holds d.flows.entries
  max : t.max = d.max
  balanced : t.Balanced

/-- Two new tables. -/
theorem Simulates.new (max : Nat) : Simulates (LruTable.new max : LruTable κ α) (OrderedTable.new max) :=
  ⟨LruTable.new_holds max, rfl, rfl⟩

omit [DecidableEq κ] in
theorem modifyNode_congr {slot : Nat} {n : Node κ α} (hn : t.node slot = some n) {f g : Node κ α → Node κ α}
    (h : f n = g n) : t.modifyNode slot f = t.modifyNode slot g := by
  simp only [LruTable.modifyNode, hn, Option.bind_eq_bind, Option.bind_some, h]

/-- A hit is moved to the end in both tables, and written there. -/
theorem Simulates.access_some (h : Simulates t d) {key : κ} {v : α} (hget : d.flows.get? key = some v)
    (write : α → α) : ∃ t', t.call (.access key write) = some (some v, t') ∧ t'.max = t.max ∧
      t'.Holds ((d.flows.moveToEnd key).set key (write v)).entries := by
  obtain ⟨slot, n, mid, hfound, hn, rfl, hassign⟩ := LruTable.getMut_some h.holds hget
  obtain ⟨t', hwrite, hmax, hholds⟩ := hassign (write n.state)
  rw [← modifyNode_congr hn (f := fun n => { n with state := write n.state }) rfl] at hwrite
  refine ⟨t', ?_, hmax, ?_⟩
  · simp only [LruTable.call, hfound, hn, hwrite, Option.bind_eq_bind, Option.bind_some]
  · rw [Dict.entries_set_moveToEnd hget]
    exact hholds

/-- A new key goes to the end of both tables, and from a full one the first entry goes. -/
theorem Simulates.insert (h : Simulates t d) (hmax : 0 < d.max) {key : κ} (habsent : d.flows.get? key = none)
    (state : α) : ∃ t', t.insert key state = some ((d.call (.insert key state)).1, t') ∧ t'.max = t.max ∧
      t'.Holds (d.step (.insert key state)).flows.entries := by
  unfold OrderedTable.step OrderedTable.call
  dsimp only
  split
  · rename_i hfull
    obtain ⟨⟨k₀, v₀⟩, rest, hentries⟩ := List.exists_cons_of_length_pos (lt_of_lt_of_le hmax hfull)
    have hholds := h.holds
    rw [hentries] at hholds
    have habsent' : ((k₀, v₀) :: rest).lookup key = none := hentries ▸ habsent
    have hlength : t.max ≤ ((k₀, v₀) :: rest).length := h.max.symm ▸ hentries ▸ hfull
    obtain ⟨t', hinsert, hmax', hholds'⟩ := LruTable.insert_full hholds habsent' state hlength
    have hpop : d.flows.popFirst.get? key = none := by
      cases hget : d.flows.popFirst.get? key with
      | none => rfl
      | some other => exact absurd (Dict.get?_of_popFirst hget) (by rw [habsent]; simp)
    refine ⟨t', ?_, hmax', ?_⟩
    · rw [hinsert, Dict.values, hentries]
      rfl
    · show t'.Holds (d.flows.popFirst.set key state).entries
      rw [Dict.entries_set_of_none hpop]
      show t'.Holds (d.flows.entries.tail ++ [(key, state)])
      rw [hentries]
      exact hholds'
  · rename_i hroom
    obtain ⟨t', hinsert, hmax', hholds⟩ := LruTable.insert_below h.holds habsent state (h.max.symm ▸ not_le.mp hroom)
    refine ⟨t', hinsert, hmax', ?_⟩
    show t'.Holds (d.flows.set key state).entries
    rw [Dict.entries_set_of_none habsent]
    exact hholds

/-- What the two tables do at one call. -/
theorem Simulates.call (h : Simulates t d) (hmax : 0 < d.max) {c : TableCall κ α} (hadmits : d.Admits c) :
    ∃ t', t.call c = some ((d.call c).1, t') ∧ Simulates t' (d.step c) := by
  suffices hcall : ∃ t', t.call c = some ((d.call c).1, t') ∧ t'.max = (d.step c).max ∧
      t'.Holds (d.step c).flows.entries by
    obtain ⟨t', heq, hmax', hholds⟩ := hcall
    refine ⟨t', heq, hholds, hmax', h.balanced.call ?_ heq⟩
    rintro key state rfl
    obtain ⟨chain, hrep⟩ := h.holds
    exact hrep.lookup_none hadmits
  cases c with
  | access key write =>
    unfold OrderedTable.step OrderedTable.call
    dsimp only
    split
    · rename_i hnone
      refine ⟨t, ?_, h.max, h.holds⟩
      simp only [LruTable.call, LruTable.getMut_none h.holds hnone, Option.bind_eq_bind, Option.bind_some]
    · rename_i v hsome
      obtain ⟨t', heq, hmax', hholds⟩ := h.access_some hsome write
      exact ⟨t', heq, hmax'.trans h.max, hholds⟩
  | insert key state =>
    obtain ⟨t', heq, hmax', hholds⟩ := h.insert hmax hadmits state
    refine ⟨t', heq, (hmax'.trans h.max).trans ?_, hholds⟩
    unfold OrderedTable.step OrderedTable.call
    dsimp only
    split <;> rfl
  | pop key =>
    show ∃ t', t.pop key = some (d.flows.get? key, t') ∧ t'.max = d.max ∧ t'.Holds (d.flows.erase key).entries
    cases hget : d.flows.get? key with
    | none =>
      rw [Dict.erase_of_none hget]
      exact ⟨t, LruTable.pop_none h.holds hget, h.max, h.holds⟩
    | some v =>
      obtain ⟨t', heq, hmax', hholds⟩ := LruTable.pop_some h.holds hget
      exact ⟨t', heq, hmax'.trans h.max, hholds⟩
  | clear => exact ⟨t.clear, rfl, h.max, t.clear_holds⟩

theorem OrderedTable.max_step (d : OrderedTable κ α) (c : TableCall κ α) : (d.step c).max = d.max := by
  cases c with
  | access key write =>
    unfold OrderedTable.step OrderedTable.call
    dsimp only
    split <;> rfl
  | insert key state =>
    unfold OrderedTable.step OrderedTable.call
    dsimp only
    split <;> rfl
  | pop key => rfl
  | clear => rfl

/-- No call of a run panics, and every one is answered as the ordered table answers it. -/
theorem Simulates.run (h : Simulates t d) (hmax : 0 < d.max) {calls : List (TableCall κ α)}
    (hadmits : Along OrderedTable.step OrderedTable.Admits d calls) :
    ∃ t', t.runCalls calls = some (d.answers calls, t') ∧ Simulates t' (run OrderedTable.step d calls) := by
  induction calls generalizing t d with
  | nil => exact ⟨t, rfl, h⟩
  | cons c rest ih =>
    obtain ⟨mid, hcall, hmid⟩ := h.call hmax hadmits.1
    obtain ⟨t', hrest, hsim⟩ := ih hmid ((d.max_step c).symm ▸ hmax) hadmits.2
    refine ⟨t', ?_, hsim⟩
    simp only [LruTable.runCalls, hcall, hrest, Option.bind_eq_bind, Option.bind_some]
    rfl

end Runs

/-! ## The three structures -/

section Structures

variable [DecidableEq κ] {t : LruTable κ α} {chain : List Nat}

/-- The list through the slab, the index and the free slots tell of the same slots, and the list reads `d`. -/
structure Consistent (t : LruTable κ α) (d : Dict κ α) (chain : List Nat) : Prop where
  /-- The walk from the head ends, and meets no dead slot. -/
  slots : t.slots = some chain
  once : chain.Nodup
  live : ∀ slot, slot ∈ chain ↔ (t.node slot).isSome = true
  head : t.head = chain.head?
  tail : t.tail = chain.getLast?
  next : ∀ s n, t.node s = some n → ∀ s', n.next = some s' ↔ ∃ n', t.node s' = some n' ∧ n'.prev = some s
  prev : ∀ s n, t.node s = some n → ∀ s', n.prev = some s' ↔ ∃ n', t.node s' = some n' ∧ n'.next = some s
  first : ∀ s n, t.node s = some n → (n.prev = none ↔ t.head = some s)
  last : ∀ s n, t.node s = some n → (n.next = none ↔ t.tail = some s)
  index : ∀ k slot, t.index.get? k = some slot ↔ ∃ n, t.node slot = some n ∧ n.key = k
  free_once : t.free.Nodup
  free : ∀ slot, slot ∈ t.free ↔ slot < t.nodes.length ∧ t.node slot = none
  order : chain.map t.content = d.entries.map some

/-- No slot is neither in the list nor free. -/
theorem covered {entries : List (κ × α)} (h : t.Represents chain entries) (hb : t.Balanced) {slot : Nat}
    (hlt : slot < t.nodes.length) : slot ∈ chain ∨ slot ∈ t.free := by
  have hlive : ∀ s ∈ chain, ∃ n, t.node s = some n := fun s hs => Option.isSome_iff_exists.mp (h.threaded.isSome hs)
  have hnodup : (chain ++ t.free).Nodup := by
    rw [List.nodup_append]
    refine ⟨h.threaded.nodup, h.free_nodup, ?_⟩
    rintro s hs s' hs' rfl
    obtain ⟨n, hn⟩ := hlive s hs
    have hdead := (h.free_dead s hs').2
    rw [LruTable.content, hn] at hdead
    exact absurd hdead (by simp)
  have hrange : chain ++ t.free ⊆ List.range t.nodes.length := by
    intro s hs
    rw [List.mem_range]
    rcases List.mem_append.mp hs with hs | hs
    · obtain ⟨n, hn⟩ := hlive s hs
      exact LruTable.lt_of_node hn
    · exact (h.free_dead s hs).1
  have hlength : (List.range t.nodes.length).length ≤ (chain ++ t.free).length := by
    rw [List.length_range, List.length_append, ← h.size]
    exact hb.le
  have hperm := (List.subperm_of_subset hnodup hrange).perm_of_length_le hlength
  exact List.mem_append.mp (hperm.mem_iff.mpr (List.mem_range.mpr hlt))

omit [DecidableEq κ] in
theorem links_of_node {s : Nat} {n : Node κ α} (h : t.node s = some n) :
    (t.links s).bind Prod.fst = n.prev ∧ (t.links s).bind Prod.snd = n.next := by
  rw [LruTable.links, h]
  exact ⟨rfl, rfl⟩

/-- A table that represents a dictionary and has lost no slot is consistent. -/
theorem consistent {d : Dict κ α} (h : t.Represents chain d.entries) (hb : t.Balanced) : Consistent t d chain := by
  -- a live slot is not on the stack, so it is in the list
  have hlive : ∀ slot, slot ∈ chain ↔ (t.node slot).isSome = true := by
    intro slot
    refine ⟨h.threaded.isSome, fun hsome => ?_⟩
    obtain ⟨n, hn⟩ := Option.isSome_iff_exists.mp hsome
    refine (covered h hb (LruTable.lt_of_node hn)).resolve_right fun hfree => ?_
    have hdead := (h.free_dead slot hfree).2
    rw [LruTable.content, hn] at hdead
    exact absurd hdead (by simp)
  have hmem : ∀ {s n}, t.node s = some n → s ∈ chain := fun hn => (hlive _).mpr (by rw [hn]; rfl)
  have hnode : ∀ {s}, s ∈ chain → ∃ n, t.node s = some n := fun hs =>
    Option.isSome_iff_exists.mp (h.threaded.isSome hs)
  refine ⟨?_, h.threaded.nodup, hlive, h.threaded.head, h.threaded.tail, ?_, ?_, ?_, ?_, ?_, h.free_nodup, ?_,
    h.contents⟩
  · rw [LruTable.slots, h.threaded.head]
    exact walk_seg h.threaded.seg (LruTable.Represents.length_le h)
  -- what `next` of a node leads to has that node as `prev`
  · intro s n hn s'
    have hlinks := links_of_node hn
    constructor
    · intro hnext
      have hs' := seg_next_mem h.threaded.seg (hmem hn) (hlinks.2.trans hnext)
      obtain ⟨n', hn'⟩ := hnode hs'
      have hback := (seg_next_iff h.threaded.seg (hmem hn) hs').mp (hlinks.2.trans hnext)
      exact ⟨n', hn', (links_of_node hn').1.symm.trans hback⟩
    · rintro ⟨n', hn', hprev⟩
      have hon := (seg_next_iff h.threaded.seg (hmem hn) (hmem hn')).mpr ((links_of_node hn').1.trans hprev)
      exact hlinks.2.symm.trans hon
  -- and the other way round
  · intro s n hn s'
    have hlinks := links_of_node hn
    constructor
    · intro hprev
      have hs' := seg_prev_mem h.threaded.seg (hmem hn) (hlinks.1.trans hprev)
      obtain ⟨n', hn'⟩ := hnode hs'
      have hon := (seg_next_iff h.threaded.seg hs' (hmem hn)).mpr (hlinks.1.trans hprev)
      exact ⟨n', hn', (links_of_node hn').2.symm.trans hon⟩
    · rintro ⟨n', hn', hnext⟩
      have hback := (seg_next_iff h.threaded.seg (hmem hn') (hmem hn)).mp ((links_of_node hn').2.trans hnext)
      exact hlinks.1.symm.trans hback
  · intro s n hn
    rw [h.threaded.head, ← seg_first_iff h.threaded.seg (hmem hn), (links_of_node hn).1]
  · intro s n hn
    rw [h.threaded.tail, ← seg_last_iff h.threaded.seg (hmem hn), (links_of_node hn).2]
  -- the index leads exactly to the nodes of its keys
  · intro k slot
    rw [h.index, hlive, Option.isSome_iff_exists, LruTable.content, Option.map_map]
    constructor
    · rintro ⟨⟨n, hn⟩, hkey⟩
      rw [hn] at hkey
      exact ⟨n, hn, Option.some.inj hkey⟩
    · rintro ⟨n, hn, rfl⟩
      exact ⟨⟨n, hn⟩, by rw [hn]; rfl⟩
  · intro slot
    refine ⟨fun hfree => ⟨(h.free_dead slot hfree).1, Option.map_eq_none_iff.mp (h.free_dead slot hfree).2⟩, ?_⟩
    -- a dead slot of the slab is on the stack, or it would be lost
    rintro ⟨hlt, hdead⟩
    refine (covered h hb hlt).resolve_left fun hs => ?_
    obtain ⟨n, hn⟩ := hnode hs
    rw [hdead] at hn
    exact absurd hn (by simp)

theorem Simulates.consistent {d : OrderedTable κ α} (h : Simulates t d) : ∃ chain, Consistent t d.flows chain := by
  obtain ⟨chain, hrep⟩ := h.holds
  exact ⟨chain, Native.consistent hrep h.balanced⟩

end Structures

/-! ## Recency -/

section Recency

variable [DecidableEq κ] {d : OrderedTable κ α} {c : TableCall κ α} {calls : List (TableCall κ α)}

/-- When a key was last used: the calls come latest first, and the first of all was at 1. -/
def lastUse : List (TableCall κ α) → κ → Nat
  | [], _ => 0
  | c :: earlier, k => if c.uses k then earlier.length + 1 else lastUse earlier k

/-- No use is later than the last call. -/
theorem lastUse_le (calls : List (TableCall κ α)) (k : κ) : lastUse calls k ≤ calls.length := by
  induction calls with
  | nil => exact le_refl 0
  | cons c earlier ih =>
    rw [lastUse, List.length_cons]
    split
    · exact le_refl _
    · exact ih.trans (Nat.le_succ _)

/-- The keys stand in the order of their last use. -/
def ByRecency (calls : List (TableCall κ α)) (d : Dict κ α) : Prop :=
  d.keys.Pairwise fun k k' => lastUse calls k < lastUse calls k'

/-- A key that is accessed goes to the end. -/
theorem keys_moveToEnd_set {f : Dict κ α} {key : κ} {v : α} (h : f.get? key = some v) (w : α) :
    ((f.moveToEnd key).set key w).keys = (f.erase key).keys ++ [key] := by
  rw [Dict.keys, Dict.entries_set_moveToEnd h, List.map_append]
  rfl

theorem not_mem_keys_erase {f : Dict κ α} {key k : κ} (h : k ∈ (f.erase key).keys) : k ≠ key := by
  obtain ⟨v, hv⟩ := Dict.mem_keys_iff.mp h
  rintro rfl
  rw [Dict.get?_erase, if_pos rfl] at hv
  exact absurd hv (by simp)

/-- Removing a key leaves the others in their order. -/
theorem keys_erase_sublist (f : Dict κ α) (key : κ) : (f.erase key).keys.Sublist f.keys :=
  List.filter_sublist.map Prod.fst

/-- A call leaves some of the keys it does not use where they are, and puts the one it uses at the end. -/
theorem keys_step (hadmits : d.Admits c) : ∃ kept last, kept.Sublist d.flows.keys ∧
    (d.step c).flows.keys = kept ++ last ∧ (∀ k ∈ kept, c.uses k = false) ∧
    (last = [] ∨ ∃ k, last = [k] ∧ c.uses k = true) := by
  cases c with
  | access key write =>
    unfold OrderedTable.step OrderedTable.call
    dsimp only
    split
    · rename_i hnone
      refine ⟨d.flows.keys, [], .refl _, (List.append_nil _).symm, fun k hk => ?_, .inl rfl⟩
      exact decide_eq_false fun heq => Dict.get?_eq_none_iff.mp hnone (heq ▸ hk)
    · rename_i v hsome
      refine ⟨(d.flows.erase key).keys, [key], keys_erase_sublist _ _, keys_moveToEnd_set hsome _, ?_,
        .inr ⟨key, rfl, decide_eq_true rfl⟩⟩
      exact fun k hk => decide_eq_false (not_mem_keys_erase hk)
  | insert key state =>
    have hnew : ∀ {f : Dict κ α}, f.keys.Sublist d.flows.keys → (f.set key state).keys = f.keys ++ [key] ∧
        ∀ k ∈ f.keys, (TableCall.insert key state).uses k = false := by
      intro f hsub
      have hnot : key ∉ d.flows.keys := Dict.get?_eq_none_iff.mp hadmits
      refine ⟨?_, fun k hk => decide_eq_false fun heq => hnot (heq ▸ hsub.subset hk)⟩
      rw [Dict.keys_set, if_neg fun hmem => hnot (hsub.subset hmem)]
    unfold OrderedTable.step OrderedTable.call
    dsimp only
    split
    · have hsub : d.flows.popFirst.keys.Sublist d.flows.keys := (List.tail_sublist _).map Prod.fst
      exact ⟨_, [key], hsub, (hnew hsub).1, (hnew hsub).2, .inr ⟨key, rfl, decide_eq_true rfl⟩⟩
    · exact ⟨_, [key], .refl _, (hnew (.refl _)).1, (hnew (.refl _)).2, .inr ⟨key, rfl, decide_eq_true rfl⟩⟩
  | pop key =>
    exact ⟨_, [], keys_erase_sublist d.flows key, (List.append_nil _).symm, fun _ _ => rfl, .inl rfl⟩
  | clear => exact ⟨[], [], List.nil_sublist _, rfl, by simp, .inl rfl⟩

/-- A call keeps the order of recency. -/
theorem ByRecency.step (h : ByRecency calls d.flows) (hadmits : d.Admits c) :
    ByRecency (c :: calls) (d.step c).flows := by
  obtain ⟨kept, last, hsub, hkeys, hkept, hlast⟩ := keys_step hadmits
  have huse : ∀ k ∈ kept, lastUse (c :: calls) k = lastUse calls k := by
    intro k hk
    rw [lastUse, if_neg (by simp [hkept k hk])]
  unfold ByRecency
  rw [hkeys, List.pairwise_append]
  refine ⟨?_, ?_, ?_⟩
  · refine (h.sublist hsub).imp_of_mem fun hk hk' hlt => ?_
    rw [huse _ hk, huse _ hk']
    exact hlt
  · rcases hlast with rfl | ⟨k, rfl, -⟩
    · exact .nil
    · exact List.pairwise_singleton _ k
  · intro k hk k' hk'
    rcases hlast with rfl | ⟨used, rfl, hused⟩
    · exact absurd hk' List.not_mem_nil
    · rw [List.mem_singleton.mp hk', huse k hk]
      show lastUse calls k < lastUse (c :: calls) used
      rw [lastUse, if_pos hused]
      exact Nat.lt_succ_of_le (lastUse_le calls k)

/-- The run lemma. -/
theorem ByRecency.run {later : List (TableCall κ α)} (h : ByRecency calls d.flows)
    (hadmits : Along OrderedTable.step OrderedTable.Admits d later) :
    ByRecency (later.reverse ++ calls) (run OrderedTable.step d later).flows := by
  induction later generalizing d calls with
  | nil => exact h
  | cons c later ih =>
    rw [List.reverse_cons, List.append_assoc]
    exact ih (h.step hadmits.1) hadmits.2

/-- There are never more entries than there may be. -/
theorem OrderedTable.size_step (hmax : 0 < d.max) (hsize : d.flows.size ≤ d.max) (hadmits : d.Admits c) :
    (d.step c).flows.size ≤ d.max := by
  cases c with
  | access key write =>
    unfold OrderedTable.step OrderedTable.call
    dsimp only
    split
    · exact hsize
    · rename_i v hsome
      have hset : ((d.flows.moveToEnd key).set key (write v)).entries.Perm
          ((key, write v) :: (d.flows.erase key).entries) := by
        rw [Dict.entries_set_moveToEnd hsome]
        exact List.perm_append_singleton _ _
      have hlength := hset.length_eq
      have herase := Dict.size_erase_of_some hsome
      rw [List.length_cons] at hlength
      show ((d.flows.moveToEnd key).set key (write v)).entries.length ≤ d.max
      unfold Dict.size at herase hsize
      omega
  | insert key state =>
    unfold OrderedTable.step OrderedTable.call
    dsimp only
    split
    · rename_i hfull
      have hpop : d.flows.popFirst.get? key = none := by
        cases hget : d.flows.popFirst.get? key with
        | none => rfl
        | some other => exact absurd (Dict.get?_of_popFirst hget) (by rw [hadmits]; simp)
      have htail : d.flows.popFirst.size = d.flows.size - 1 := List.length_tail
      show (d.flows.popFirst.set key state).size ≤ d.max
      rw [Dict.size_set_of_none hpop]
      omega
    · show (d.flows.set key state).size ≤ d.max
      rw [Dict.size_set_of_none hadmits]
      omega
  | pop key => exact (List.length_filter_le _ _).trans hsize
  | clear => exact Nat.zero_le _

theorem OrderedTable.size_run (hmax : 0 < d.max) (hsize : d.flows.size ≤ d.max) {calls : List (TableCall κ α)}
    (hadmits : Along OrderedTable.step OrderedTable.Admits d calls) :
    (Lib.run OrderedTable.step d calls).max = d.max ∧ (Lib.run OrderedTable.step d calls).flows.size ≤ d.max := by
  induction calls generalizing d with
  | nil => exact ⟨rfl, hsize⟩
  | cons c rest ih =>
    have hstep := d.max_step c
    have hrest := ih (hstep.symm ▸ hmax) (hstep.symm ▸ size_step hmax hsize hadmits.1) hadmits.2
    rw [hstep] at hrest
    exact hrest

/-- **The native table is an ordered map.** Over any calls whose inserts are of absent keys, a table of at least one
entry does not panic and answers as an `OrderedDict` with `move_to_end` on access; its list, index and free slots
are then consistent and read that dictionary; no more than `max` entries are held, in the order of their last use;
and a new key evicts from a full table the entry that was used before all the others. -/
theorem native_table_is_ordered_map (max : Nat) (hmax : 0 < max) (calls : List (TableCall κ α))
    (hadmits : Along OrderedTable.step OrderedTable.Admits (.new max) calls) :
    let d := (run OrderedTable.step (.new max) calls).flows
    ∃ t, (LruTable.new max).runCalls calls = some ((OrderedTable.new max).answers calls, t) ∧
      (∃ chain, Consistent t d chain) ∧ d.size ≤ max ∧
      (d.keys.Pairwise fun k k' => lastUse calls.reverse k < lastUse calls.reverse k') ∧
      ∀ key state, d.get? key = none →
        (d.size < max → ∃ t', t.insert key state = some (none, t')) ∧
        (d.size = max → ∃ k₀ v₀ t', t.insert key state = some (some v₀, t') ∧ d.get? k₀ = some v₀ ∧
          t'.index.get? k₀ = none ∧ ∀ k ∈ d.keys, k ≠ k₀ → lastUse calls.reverse k₀ < lastUse calls.reverse k) := by
  intro d
  obtain ⟨t, hrun, hsim⟩ := (Simulates.new (κ := κ) (α := α) max).run hmax hadmits
  obtain ⟨hmax', hsize⟩ := OrderedTable.size_run (d := .new max) hmax (Nat.zero_le _) hadmits
  have hrecent : ByRecency calls.reverse d := by
    have hempty : ByRecency [] (OrderedTable.new (κ := κ) (α := α) max).flows := .nil
    have hrun := hempty.run hadmits
    rwa [List.append_nil] at hrun
  refine ⟨t, hrun, hsim.consistent, hsize, hrecent, fun key state habsent => ?_⟩
  obtain ⟨t', hinsert, hmid, hholds⟩ := hsim.insert (hmax'.symm ▸ hmax) habsent state
  refine ⟨fun hlt => ⟨t', ?_⟩, fun hfull => ?_⟩
  · rw [hinsert, OrderedTable.call, if_neg (by rw [hmax']; exact not_le.mpr hlt)]
  · obtain ⟨⟨k₀, v₀⟩, rest, hentries⟩ := List.exists_cons_of_length_pos
      (lt_of_lt_of_eq hmax (show max = d.entries.length from hfull.symm))
    -- the first key of the list is the one to go
    have hkeys : d.keys = k₀ :: rest.map Prod.fst := by
      rw [Dict.keys, hentries]
      rfl
    have hnodup : (k₀ :: rest.map Prod.fst).Nodup := hkeys ▸ d.nodup
    have hget : d.get? k₀ = some v₀ := Dict.mem_entries_iff.mp (hentries ▸ List.mem_cons_self)
    have hne : k₀ ≠ key := by
      rintro rfl
      exact absurd (habsent.symm.trans hget) (by simp)
    have hcall : (run OrderedTable.step (.new max) calls).call (.insert key state) =
        (some v₀, ⟨(run OrderedTable.step (.new max) calls).max, d.popFirst.set key state⟩) := by
      rw [OrderedTable.call, if_pos (by rw [hmax']; exact hfull.ge), Dict.values,
        show (run OrderedTable.step (.new max) calls).flows.entries = (k₀, v₀) :: rest from hentries]
      rfl
    rw [hcall] at hinsert
    refine ⟨k₀, v₀, t', hinsert, hget, ?_, ?_⟩
    · -- what is left are the other entries and the new one
      obtain ⟨chain, hrep⟩ := hholds
      refine hrep.lookup_none ?_
      show ((run OrderedTable.step (.new max) calls).step (.insert key state)).flows.get? k₀ = none
      rw [OrderedTable.step, hcall, Dict.get?_set, if_neg hne, Dict.get?_eq_none_iff]
      show k₀ ∉ d.entries.tail.map Prod.fst
      rw [hentries]
      exact (List.nodup_cons.mp hnodup).1
    -- it stands before all others in the order of recency
    · intro k hk hk₀
      have hpair := hrecent
      unfold ByRecency at hpair
      rw [hkeys] at hpair hk
      exact (List.pairwise_cons.mp hpair).1 k ((List.mem_cons.mp hk).resolve_left hk₀)

/-- Key 1 is used again before the third insert, which so evicts key 2. -/
theorem native_table_evicts_the_oldest :
    ∃ t, (LruTable.new 2 : LruTable Nat Nat).runCalls
      [.insert 1 10, .insert 2 20, .access 1 (· + 1), .insert 3 30, .pop 1] =
        some ([none, none, some 10, some 20, some 11], t) := by
  obtain ⟨t, hrun, -⟩ := native_table_is_ordered_map 2 (by decide)
    [.insert 1 10, .insert 2 20, .access 1 (· + 1), .insert 3 30, .pop 1]
    ⟨by decide, by decide, trivial, by decide, trivial, trivial⟩
  exact ⟨t, hrun⟩

end Recency

end Pirewall.Native
