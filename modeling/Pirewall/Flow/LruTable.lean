/-
# Pirewall.Flow.LruTable -- the native engine's table

The Rust engine keeps its open flows in a slab of nodes threaded on a doubly linked list, oldest at the head, with a
hash index by key and a stack of free slots. `NIL` is `none` here. An access to a slot that is not live panics; every
operation is therefore partial, and `none` is a panic.

`Holds t entries` says that the table is the list `entries` of keys and values, oldest first. The results of this
module are one lemma per operation: from a table that holds a list, the operation does not panic and leaves a table
that holds the list an ordered dictionary would have.

Two facts about a table are kept apart, since most steps of an operation change only one of them. `Threaded` is about
the links: the slots of a chain are threaded in that order, from the head to the tail, in both directions.
`Represents` adds the contents: along the chain stand the entries, the index finds each of them in its slot, and the
slots that may be handed out next are dead. An operation that rewires links leaves the contents of every slot
(`Relinked`), so the entries follow from what was there before, and one that writes a value leaves the links.

The chain is not part of the table. It is the witness that a list is what the links say, and it is cut at the slot an
operation is about (`Represents.split`): `unlink_spec` joins the two parts, `linkTail_spec` puts the slot behind them.
-/
import Pirewall.Lib.Chain
import Pirewall.Lib.Dict
import Pirewall.Lib.Traverse

namespace Pirewall.Native

open Lib

variable {κ α : Type}

/-! ## The table -/

/-- `Node`. -/
structure Node (κ α : Type) where
  key : κ
  state : α
  prev : Option Nat
  next : Option Nat

/-- `LruTable`. The free slots form a stack, its top first. -/
structure LruTable (κ α : Type) where
  index : Dict κ Nat
  nodes : List (Option (Node κ α))
  free : List Nat
  head : Option Nat
  tail : Option Nat
  max : Nat

namespace LruTable

def new (max : Nat) : LruTable κ α := ⟨Dict.empty, [], [], none, none, max⟩

/-- `len`. -/
def len (t : LruTable κ α) : Nat := t.index.size

/-- `node`, `node_mut`: out of bounds or not live is a panic. -/
def node (t : LruTable κ α) (slot : Nat) : Option (Node κ α) := t.nodes[slot]?.join

/-- Assign through `node_mut(slot)`. -/
def modifyNode (t : LruTable κ α) (slot : Nat) (f : Node κ α → Node κ α) : Option (LruTable κ α) := do
  let n ← t.node slot
  some { t with nodes := t.nodes.set slot (some (f n)) }

/-- What follows `before`: its node's `next`, or the head of the list. -/
def setAfter (t : LruTable κ α) (before x : Option Nat) : Option (LruTable κ α) :=
  match before with
  | none => some { t with head := x }
  | some slot => t.modifyNode slot fun m => { m with next := x }

/-- What precedes `after`: its node's `prev`, or the tail of the list. -/
def setBefore (t : LruTable κ α) (after x : Option Nat) : Option (LruTable κ α) :=
  match after with
  | none => some { t with tail := x }
  | some slot => t.modifyNode slot fun m => { m with prev := x }

/-- `unlink`. -/
def unlink (t : LruTable κ α) (slot : Nat) : Option (LruTable κ α) := do
  let n ← t.node slot
  let t ← t.setAfter n.prev n.next
  t.setBefore n.next n.prev

/-- `link_tail`. -/
def linkTail (t : LruTable κ α) (slot : Nat) : Option (LruTable κ α) := do
  let tail := t.tail
  let t ← t.modifyNode slot fun n => { n with prev := tail, next := none }
  let t ← t.setAfter tail (some slot)
  some { t with tail := some slot }

/-- Make a slot the most recently used. -/
def touch (t : LruTable κ α) (slot : Nat) : Option (LruTable κ α) :=
  if t.tail ≠ some slot then (t.unlink slot).bind fun t => t.linkTail slot else some t

section Keys

variable [DecidableEq κ]

/-- `get_mut`: a hit becomes the most recently used. The reference is the slot it leads to. -/
def getMut (t : LruTable κ α) (key : κ) : Option (Option Nat × LruTable κ α) :=
  match t.index.get? key with
  | none => some (none, t)
  | some slot => do
      let t ← t.touch slot
      let _ ← t.node slot
      some (some slot, t)

/-- `pop`. -/
def pop (t : LruTable κ α) (key : κ) : Option (Option α × LruTable κ α) :=
  match t.index.get? key with
  | none => some (none, t)
  | some slot => do
      let t ← { t with index := t.index.erase key }.unlink slot
      let node ← t.node slot
      some (some node.state, { t with nodes := t.nodes.set slot none, free := slot :: t.free })

/-- The part of `insert` before the new node: make room. -/
def makeRoom (t : LruTable κ α) : Option (Option α × LruTable κ α) :=
  match t.head with
  | none => some (none, t)
  | some oldest =>
    if t.len ≥ t.max then do
      let node ← t.node oldest
      t.pop node.key
    else some (none, t)

/-- A slot for a new node: the last one freed, or a new one at the end of the slab. -/
def place (t : LruTable κ α) (node : Node κ α) : Nat × LruTable κ α :=
  match t.free with
  | slot :: free => (slot, { t with nodes := t.nodes.set slot (some node), free })
  | [] => (t.nodes.length, { t with nodes := t.nodes ++ [some node] })

/-- `insert`. -/
def insert (t : LruTable κ α) (key : κ) (state : α) : Option (Option α × LruTable κ α) := do
  let (evicted, t) ← t.makeRoom
  let (slot, t) := t.place ⟨key, state, none, none⟩
  let t ← t.linkTail slot
  some (evicted, { t with index := t.index.set key slot })

end Keys

/-- The links between the nodes. -/
def links (t : LruTable κ α) : Links Nat := fun slot => (t.node slot).map fun n => (n.prev, n.next)

/-- `slots`: oldest first. A walk that meets more slots than there are would not end. -/
def slots (t : LruTable κ α) : Option (List Nat) := Lib.walk t.links t.nodes.length t.head

/-- The nodes behind `slots`. -/
def openNodes (t : LruTable κ α) : Option (List (Node κ α)) := do
  (← t.slots).mapM t.node

/-- `clear`. -/
def clear (t : LruTable κ α) : LruTable κ α := ⟨Dict.empty, [], [], none, none, t.max⟩

/-! ## Nodes and links -/

/-- What a live slot holds. -/
def content (t : LruTable κ α) (slot : Nat) : Option (κ × α) := (t.node slot).map fun n => (n.key, n.state)

/-- A live slot is within the slab. -/
theorem lt_of_node {t : LruTable κ α} {slot : Nat} {n : Node κ α} (h : t.node slot = some n) :
    slot < t.nodes.length := by
  by_contra hge
  rw [node, List.getElem?_eq_none (by omega)] at h
  exact absurd h (by simp)

/-- The slab after writing one slot. -/
theorem node_set {t : LruTable κ α} {slot : Nat} (h : slot < t.nodes.length) (x : Option (Node κ α))
    (s : Nat) : (t.nodes.set slot x)[s]?.join = if s = slot then x else t.node s := by
  by_cases hs : s = slot
  · subst hs
    rw [List.getElem?_set_self h, if_pos rfl, Option.join_some]
  · rw [List.getElem?_set_ne (Ne.symm hs), if_neg hs]
    rfl

/-- Nothing but the links differs. -/
structure Relinked (t t' : LruTable κ α) : Prop where
  index : t'.index = t.index
  free : t'.free = t.free
  max : t'.max = t.max
  length : t'.nodes.length = t.nodes.length
  content : ∀ slot, t'.content slot = t.content slot

/-- Nothing was rewired. -/
theorem Relinked.refl (t : LruTable κ α) : Relinked t t := ⟨rfl, rfl, rfl, rfl, fun _ => rfl⟩

theorem Relinked.trans {t t' t'' : LruTable κ α} (h : Relinked t t') (h' : Relinked t' t'') :
    Relinked t t'' :=
  ⟨h'.index.trans h.index, h'.free.trans h.free, h'.max.trans h.max, h'.length.trans h.length,
    fun slot => (h'.content slot).trans (h.content slot)⟩

/-- Assigning the links of a live slot. -/
theorem modifyNode_links {t : LruTable κ α} {slot : Nat} (h : (t.node slot).isSome = true)
    (f : Node κ α → Node κ α) (hf : ∀ n, (f n).key = n.key ∧ (f n).state = n.state) :
    ∃ t', t.modifyNode slot f = some t' ∧ Relinked t t' ∧ t'.head = t.head ∧ t'.tail = t.tail ∧
      ∀ s, t'.node s = if s = slot then (t.node slot).map f else t.node s := by
  obtain ⟨n, hn⟩ := Option.isSome_iff_exists.mp h
  have hnode := node_set (lt_of_node hn) (some (f n))
  refine ⟨{ t with nodes := t.nodes.set slot (some (f n)) }, ?_,
    ⟨rfl, rfl, rfl, List.length_set, ?_⟩, rfl, rfl, ?_⟩
  · simp [modifyNode, hn]
  · intro s
    rw [content, node, hnode s]
    split
    · rename_i hs
      rw [content, hs, hn, Option.map_some, Option.map_some, (hf n).1, (hf n).2]
    · rfl
  · intro s
    rw [node, hnode s, hn, Option.map_some]

/-- Assigning `next` of a live slot does not panic. -/
theorem modifyNode_setNext {t : LruTable κ α} {slot : Nat} (h : (t.node slot).isSome = true)
    (x : Option Nat) : ∃ t', t.modifyNode slot (fun m => { m with next := x }) = some t' ∧ Relinked t t' ∧
      t'.head = t.head ∧ t'.tail = t.tail ∧ t'.links = setNext t.links slot x := by
  obtain ⟨t', heq, hsame, hhead, htail, hnode⟩ := modifyNode_links h (fun m => { m with next := x })
    fun n => ⟨rfl, rfl⟩
  refine ⟨t', heq, hsame, hhead, htail, ?_⟩
  funext s
  rw [links, hnode s, setNext]
  split
  · simp [links, Option.map_map, Function.comp_def]
  · rfl

/-- Nor does assigning `prev`. -/
theorem modifyNode_setPrev {t : LruTable κ α} {slot : Nat} (h : (t.node slot).isSome = true)
    (x : Option Nat) : ∃ t', t.modifyNode slot (fun m => { m with prev := x }) = some t' ∧ Relinked t t' ∧
      t'.head = t.head ∧ t'.tail = t.tail ∧ t'.links = setPrev t.links slot x := by
  obtain ⟨t', heq, hsame, hhead, htail, hnode⟩ := modifyNode_links h (fun m => { m with prev := x })
    fun n => ⟨rfl, rfl⟩
  refine ⟨t', heq, hsame, hhead, htail, ?_⟩
  funext s
  rw [links, hnode s, setPrev]
  split
  · simp [links, Option.map_map, Function.comp_def]
  · rfl

/-! ## The chain through the slab -/

/-- The slots of `chain` are threaded in that order from `head` to `tail`. -/
structure Threaded (t : LruTable κ α) (chain : List Nat) : Prop where
  nodup : chain.Nodup
  seg : Seg t.links none chain none
  head : t.head = chain.head?
  tail : t.tail = chain.getLast?

/-- Every slot of the chain is live. -/
theorem Threaded.isSome {t : LruTable κ α} {chain : List Nat} (h : t.Threaded chain) {slot : Nat}
    (hs : slot ∈ chain) : (t.node slot).isSome = true := by
  have := seg_isSome h.seg hs
  rwa [links, Option.isSome_map] at this

theorem isSome_of_relinked {t t' : LruTable κ α} (h : Relinked t t') (slot : Nat) :
    (t'.node slot).isSome = (t.node slot).isSome := by
  have := congrArg Option.isSome (h.content slot)
  rwa [content, content, Option.isSome_map, Option.isSome_map] at this

/-- Redirecting what follows a segment. -/
theorem setAfter_spec {t : LruTable κ α} {l : List Nat} (hlive : ∀ s ∈ l, (t.node s).isSome = true)
    (x : Option Nat) : ∃ t', t.setAfter l.getLast? x = some t' ∧ Relinked t t' ∧ t'.tail = t.tail ∧
      t'.head = (if l = [] then x else t.head) ∧ t'.links = setLast t.links l.getLast? x := by
  cases hlast : l.getLast? with
  | none =>
    obtain rfl := List.getLast?_eq_none_iff.mp hlast
    exact ⟨_, rfl, ⟨rfl, rfl, rfl, rfl, fun _ => rfl⟩, rfl, rfl, rfl⟩
  | some last =>
    have hmem : last ∈ l := List.mem_of_getLast? hlast
    obtain ⟨t', heq, hsame, hhead, htail, hset⟩ := modifyNode_setNext (hlive last hmem) x
    exact ⟨t', heq, hsame, htail, by rw [if_neg (List.ne_nil_of_mem hmem), hhead], hset⟩

/-- Redirecting what precedes a segment. -/
theorem setBefore_spec {t : LruTable κ α} {r : List Nat} (hlive : ∀ s ∈ r, (t.node s).isSome = true)
    (x : Option Nat) : ∃ t', t.setBefore r.head? x = some t' ∧ Relinked t t' ∧ t'.head = t.head ∧
      t'.tail = (if r = [] then x else t.tail) ∧ t'.links = setFirst t.links r.head? x := by
  cases hhead : r.head? with
  | none =>
    obtain rfl := List.head?_eq_none_iff.mp hhead
    exact ⟨_, rfl, ⟨rfl, rfl, rfl, rfl, fun _ => rfl⟩, rfl, rfl, rfl⟩
  | some first =>
    have hmem : first ∈ r := List.mem_of_head? hhead
    obtain ⟨t', heq, hsame, hhead, htail, hset⟩ := modifyNode_setPrev (hlive first hmem) x
    exact ⟨t', heq, hsame, hhead, by rw [if_neg (List.ne_nil_of_mem hmem), htail], hset⟩

/-- `unlink` takes its slot out of the chain. -/
theorem unlink_spec {t : LruTable κ α} {l r : List Nat} {slot : Nat} (h : t.Threaded (l ++ slot :: r)) :
    ∃ t', t.unlink slot = some t' ∧ t'.Threaded (l ++ r) ∧ Relinked t t' := by
  have hmem : slot ∈ l ++ slot :: r := by simp
  obtain ⟨n, hn⟩ := Option.isSome_iff_exists.mp (h.isSome hmem)
  have hneighbours : n.prev = l.getLast? ∧ n.next = r.head? := by
    have hlinks := seg_at h.seg
    rw [links, hn, Option.map_some, Option.some_inj] at hlinks
    exact Prod.mk.inj hlinks
  obtain ⟨t₁, heq₁, hsame₁, htail₁, hhead₁, hlinks₁⟩ :=
    setAfter_spec (l := l) (fun s hs => h.isSome (by simp [hs])) r.head?
  obtain ⟨t₂, heq₂, hsame₂, hhead₂, htail₂, hlinks₂⟩ := setBefore_spec (r := r)
    (fun s hs => (isSome_of_relinked hsame₁ s).trans (h.isSome (by simp [hs]))) l.getLast?
  refine ⟨t₂, ?_, ⟨?_, ?_, ?_, ?_⟩, hsame₁.trans hsame₂⟩
  · rw [unlink, hn, Option.bind_eq_bind, Option.bind_some, hneighbours.1, hneighbours.2, heq₁,
      Option.bind_eq_bind, Option.bind_some, heq₂]
  · exact h.nodup.sublist (List.Sublist.append_left (List.sublist_cons_self slot r) l)
  · rw [hlinks₂, hlinks₁]
    exact seg_unlink h.nodup h.seg
  · rw [hhead₂, hhead₁, h.head]
    cases l with
    | nil => rfl
    | cons a l => rfl
  · rw [htail₂, htail₁, h.tail]
    rcases List.eq_nil_or_concat r with rfl | ⟨r, b, rfl⟩
    · rw [if_pos rfl, List.append_nil]
    · rw [if_neg (by simp), List.concat_eq_append, ← List.cons_append, ← List.append_assoc,
        ← List.append_assoc, List.getLast?_concat, List.getLast?_concat]

/-- `link_tail` puts a live slot at the end of the chain. -/
theorem linkTail_spec {t : LruTable κ α} {chain : List Nat} {slot : Nat} (h : t.Threaded chain)
    (hlive : (t.node slot).isSome = true) (hnew : slot ∉ chain) :
    ∃ t', t.linkTail slot = some t' ∧ t'.Threaded (chain ++ [slot]) ∧ Relinked t t' := by
  obtain ⟨t₁, heq₁, hsame₁, hhead₁, _, hnode₁⟩ :=
    modifyNode_links hlive (fun n => { n with prev := t.tail, next := none }) fun n => ⟨rfl, rfl⟩
  obtain ⟨t₂, heq₂, hsame₂, _, hhead₂, hlinks₂⟩ := setAfter_spec
    (fun s hs => (isSome_of_relinked hsame₁ s).trans (h.isSome hs)) (some slot)
  have hslot : t₁.links slot = some (chain.getLast?, none) := by
    obtain ⟨n, hn⟩ := Option.isSome_iff_exists.mp hlive
    rw [links, hnode₁ slot, if_pos rfl, hn, h.tail]
    rfl
  have hothers : ∀ a ∈ chain, t₁.links a = t.links a := by
    intro a ha
    rw [links, hnode₁ a, if_neg (ne_of_mem_of_not_mem ha hnew)]
    rfl
  refine ⟨{ t₂ with tail := some slot }, ?_, ⟨?_, ?_, ?_, ?_⟩, ?_⟩
  · rw [linkTail]
    simp only [heq₁, Option.bind_eq_bind, Option.bind_some]
    rw [h.tail, heq₂, Option.bind_some]
  · rw [List.nodup_append]
    refine ⟨h.nodup, List.nodup_singleton slot, ?_⟩
    intro a ha b hb hab
    exact hnew (List.mem_singleton.mp hb ▸ hab ▸ ha)
  · change Seg t₂.links none (chain ++ [slot]) none
    rw [hlinks₂]
    exact seg_linkLast h.nodup hnew h.seg hslot hothers
  · change t₂.head = (chain ++ [slot]).head?
    rw [hhead₂, hhead₁, h.head]
    cases chain with
    | nil => rfl
    | cons a chain => rfl
  · rw [List.getLast?_concat]
  · have hsame := hsame₁.trans hsame₂
    exact ⟨hsame.index, hsame.free, hsame.max, hsame.length, hsame.content⟩

/-- Whether or not the slot was last already, it is last now. -/
theorem touch_spec {t : LruTable κ α} {l r : List Nat} {slot : Nat} (h : t.Threaded (l ++ slot :: r)) :
    ∃ t', t.touch slot = some t' ∧ t'.Threaded ((l ++ r) ++ [slot]) ∧ Relinked t t' := by
  have hnodup := h.nodup
  rw [List.nodup_middle, List.nodup_cons] at hnodup
  unfold touch
  split
  · obtain ⟨t₁, heq₁, hthreaded₁, hsame₁⟩ := unlink_spec h
    have hlive : (t₁.node slot).isSome = true :=
      (isSome_of_relinked hsame₁ slot).trans (h.isSome (by simp))
    obtain ⟨t₂, heq₂, hthreaded₂, hsame₂⟩ := linkTail_spec hthreaded₁ hlive hnodup.1
    exact ⟨t₂, by rw [heq₁, Option.bind_some, heq₂], hthreaded₂, hsame₁.trans hsame₂⟩
  · rename_i hlast
    have htail : (l ++ slot :: r).getLast? = some slot := by
      rw [← h.tail]
      exact not_not.mp hlast
    rcases List.eq_nil_or_concat r with rfl | ⟨r, b, rfl⟩
    · rw [List.append_nil]
      exact ⟨t, rfl, h, .refl t⟩
    · rw [List.concat_eq_append, ← List.cons_append, ← List.append_assoc, List.getLast?_concat] at htail
      exact absurd (by simp [← Option.some.inj htail]) hnodup.1

/-! ## The table as a list -/

section Holds

variable [DecidableEq κ]

/-- The slots of `chain`, oldest first, hold `entries`; the index finds them; every other slot the table
may hand out is dead. -/
structure Represents (t : LruTable κ α) (chain : List Nat) (entries : List (κ × α)) : Prop where
  threaded : t.Threaded chain
  contents : chain.map t.content = entries.map some
  keys : (entries.map Prod.fst).Nodup
  index : ∀ k slot, t.index.get? k = some slot ↔
    slot ∈ chain ∧ (t.content slot).map Prod.fst = some k
  size : t.index.size = chain.length
  free_nodup : t.free.Nodup
  free_dead : ∀ slot ∈ t.free, slot < t.nodes.length ∧ t.content slot = none

/-- The table is the list `entries`, oldest first. -/
def Holds (t : LruTable κ α) (entries : List (κ × α)) : Prop := ∃ chain, t.Represents chain entries

/-- A new table is empty. -/
theorem new_holds (max : Nat) : (new max : LruTable κ α).Holds [] :=
  ⟨[], ⟨List.nodup_nil, trivial, rfl, rfl⟩, rfl, List.nodup_nil, by simp [new], rfl, List.nodup_nil,
    by simp [new]⟩

/-- So is one that was cleared. -/
theorem clear_holds (t : LruTable κ α) : t.clear.Holds [] := new_holds t.max

variable {t : LruTable κ α} {chain : List Nat} {entries : List (κ × α)}

theorem Represents.length (h : t.Represents chain entries) : entries.length = t.len := by
  have := congrArg List.length h.contents
  rw [List.length_map, List.length_map] at this
  rw [len, h.size, this]

/-- A slot of the chain cuts chain and entries at the same place. -/
theorem Represents.split (h : t.Represents chain entries) {k : κ} {slot : Nat}
    (hindex : t.index.get? k = some slot) : ∃ l r before v after, chain = l ++ slot :: r ∧
      entries = before ++ (k, v) :: after ∧ t.content slot = some (k, v) ∧
      l.map t.content = before.map some ∧ r.map t.content = after.map some := by
  obtain ⟨hmem, hkey⟩ := (h.index k slot).mp hindex
  obtain ⟨l, r, rfl⟩ := List.append_of_mem hmem
  have hcontents := h.contents
  rw [List.map_append, List.map_cons] at hcontents
  obtain ⟨before, rest, rfl, hbefore, hrest⟩ := List.map_eq_append_iff.mp hcontents.symm
  obtain ⟨⟨k', v⟩, after, rfl, hslot, hafter⟩ := List.map_eq_cons_iff.mp hrest
  rw [← hslot, Option.map_some, Option.some_inj] at hkey
  obtain rfl : k' = k := hkey
  exact ⟨l, r, before, v, after, rfl, rfl, hslot.symm, hbefore.symm, hafter.symm⟩

/-- A key that has an entry is in the index. -/
theorem Represents.lookup_some (h : t.Represents chain entries) {k : κ} {v : α}
    (hk : entries.lookup k = some v) : ∃ slot, t.index.get? k = some slot := by
  have hmem := (Dict.lookup_eq_some_iff h.keys).mp hk
  have hcontent : some (k, v) ∈ chain.map t.content := by
    rw [h.contents]
    exact List.mem_map_of_mem hmem
  obtain ⟨slot, hslot, heq⟩ := List.mem_map.mp hcontent
  exact ⟨slot, (h.index k slot).mpr ⟨hslot, by rw [heq]; rfl⟩⟩

/-- One that has none is not. -/
theorem Represents.lookup_none (h : t.Represents chain entries) {k : κ} (hk : entries.lookup k = none) :
    t.index.get? k = none := by
  cases hindex : t.index.get? k with
  | none => rfl
  | some slot =>
    obtain ⟨_, _, before, v, after, _, rfl, _⟩ := h.split hindex
    have hmem := (Dict.lookup_eq_some_iff h.keys).mpr (List.mem_append_right before List.mem_cons_self)
    rw [hk] at hmem
    exact absurd hmem (by simp)

/-- The entries of the other slots, once one is out of the chain. -/
theorem Represents.others (h : t.Represents chain entries) {k : κ} {slot : Nat} {l r : List Nat}
    {before after : List (κ × α)} {v : α} (hchain : chain = l ++ slot :: r)
    (hentries : entries = before ++ (k, v) :: after) (hl : l.map t.content = before.map some)
    (hr : r.map t.content = after.map some) {s : Nat} (hs : s ∈ l ++ r) :
    s ≠ slot ∧ (t.content s).map Prod.fst ≠ some k := by
  have hnodup := h.threaded.nodup
  have hkeys := h.keys
  rw [hchain, List.nodup_middle, List.nodup_cons] at hnodup
  rw [hentries, List.map_append, List.map_cons, List.nodup_middle, List.nodup_cons] at hkeys
  refine ⟨ne_of_mem_of_not_mem hs hnodup.1, ?_⟩
  intro hkey
  obtain ⟨e, he, hek⟩ := Option.map_eq_some_iff.mp hkey
  have hmem : t.content s ∈ (before ++ after).map some := by
    rw [List.map_append, ← hl, ← hr, ← List.map_append]
    exact List.mem_map_of_mem hs
  rw [he, List.mem_map] at hmem
  obtain ⟨e', he', heq⟩ := hmem
  refine hkeys.1 ?_
  rw [← List.map_append, List.mem_map]
  exact ⟨e', he', by rw [Option.some.inj heq, hek]⟩

/-- Rewiring the links keeps the entries. -/
theorem Represents.relinked (h : t.Represents chain entries) {t' : LruTable κ α} {chain' : List Nat}
    {entries' : List (κ × α)} (hthreaded : t'.Threaded chain') (hsame : Relinked t t')
    (hchain : chain'.Perm chain) (hentries : entries'.Perm entries)
    (hcontents : chain'.map t.content = entries'.map some) : t'.Represents chain' entries' where
  threaded := hthreaded
  contents := by rw [← hcontents, funext hsame.content]
  keys := (hentries.map Prod.fst).nodup_iff.mpr h.keys
  index := by
    intro k slot
    rw [hsame.index, hsame.content, h.index, hchain.mem_iff]
  size := by rw [hsame.index, h.size, hchain.length_eq]
  free_nodup := hsame.free ▸ h.free_nodup
  free_dead := by
    intro slot hslot
    rw [hsame.length, hsame.content]
    exact h.free_dead slot (hsame.free ▸ hslot)

/-! ## Look-up -/

/-- A miss changes nothing. -/
theorem getMut_none (h : t.Holds entries) {k : κ} (hk : entries.lookup k = none) :
    t.getMut k = some (none, t) := by
  obtain ⟨chain, h⟩ := h
  rw [getMut, h.lookup_none hk]

/-- Assigning the value of the most recently used slot. -/
theorem Represents.setState {l : List Nat} {slot : Nat} {before : List (κ × α)} {k : κ} {v : α}
    (h : t.Represents (l ++ [slot]) (before ++ [(k, v)])) (state : α) :
    ∃ t', t.modifyNode slot (fun n => { n with state }) = some t' ∧ t'.max = t.max ∧
      t'.Represents (l ++ [slot]) (before ++ [(k, state)]) := by
  have hcontents := h.contents
  rw [List.map_append, List.map_append] at hcontents
  obtain ⟨hl, hslot⟩ := List.append_inj' hcontents rfl
  have hcontent : t.content slot = some (k, v) := List.singleton_inj.mp hslot
  obtain ⟨n, hn, hnkv⟩ := Option.map_eq_some_iff.mp hcontent
  have hnode := node_set (lt_of_node hn) (some { n with state })
  refine ⟨{ t with nodes := t.nodes.set slot (some { n with state }) }, by simp [modifyNode, hn], rfl, ?_⟩
  have hlinks : ({ t with nodes := t.nodes.set slot (some { n with state }) } : LruTable κ α).links =
      t.links := by
    funext s
    rw [links, node, hnode s, links]
    split
    · rename_i hs
      rw [hs, hn]
      rfl
    · rfl
  have hset : ∀ s, ({ t with nodes := t.nodes.set slot (some { n with state }) } :
      LruTable κ α).content s = if s = slot then some (k, state) else t.content s := by
    intro s
    rw [content, node, hnode s]
    split
    · rw [Option.map_some, (Prod.mk.inj hnkv).1]
    · rfl
  have hnew : slot ∉ l := fun hs =>
    (List.nodup_append.mp h.threaded.nodup).2.2 slot hs slot List.mem_cons_self rfl
  refine ⟨⟨h.threaded.nodup, ?_, h.threaded.head, h.threaded.tail⟩, ?_, ?_, ?_, h.size, h.free_nodup, ?_⟩
  · rw [hlinks]
    exact h.threaded.seg
  · rw [List.map_append, List.map_append, ← hl,
      List.map_congr_left fun s hs => (hset s).trans (if_neg (ne_of_mem_of_not_mem hs hnew))]
    simp [hset]
  · simpa using h.keys
  · intro k' s
    rw [h.index, hset]
    split
    · rename_i hs
      rw [hs, hcontent]
      rfl
    · rfl
  · intro s hs
    obtain ⟨hlt, hdead⟩ := h.free_dead s hs
    refine ⟨by simpa using hlt, ?_⟩
    rw [hset, if_neg, hdead]
    rintro rfl
    rw [hcontent] at hdead
    exact absurd hdead (by simp)

/-- A hit goes to the end, and the slot it returns is where its value can be assigned. -/
theorem getMut_some (h : t.Holds entries) {k : κ} {v : α} (hk : entries.lookup k = some v) :
    ∃ slot n t', t.getMut k = some (some slot, t') ∧ t'.node slot = some n ∧ n.state = v ∧
      ∀ state, ∃ t'', t'.modifyNode slot (fun n => { n with state }) = some t'' ∧ t''.max = t.max ∧
        t''.Holds (entries.filter (fun e => decide (e.1 ≠ k)) ++ [(k, state)]) := by
  obtain ⟨chain, h⟩ := h
  obtain ⟨slot, hindex⟩ := h.lookup_some hk
  obtain ⟨l, r, before, w, after, rfl, rfl, hslot, hl, hr⟩ := h.split hindex
  have hw : w = v := by
    have := (Dict.lookup_eq_some_iff h.keys).mpr (List.mem_append_right before List.mem_cons_self)
    rw [hk] at this
    exact (Option.some.inj this).symm
  subst hw
  obtain ⟨t', heq, hthreaded, hsame⟩ := touch_spec h.threaded
  have hrep := h.relinked hthreaded hsame
    (List.perm_append_singleton slot (l ++ r) |>.trans List.perm_middle.symm)
    (List.perm_append_singleton (k, w) (before ++ after) |>.trans List.perm_middle.symm)
    (by simp [hl, hr, hslot])
  obtain ⟨n, hn, hnkw⟩ := Option.map_eq_some_iff.mp ((hsame.content slot).trans hslot)
  refine ⟨slot, n, t', ?_, hn, (Prod.mk.inj hnkw).2, ?_⟩
  · rw [getMut, hindex]
    simp only [heq, hn, Option.bind_eq_bind, Option.bind_some]
  · intro state
    obtain ⟨t'', heq'', hmax, hrep''⟩ := hrep.setState state
    refine ⟨t'', heq'', hmax.trans hsame.max, (l ++ r) ++ [slot], ?_⟩
    rw [Dict.filter_ne_of_nodup h.keys]
    exact hrep''

/-! ## Removal -/

/-- Removing a key that is not there changes nothing. -/
theorem pop_none (h : t.Holds entries) {k : κ} (hk : entries.lookup k = none) :
    t.pop k = some (none, t) := by
  obtain ⟨chain, h⟩ := h
  rw [pop, h.lookup_none hk]

/-- A removed entry leaves the others in their order; its slot is free. -/
theorem pop_some (h : t.Holds entries) {k : κ} {v : α} (hk : entries.lookup k = some v) :
    ∃ t', t.pop k = some (some v, t') ∧ t'.max = t.max ∧
      t'.Holds (entries.filter fun e => decide (e.1 ≠ k)) := by
  obtain ⟨chain, h⟩ := h
  obtain ⟨slot, hindex⟩ := h.lookup_some hk
  obtain ⟨l, r, before, w, after, rfl, rfl, hslot, hl, hr⟩ := h.split hindex
  -- the slot that the index leads to holds the value that the list has for the key
  have hw : w = v := by
    have := (Dict.lookup_eq_some_iff h.keys).mpr (List.mem_append_right before List.mem_cons_self)
    rw [hk] at this
    exact (Option.some.inj this).symm
  subst hw
  have hthreaded : ({ t with index := t.index.erase k } : LruTable κ α).Threaded (l ++ slot :: r) :=
    ⟨h.threaded.nodup, h.threaded.seg, h.threaded.head, h.threaded.tail⟩
  obtain ⟨t', heq, hthreaded', hsame⟩ := unlink_spec hthreaded
  obtain ⟨n, hn, hnkw⟩ := Option.map_eq_some_iff.mp ((hsame.content slot).trans hslot)
  have hnode := node_set (lt_of_node hn) none
  have hothers := fun s hs => h.others rfl rfl hl hr (s := s) hs
  refine ⟨{ t' with nodes := t'.nodes.set slot none, free := slot :: t'.free }, ?_, hsame.max, l ++ r, ?_⟩
  · rw [pop, hindex]
    simp only [heq, hn, Option.bind_eq_bind, Option.bind_some, (Prod.mk.inj hnkw).2]
  -- besides the links, only the removed slot has changed
  have hset : ∀ s, ({ t' with nodes := t'.nodes.set slot none, free := slot :: t'.free } :
      LruTable κ α).content s = if s = slot then none else t.content s := by
    intro s
    rw [content, node, hnode s]
    split
    · rfl
    · exact hsame.content s
  have hkept : ∀ s ∈ l ++ r, ({ t' with nodes := t'.nodes.set slot none, free := slot :: t'.free } :
      LruTable κ α).content s = t.content s := fun s hs => (hset s).trans (if_neg (hothers s hs).1)
  rw [Dict.filter_ne_of_nodup h.keys]
  refine ⟨⟨hthreaded'.nodup, ?_, hthreaded'.head, hthreaded'.tail⟩, ?_, ?_, ?_, ?_, ?_, ?_⟩
  -- the list of links: `unlink` closed the gap, and clearing the slot is outside it
  · refine seg_congr (fun s hs => ?_) hthreaded'.seg
    rw [links, node, hnode s, if_neg (hothers s hs).1]
    rfl
  · rw [List.map_congr_left hkept, List.map_append, hl, hr, List.map_append]
  -- one key less
  · have hkeys := h.keys
    rw [List.map_append, List.map_cons, List.nodup_middle, List.nodup_cons] at hkeys
    rw [List.map_append]
    exact hkeys.2
  -- the index leads to the same slots, but from the removed key nowhere
  · intro k' s
    have hget : t'.index.get? k' = if k' = k then none else t.index.get? k' := by
      rw [hsame.index, Dict.get?_erase]
    rw [hset]
    change t'.index.get? k' = some s ↔ _
    rw [hget]
    by_cases hs : s = slot
    · subst hs
      rw [if_pos rfl]
      refine iff_of_false ?_ (by simp)
      split
      · simp
      · rename_i hne
        intro hget
        have hkey := ((h.index k' s).mp hget).2
        rw [hslot, Option.map_some, Option.some_inj] at hkey
        exact hne hkey.symm
    · rw [if_neg hs]
      have hmem : s ∈ l ++ slot :: r ↔ s ∈ l ++ r := by simp [hs]
      split
      · rename_i hk'
        subst hk'
        exact iff_of_false (by simp) fun hsk => (hothers s hsk.1).2 hsk.2
      · rw [h.index, hmem]
  · have hsize := Dict.size_erase_of_some hindex
    have hlen := h.size
    change t'.index.size = (l ++ r).length
    rw [hsame.index]
    simp only [List.length_append, List.length_cons] at hlen ⊢
    omega
  -- the freed slot was live, so it was not on the stack before
  · refine List.nodup_cons.mpr ⟨?_, hsame.free ▸ h.free_nodup⟩
    intro hfree
    have hdead := (h.free_dead slot (hsame.free ▸ hfree)).2
    rw [hslot] at hdead
    exact absurd hdead (by simp)
  · intro s hs
    change s < (t'.nodes.set slot none).length ∧ _
    rw [hset, List.length_set]
    rcases List.mem_cons.mp hs with rfl | hs
    · exact ⟨lt_of_node hn, if_pos rfl⟩
    · obtain ⟨hlt, hdead⟩ := h.free_dead s (hsame.free ▸ hs)
      refine ⟨hsame.length.symm ▸ hlt, ?_⟩
      split
      · rfl
      · exact hdead

/-! ## Insertion -/

/-- Below capacity, or empty, nothing has to go. -/
theorem makeRoom_none (h : t.Holds entries) (hroom : entries.length < t.max) :
    t.makeRoom = some (none, t) := by
  obtain ⟨chain, h⟩ := h
  have hlen := h.length
  unfold makeRoom
  split
  · rfl
  · rw [if_neg (by omega)]

/-- At capacity the oldest entry goes. -/
theorem makeRoom_some {k : κ} {v : α} (h : t.Holds ((k, v) :: entries))
    (hfull : t.max ≤ ((k, v) :: entries).length) :
    ∃ t', t.makeRoom = some (some v, t') ∧ t'.max = t.max ∧ t'.Holds entries := by
  obtain ⟨t', heq, hmax, hholds⟩ := pop_some h (k := k) (v := v) (by simp)
  obtain ⟨chain, h⟩ := h
  have hlen := h.length
  cases chain with
  | nil => exact absurd h.contents (by simp)
  | cons slot chain =>
    have hcontent : t.content slot = some (k, v) := (List.cons.inj h.contents).1
    obtain ⟨n, hn, hnkv⟩ := Option.map_eq_some_iff.mp hcontent
    have hrest : ((k, v) :: entries).filter (fun e => decide (e.1 ≠ k)) = entries :=
      Dict.filter_ne_of_nodup (l := []) h.keys
    refine ⟨t', ?_, hmax, hrest ▸ hholds⟩
    rw [makeRoom, h.threaded.head, List.head?_cons]
    simp only [hn, Option.bind_eq_bind, Option.bind_some, (Prod.mk.inj hnkv).1]
    rw [if_pos (by omega), heq]

/-- A new node goes to a dead slot and touches nothing else. -/
theorem place_spec (h : t.Represents chain entries) (n : Node κ α) :
    (t.place n).1 ∉ chain ∧ (t.place n).1 < (t.place n).2.nodes.length ∧
    (∀ s, (t.place n).2.node s = if s = (t.place n).1 then some n else t.node s) ∧
    (t.place n).2.index = t.index ∧ (t.place n).2.max = t.max ∧ (t.place n).2.head = t.head ∧
    (t.place n).2.tail = t.tail ∧ (t.place n).2.free.Nodup ∧
    (∀ s ∈ (t.place n).2.free, s ∈ t.free ∧ s ≠ (t.place n).1) ∧
    t.nodes.length ≤ (t.place n).2.nodes.length := by
  unfold place
  split
  · rename_i slot free hfree
    obtain ⟨hlt, hdead⟩ := h.free_dead slot (by simp [hfree])
    have hnodup := h.free_nodup
    rw [hfree, List.nodup_cons] at hnodup
    refine ⟨?_, by simpa using hlt, node_set hlt (some n), rfl, rfl, rfl, rfl, hnodup.2, ?_, by simp⟩
    · intro hmem
      obtain ⟨m, hm⟩ := Option.isSome_iff_exists.mp (h.threaded.isSome hmem)
      rw [content, hm] at hdead
      exact absurd hdead (by simp)
    · exact fun s hs => ⟨by simp [hfree, hs], ne_of_mem_of_not_mem hs hnodup.1⟩
  · rename_i hfree
    refine ⟨?_, by simp, ?_, rfl, rfl, rfl, rfl, h.free_nodup, by simp [hfree], by simp⟩
    · intro hmem
      obtain ⟨m, hm⟩ := Option.isSome_iff_exists.mp (h.threaded.isSome hmem)
      exact absurd (lt_of_node hm) (Nat.lt_irrefl _)
    · intro s
      rw [node]
      rcases Nat.lt_trichotomy s t.nodes.length with hs | hs | hs
      · rw [List.getElem?_append_left hs, if_neg (by omega)]
        rfl
      · simp [hs]
      · rw [List.getElem?_eq_none (by simp; omega), if_neg (by omega), node,
          List.getElem?_eq_none (by omega)]

/-- A new entry goes to the end. -/
theorem append_holds (h : t.Holds entries) {k : κ} (hk : entries.lookup k = none) (v : α) :
    ∃ t', ((t.place ⟨k, v, none, none⟩).2.linkTail (t.place ⟨k, v, none, none⟩).1) = some t' ∧
      t'.max = t.max ∧
      { t' with index := t'.index.set k (t.place ⟨k, v, none, none⟩).1 }.Holds (entries ++ [(k, v)]) := by
  obtain ⟨chain, h⟩ := h
  obtain ⟨hnew, hlt, hnode, hindex, hmax, hhead, htail, hfree, hfree', hlength⟩ :=
    place_spec h ⟨k, v, none, none⟩
  generalize t.place ⟨k, v, none, none⟩ = placed at *
  obtain ⟨slot, t₁⟩ := placed
  dsimp only at *
  have hcontent : ∀ s, t₁.content s = if s = slot then some (k, v) else t.content s := by
    intro s
    rw [content, hnode s]
    split <;> rfl
  -- the new slot is not in the chain, so placing a node there leaves the chain threaded
  have hthreaded : t₁.Threaded chain := by
    refine ⟨h.threaded.nodup, seg_congr (fun s hs => ?_) h.threaded.seg, hhead ▸ h.threaded.head,
      htail ▸ h.threaded.tail⟩
    rw [links, hnode s, if_neg (ne_of_mem_of_not_mem hs hnew)]
    rfl
  obtain ⟨t₂, heq, hthreaded₂, hsame⟩ := linkTail_spec hthreaded (by rw [hnode, if_pos rfl]; rfl) hnew
  have hindex_none := h.lookup_none hk
  have hset : ∀ s, t₂.content s = if s = slot then some (k, v) else t.content s :=
    fun s => (hsame.content s).trans (hcontent s)
  refine ⟨t₂, heq, hsame.max.trans hmax, chain ++ [slot],
    ⟨hthreaded₂.nodup, hthreaded₂.seg, hthreaded₂.head, hthreaded₂.tail⟩, ?_, ?_, ?_, ?_, ?_, ?_⟩
  -- along the chain stand the old entries, and the new one at its end
  · rw [List.map_append, List.map_append, ← h.contents]
    refine congrArg₂ (· ++ ·) (List.map_congr_left fun s hs => ?_) ?_
    · exact (hset s).trans (if_neg (ne_of_mem_of_not_mem hs hnew))
    · exact congrArg (fun c => [c]) ((hset slot).trans (if_pos rfl))
  · rw [List.map_append, List.nodup_append]
    refine ⟨h.keys, by simp, ?_⟩
    -- the key has no entry yet
    intro a ha b hb hab
    obtain ⟨⟨a', w⟩, he, rfl⟩ := List.mem_map.mp ha
    obtain rfl : b = k := by simpa using hb
    obtain rfl : a' = b := hab
    rw [(Dict.lookup_eq_some_iff h.keys).mpr he] at hk
    exact absurd hk (by simp)
  · intro k' s
    change (t₂.index.set k slot).get? k' = some s ↔ s ∈ chain ++ [slot] ∧ (t₂.content s).map _ = _
    rw [Dict.get?_set, hsame.index, hindex, hset, List.mem_append, List.mem_singleton]
    -- the index leads to the new slot from the new key and from no other
    by_cases hs : s = slot
    · subst hs
      rw [if_pos rfl]
      by_cases hk' : k' = k
      · simp [hk']
      · rw [if_neg hk']
        refine iff_of_false (fun hget => hnew ((h.index k' s).mp hget).1) ?_
        simp [Ne.symm hk']
    · rw [if_neg hs, or_iff_left hs]
      by_cases hk' : k' = k
      · subst hk'
        rw [if_pos rfl]
        refine iff_of_false (fun heq => hs (Option.some.inj heq).symm) fun hsk => ?_
        rw [(h.index k' s).mpr hsk] at hindex_none
        exact absurd hindex_none (by simp)
      · rw [if_neg hk', h.index]
  · change (t₂.index.set k slot).size = _
    rw [hsame.index, hindex, Dict.size_set_of_none hindex_none, h.size, List.length_append]
    rfl
  · exact hsame.free ▸ hfree
  · intro s hs
    -- what is left on the stack was dead before, and is not the slot that was taken off it
    obtain ⟨hold, hne⟩ := hfree' s (hsame.free ▸ hs)
    obtain ⟨hlt', hdead⟩ := h.free_dead s hold
    refine ⟨?_, ((hset s).trans (if_neg hne)).trans hdead⟩
    change s < t₂.nodes.length
    rw [hsame.length]
    omega

/-- `insert` of a new key: below capacity it only appends. -/
theorem insert_below (h : t.Holds entries) {k : κ} (hk : entries.lookup k = none) (v : α)
    (hroom : entries.length < t.max) :
    ∃ t', t.insert k v = some (none, t') ∧ t'.max = t.max ∧ t'.Holds (entries ++ [(k, v)]) := by
  obtain ⟨t', heq, hmax, hholds⟩ := append_holds h hk v
  refine ⟨{ t' with index := t'.index.set k (t.place ⟨k, v, none, none⟩).1 }, ?_, hmax, hholds⟩
  simp only [insert, makeRoom_none h hroom, Option.bind_eq_bind, Option.bind_some, heq]

/-- `insert` of a new key: at capacity it evicts the oldest entry first. -/
theorem insert_full {k₀ : κ} {v₀ : α} (h : t.Holds ((k₀, v₀) :: entries)) {k : κ}
    (hk : ((k₀, v₀) :: entries).lookup k = none) (v : α)
    (hfull : t.max ≤ ((k₀, v₀) :: entries).length) :
    ∃ t', t.insert k v = some (some v₀, t') ∧ t'.max = t.max ∧ t'.Holds (entries ++ [(k, v)]) := by
  obtain ⟨t₁, hroom, hmax₁, hholds₁⟩ := makeRoom_some h hfull
  have hk' : entries.lookup k = none := by
    rw [List.lookup_cons] at hk
    split at hk
    · exact absurd hk (by simp)
    · exact hk
  obtain ⟨t', heq, hmax, hholds⟩ := append_holds hholds₁ hk' v
  refine ⟨{ t' with index := t'.index.set k (t₁.place ⟨k, v, none, none⟩).1 }, ?_, hmax.trans hmax₁,
    hholds⟩
  simp only [insert, hroom, Option.bind_eq_bind, Option.bind_some, heq]

/-! ## Iteration -/

theorem Represents.length_le (h : t.Represents chain entries) : chain.length ≤ t.nodes.length := by
  have hsub : chain ⊆ List.range t.nodes.length := by
    intro s hs
    obtain ⟨n, hn⟩ := Option.isSome_iff_exists.mp (h.threaded.isSome hs)
    exact List.mem_range.mpr (lt_of_node hn)
  simpa using h.threaded.nodup.length_le_of_subset hsub

/-- The nodes come oldest first, one for each entry. -/
theorem openNodes_spec (h : t.Holds entries) :
    ∃ nodes, t.openNodes = some nodes ∧ nodes.map (fun n => (n.key, n.state)) = entries := by
  obtain ⟨chain, h⟩ := h
  have hslots : t.slots = some chain := by
    rw [slots, h.threaded.head]
    exact walk_seg h.threaded.seg h.length_le
  have hlive : ∀ slot ∈ chain, (t.node slot).isSome = true := fun _ hs => h.threaded.isSome hs
  have hread := forall₂_filterMap hlive
  refine ⟨chain.filterMap t.node, by rw [openNodes, hslots]; exact mapM_eq_some_iff.mpr hread, ?_⟩
  calc (chain.filterMap t.node).map (fun n => (n.key, n.state))
      = chain.filterMap t.content := List.map_filterMap
    _ = (chain.map t.content).filterMap id := by rw [List.filterMap_map]; rfl
    _ = entries := by rw [h.contents, List.filterMap_map]; exact List.filterMap_some

end Holds

end LruTable

end Pirewall.Native
