/-
# Pirewall.Firewall.FakeSets -- the kernel sets, as `FakeSetBackend` models them

Tables hold sets, a set holds elements with an expiry, a batch commits as a whole or not at all, an addition to a full
set fails and an addition of a present element keeps its old timeout. Expired elements disappear unannounced: every
write and every listing first drops what has run out.

`faults` generalises the code's `fail_next`: a script of which of the coming writes the transport refuses. The call
counters of the transport metrics are left out.

The one fact about a batch that the rest of the development uses is `apply_cases`: on success, each element of a
touched set is what folding the ops on its own key makes of it.

The code works on copies. `stage` takes a copy of a set when an op first touches it, applies the ops to the copies in
order, and `commit` writes the copies back when all ops went through. `StagedBy` says what the copies hold after some
of the ops, key by key, and so turns a batch over many sets into one small fold for each element (`keyResult`). What
that fold comes to is settled once: an untouched element stays unless it has lapsed (`keyResult_untouched`), and of
deletions before additions the additions win (`keyResult_live_iff`).

The manager never sees a staged copy. It sees a batch that was applied (`Applied`), or an error and nothing changed
but the fault that was used up (`apply_cases`); a flush and a deletion of tables have lemmas of the same form.
-/
import Pirewall.Lib.Dict
import Pirewall.Firewall.Sets

namespace Pirewall

open Lib NftNames

/-! ## State -/

/-- One kernel set: its declared size and its elements (key to expiry, or none). -/
structure FakeSet where
  size : Option Nat
  elements : Dict ElementKey (Option Time)

/-- A successful write, as the backend logs it. -/
inductive KernelWrite where
  | apply (ops : List SetOp)
  | flush (names : List String)
  | guards (modes : List (GuardName × GuardMode))
  | panic (tables : List (String × String))
  deriving DecidableEq

/-- The tables with their sets, the guards, the log of successful writes and the script of faults. -/
structure FakeSetBackend where
  tables : Dict (String × String) (Dict String FakeSet)
  guards : GuardName → GuardMode
  ops : List KernelWrite
  faults : List Bool

/-- Whether an element with this expiry is still there at `now`. -/
def isLive (now : Time) : Option Time → Bool
  | none => true
  | some expires => decide (now < expires)

/-- `_live`: the elements that have not expired by `now`. -/
def liveElements (elements : Dict ElementKey (Option Time)) (now : Time) :
    Dict ElementKey (Option Time) :=
  elements.filter fun _ expires => isLive now expires

namespace FakeSetBackend

/-- `_set`: the set at an address. -/
def setAt (b : FakeSetBackend) (a : SetAddress) : Except String FakeSet :=
  match b.tables.get? (a.family, a.table) with
  | none => .error ("No such file or directory: table " ++ a.family ++ " " ++ a.table)
  | some sets =>
    match sets.get? a.setName with
    | none => .error ("No such file or directory: set " ++ a.family ++ " " ++ a.table ++ " " ++ a.setName)
    | some fake => .ok fake

/-- The set at an address, if it is loaded. -/
def find? (b : FakeSetBackend) (a : SetAddress) : Option FakeSet :=
  (b.tables.get? (a.family, a.table)).bind fun sets => sets.get? a.setName

/-- The expiry recorded for an element; `none` when it is not in the set. -/
def expiry? (b : FakeSetBackend) (a : SetAddress) (k : ElementKey) : Option (Option Time) :=
  (b.find? a).bind fun fake => fake.elements.get? k

/-- Replace the elements of a loaded set. -/
def putElements (b : FakeSetBackend) (a : SetAddress) (elements : Dict ElementKey (Option Time)) :
    FakeSetBackend :=
  match b.tables.get? (a.family, a.table) with
  | none => b
  | some sets =>
    match sets.get? a.setName with
    | none => b
    | some fake =>
      { b with tables :=
          b.tables.set (a.family, a.table) (sets.set a.setName { fake with elements }) }

/-- `_begin`: consume the next scripted fault. -/
def begin (b : FakeSetBackend) : Except String Unit × FakeSetBackend :=
  match b.faults with
  | [] => (.ok (), b)
  | true :: rest => (.error "simulated set backend failure", { b with faults := rest })
  | false :: rest => (.ok (), { b with faults := rest })

/-! ## Writes -/

/-- The copies of the sets that a batch has touched. -/
abbrev Staged := Dict SetAddress (Dict ElementKey (Option Time))

/-- One op of a batch, on the staged copies of the sets it touches. -/
def stageOp (b : FakeSetBackend) (now : Time) (staged : Staged) (op : SetOp) : Except String Staged :=
  match b.setAt op.address with
  | .error e => .error e
  | .ok fake =>
    let elements := (staged.get? op.address).getD (liveElements fake.elements now)
    match op.kind with
    | .delete => .ok (staged.set op.address (elements.erase op.key))
    | .add =>
      if elements.contains op.key then .ok (staged.set op.address elements)
      else
        match fake.size.filter fun n => decide (n ≤ elements.size) with
        | some n => .error ("set is full: " ++ op.setName ++ " holds " ++ toString n ++ " element(s)")
        | none =>
          .ok (staged.set op.address
            (elements.set op.key (op.timeoutSeconds.map fun t => now + seconds t)))

/-- The loop of `apply`. -/
def stage (b : FakeSetBackend) (now : Time) (staged : Staged) (ops : List SetOp) :
    Except String Staged :=
  ops.foldlM (stageOp b now) staged

/-- Write the staged sets back. -/
def commit (b : FakeSetBackend) (staged : Staged) : FakeSetBackend :=
  staged.entries.foldl (fun b e => b.putElements e.1 e.2) b

/-- `apply`: element additions and deletions as one atomic batch. -/
def apply (b : FakeSetBackend) (ops : List SetOp) (now : Time) : Except String Unit × FakeSetBackend :=
  if ops = [] then (.ok (), b)
  else
    match b.begin with
    | (.error e, b) => (.error e, b)
    | (.ok (), b) =>
      match ops.forM validateElement with
      | .error e => (.error e, b)
      | .ok () =>
        match b.stage now Dict.empty ops with
        | .error e => (.error e, b)
        | .ok staged => (.ok (), { b.commit staged with ops := b.ops ++ [.apply ops] })

/-- `flush_sets`: empty these adaptive sets in one batch. -/
def flushSets (b : FakeSetBackend) (names : List String) : Except String Unit × FakeSetBackend :=
  match b.begin with
  | (.error e, b) => (.error e, b)
  | (.ok (), b) =>
    match names.forM fun name => do
        let _ ← writableSet (adaptiveSet name)
        let _ ← b.setAt (adaptiveSet name) with
    | .error e => (.error e, b)
    | .ok () =>
      (.ok (), { names.foldl (fun b name => b.putElements (adaptiveSet name) Dict.empty) b with
                  ops := b.ops ++ [.flush names] })

/-- `set_guard_modes`: replace these guards' verdict chains in one batch. -/
def setGuardModes (b : FakeSetBackend) (modes : List (GuardName × GuardMode)) :
    Except String Unit × FakeSetBackend :=
  match b.begin with
  | (.error e, b) => (.error e, b)
  | (.ok (), b) =>
    if b.tables.contains (inetFamily, staticTable) then
      (.ok (), { b with
        guards := fun guard => (modes.lookup guard).getD (b.guards guard)
        ops := b.ops ++ [.guards modes] })
    else (.error ("No such file or directory: table " ++ inetFamily ++ " " ++ staticTable), b)

/-- `panic`: delete every table in `panicTables`. -/
def panic (b : FakeSetBackend) : Except String (List (String × String)) × FakeSetBackend :=
  match b.begin with
  | (.error e, b) => (.error e, b)
  | (.ok (), b) =>
    (.ok panicTables, { b with
      tables := panicTables.foldl (fun tables location => tables.erase location) b.tables
      ops := b.ops ++ [.panic panicTables] })

/-! ## Reads -/

/-- `list_set`: the live elements in key order; a listing also drops what has expired. -/
def listSet (b : FakeSetBackend) (a : SetAddress) (now : Time) :
    Except String (List ElementState) × FakeSetBackend :=
  match b.setAt a with
  | .error e => (.error e, b)
  | .ok fake =>
    let elements := liveElements fake.elements now
    (.ok ((elements.entries.insertionSort fun x y => x.1.text ≤ y.1.text).map fun e =>
        ⟨e.1, e.2.map fun expires => max 0 (wholeSeconds (expires - now))⟩),
     b.putElements a elements)

/-- `guard_mode`. -/
def guardMode (b : FakeSetBackend) (guard : GuardName) : Option GuardMode :=
  if b.tables.contains (inetFamily, staticTable) then some (b.guards guard) else none

/-- `table_exists`. -/
def tableExists (b : FakeSetBackend) (location : String × String) : Bool := b.tables.contains location

/-! ## Loading -/

/-- `load_tables` on an empty kernel: the reviewed tables with empty sets. -/
def load (adaptiveSize bindingSize : Option Nat) (guards : GuardName → GuardMode) : FakeSetBackend where
  tables :=
    let sets (size : Option Nat) (d : Dict String FakeSet) (names : List String) :=
      names.foldl (fun d name => d.set name ⟨size, Dict.empty⟩) d
    ((((Dict.empty.set (inetFamily, baseTable) Dict.empty).set
      (inetFamily, portalTable) Dict.empty).set
      (inetFamily, adaptiveTable)
        (sets bindingSize (sets adaptiveSize Dict.empty adaptiveEnforcementSets) [setAllowBound])).set
      (inetFamily, staticTable)
        (sets adaptiveSize (sets bindingSize Dict.empty [setBound4, setMacbind, setAllowBound])
          [setOffenders])).set
      (arpFamily, staticArpTable) (sets bindingSize Dict.empty [setBound4, setMacbind])
  guards := guards
  ops := []
  faults := []

/-! ## What a write does to one element -/

/-- What one op does to the element it names: a deletion removes it, an addition keeps a present
element and its timeout. -/
def keyStep (now : Time) (current : Option (Option Time)) (op : SetOp) : Option (Option Time) :=
  match op.kind with
  | .delete => none
  | .add =>
    match current with
    | some expires => some expires
    | none => some (op.timeoutSeconds.map fun t => now + seconds t)

/-- The ops of a batch on one element. -/
def opsOn (ops : List SetOp) (a : SetAddress) (k : ElementKey) : List SetOp :=
  ops.filter fun op => op.address = a ∧ op.key = k

/-- An element after a batch: what has expired is gone first, then its ops run in order. -/
def keyResult (now : Time) (ops : List SetOp) (a : SetAddress) (k : ElementKey)
    (before : Option (Option Time)) : Option (Option Time) :=
  (opsOn ops a k).foldl (keyStep now) (before.filter (isLive now))

/-- One more op of a batch. -/
theorem keyResult_concat (now : Time) (ops : List SetOp) (op : SetOp) (a : SetAddress)
    (k : ElementKey) (before : Option (Option Time)) :
    keyResult now (ops ++ [op]) a k before =
      if op.address = a ∧ op.key = k then keyStep now (keyResult now ops a k before) op
      else keyResult now ops a k before := by
  simp only [keyResult, opsOn, List.filter_append, List.foldl_append]
  by_cases h : op.address = a ∧ op.key = k
  · simp [h]
  · simp [h]

/-- A batch that adds no such element leaves it, if at all, as it was and untouched. -/
theorem keyResult_eq_some {now : Time} {ops : List SetOp} {a : SetAddress} {k : ElementKey}
    {before : Option (Option Time)} {e : Option Time}
    (hadd : ∀ op ∈ ops, op.kind = .add → ¬ (op.address = a ∧ op.key = k))
    (h : keyResult now ops a k before = some e) :
    before = some e ∧ isLive now e = true ∧ ∀ op ∈ ops, ¬ (op.address = a ∧ op.key = k) := by
  have hdelete : ∀ op ∈ opsOn ops a k, op.kind = .delete := by
    intro op hop
    obtain ⟨hmem, hon⟩ := List.mem_filter.mp hop
    cases hkind : op.kind with
    | delete => rfl
    | add => exact absurd (of_decide_eq_true hon) (hadd op hmem hkind)
  -- a deletion is the end of the element
  have hgone : ∀ (ds : List SetOp) (current : Option (Option Time)), (∀ op ∈ ds, op.kind = .delete) →
      ds ≠ [] → ds.foldl (keyStep now) current = none := by
    intro ds
    induction ds with
    | nil => simp
    | cons op ds ih =>
      intro current hds _
      have hhead : keyStep now current op = none := by
        simp [keyStep, hds op List.mem_cons_self]
      rw [List.foldl_cons, hhead]
      by_cases hnil : ds = []
      · rw [hnil]
        rfl
      · exact ih none (fun op' h' => hds op' (List.mem_cons_of_mem _ h')) hnil
  by_cases hnil : opsOn ops a k = []
  · rw [keyResult, hnil, List.foldl_nil, Option.filter_eq_some_iff] at h
    refine ⟨h.1, h.2, ?_⟩
    intro op hop hon
    have hmem : op ∈ opsOn ops a k := List.mem_filter.mpr ⟨hop, by simpa using hon⟩
    rw [hnil] at hmem
    exact absurd hmem (by simp)
  · rw [keyResult, hgone _ _ hdelete hnil] at h
    exact absurd h (by simp)

/-- A batch with no op on an element only drops it if it has expired. -/
theorem keyResult_untouched {now : Time} {ops : List SetOp} {a : SetAddress} {k : ElementKey}
    (before : Option (Option Time)) (h : ∀ op ∈ ops, ¬ (op.address = a ∧ op.key = k)) :
    keyResult now ops a k before = before.filter (isLive now) := by
  have hnil : opsOn ops a k = [] := by
    apply List.filter_eq_nil_iff.mpr
    intro op hop hon
    exact h op hop (of_decide_eq_true hon)
  rw [keyResult, hnil, List.foldl_nil]

theorem foldl_keyStep_add {now : Time} {adds : List SetOp} (h : ∀ op ∈ adds, op.kind = .add ∧
    ∀ t, op.timeoutSeconds = some t → 0 < t) (current : Option (Option Time))
    (hcurrent : ∀ e, current = some e → isLive now e = true) :
    (adds.foldl (keyStep now) current).any (isLive now) = true ↔
      adds ≠ [] ∨ current.any (isLive now) = true := by
  induction adds generalizing current with
  | nil => simp
  | cons op adds ih =>
    obtain ⟨⟨hkind, hpos⟩, hrest⟩ := List.forall_mem_cons.mp h
    -- after its first addition the element is there, and has time left
    have hstep : ∃ e, keyStep now current op = some e ∧ isLive now e = true := by
      cases current with
      | some e => exact ⟨e, by simp [keyStep, hkind], hcurrent e rfl⟩
      | none =>
        refine ⟨_, by simp [keyStep, hkind]; rfl, ?_⟩
        cases ht : op.timeoutSeconds with
        | none => rfl
        | some t =>
          have hpos := hpos t ht
          simp only [Option.map_some, isLive, seconds, decide_eq_true_eq]
          exact Int.lt_add_of_pos_right now (by omega)
    obtain ⟨e, he, hlive⟩ := hstep
    rw [List.foldl_cons, he, ih hrest (some e) (fun e' h' => Option.some.inj h' ▸ hlive)]
    simp [hlive]

/-- Deletions before additions: what was added is there, what was only deleted is not, and the rest is
as it was. -/
theorem keyResult_live_iff {now : Time} {dels adds : List SetOp} (hdels : ∀ op ∈ dels, op.kind = .delete)
    (hadds : ∀ op ∈ adds, op.kind = .add ∧ ∀ t, op.timeoutSeconds = some t → 0 < t) (a : SetAddress)
    (k : ElementKey) (before : Option (Option Time)) :
    (keyResult now (dels ++ adds) a k before).any (isLive now) = true ↔
      (∃ op ∈ adds, op.address = a ∧ op.key = k) ∨
      (before.any (isLive now) = true ∧ ∀ op ∈ dels, ¬ (op.address = a ∧ op.key = k)) := by
  have hmiddle : ∀ e, keyResult now dels a k before = some e →
      before = some e ∧ isLive now e = true ∧ ∀ op ∈ dels, ¬ (op.address = a ∧ op.key = k) := fun e =>
    keyResult_eq_some fun op hop hkind => absurd ((hdels op hop).symm.trans hkind) (by simp)
  have hsplit : keyResult now (dels ++ adds) a k before =
      (opsOn adds a k).foldl (keyStep now) (keyResult now dels a k before) := by
    simp only [keyResult, opsOn, List.filter_append, List.foldl_append]
  have hadds' : ∀ op ∈ opsOn adds a k, op.kind = .add ∧ ∀ t, op.timeoutSeconds = some t → 0 < t :=
    fun op hop => hadds op (List.mem_of_mem_filter hop)
  rw [hsplit, foldl_keyStep_add hadds' _ fun e he => (hmiddle e he).2.1]
  have hon : opsOn adds a k ≠ [] ↔ ∃ op ∈ adds, op.address = a ∧ op.key = k := by
    rw [ne_eq, opsOn, List.filter_eq_nil_iff]
    simp
  rw [hon]
  refine or_congr Iff.rfl ?_
  constructor
  · intro hany
    obtain ⟨e, he, hlive⟩ := (Option.any_eq_true ..).mp hany
    obtain ⟨rfl, _, huntouched⟩ := hmiddle e he
    exact ⟨by simpa using hlive, huntouched⟩
  · rintro ⟨hlive, huntouched⟩
    rw [keyResult_untouched _ huntouched]
    cases before with
    | none => exact absurd hlive (by simp)
    | some e =>
      have he : isLive now e = true := by simpa using hlive
      simp [Option.filter, he]

/-- `_set` fails on what is not loaded. -/
theorem setAt_eq_ok_iff {b : FakeSetBackend} {a : SetAddress} {fake : FakeSet} :
    b.setAt a = .ok fake ↔ b.find? a = some fake := by
  simp only [setAt, find?]
  cases b.tables.get? (a.family, a.table) with
  | none => simp
  | some sets => cases h : sets.get? a.setName <;> simp [h]

/-- The staged copies after the ops `done` of a batch hold what those ops make of each element. -/
def StagedBy (b : FakeSetBackend) (now : Time) (ops : List SetOp) (staged : Staged) : Prop :=
  ∀ a, (a ∉ ops.map SetOp.address → staged.get? a = none) ∧
    (a ∈ ops.map SetOp.address → (b.find? a).isSome ∧
      ∃ elements, staged.get? a = some elements ∧
        ∀ k, elements.get? k = keyResult now ops a k (b.expiry? a k))

/-- The copy one op works on, staged already or taken fresh from the kernel. -/
theorem StagedBy.current {b : FakeSetBackend} {now : Time} {ops : List SetOp} {staged : Staged}
    (h : StagedBy b now ops staged) {a : SetAddress} {fake : FakeSet} (hfake : b.find? a = some fake)
    (k : ElementKey) :
    ((staged.get? a).getD (liveElements fake.elements now)).get? k =
      keyResult now ops a k (b.expiry? a k) := by
  by_cases ha : a ∈ ops.map SetOp.address
  · obtain ⟨_, elements, hget, hkey⟩ := (h a).2 ha
    rw [hget, Option.getD_some, hkey]
  · have hnone : ∀ op ∈ ops, ¬ (op.address = a ∧ op.key = k) := fun op hop hon =>
      ha (List.mem_map.mpr ⟨op, hop, hon.1⟩)
    rw [(h a).1 ha, Option.getD_none, liveElements, Dict.get?_filter, keyResult_untouched _ hnone]
    simp [expiry?, hfake]

theorem StagedBy.step {b : FakeSetBackend} {now : Time} {ops : List SetOp} {staged staged' : Staged}
    (h : StagedBy b now ops staged) {op : SetOp} (hop : stageOp b now staged op = .ok staged') :
    StagedBy b now (ops ++ [op]) staged' := by
  unfold stageOp at hop
  split at hop
  · exact absurd hop (by simp)
  rename_i fake hfake
  rw [setAt_eq_ok_iff] at hfake
  have hcur := h.current hfake
  -- every accepted branch stages one copy, and that copy is what `keyStep` says
  have hstaged : ∃ elements, staged' = staged.set op.address elements ∧
      ∀ k, elements.get? k = keyResult now (ops ++ [op]) op.address k (b.expiry? op.address k) := by
    generalize hel : (staged.get? op.address).getD (liveElements fake.elements now) = elements at hop hcur
    cases hkind : op.kind with
    | delete =>
      simp only [hkind] at hop
      refine ⟨_, (Except.ok.inj hop).symm, ?_⟩
      intro k
      rw [Dict.get?_erase, keyResult_concat, hcur]
      by_cases hk : k = op.key
      · simp [hk, keyStep, hkind]
      · simp [hk, Ne.symm hk]
    | add =>
      simp only [hkind] at hop
      split at hop
      · rename_i hcontains
        refine ⟨_, (Except.ok.inj hop).symm, ?_⟩
        intro k
        rw [keyResult_concat, ← hcur]
        by_cases hk : op.key = k
        · subst hk
          obtain ⟨expires, hex⟩ := Option.isSome_iff_exists.mp hcontains
          simp [keyStep, hkind, hex]
        · simp [hk]
      · rename_i hcontains
        split at hop
        · exact absurd hop (by simp)
        · refine ⟨_, (Except.ok.inj hop).symm, ?_⟩
          intro k
          rw [Dict.get?_set, keyResult_concat, ← hcur]
          by_cases hk : k = op.key
          · subst hk
            have hnone : elements.get? op.key = none := by
              simpa [Dict.contains] using hcontains
            simp [keyStep, hkind, hnone]
          · simp [hk, Ne.symm hk]
  obtain ⟨elements, rfl, hels⟩ := hstaged
  intro a
  rw [List.map_append, List.map_cons, List.map_nil, List.mem_append, List.mem_singleton, Dict.get?_set]
  by_cases ha : a = op.address
  · subst ha
    simp only [or_true, not_true_eq_false, false_implies, true_and, if_true, forall_const]
    exact ⟨by rw [hfake]; rfl, elements, rfl, hels⟩
  · have hkeep : ∀ k, keyResult now (ops ++ [op]) a k (b.expiry? a k) =
        keyResult now ops a k (b.expiry? a k) := by
      intro k
      rw [keyResult_concat, if_neg]
      exact fun hc => ha hc.1.symm
    simp only [ha, or_false, if_false, hkeep]
    exact h a

theorem stage_ok {b : FakeSetBackend} {now : Time} {ops : List SetOp} {staged : Staged}
    (h : b.stage now Dict.empty ops = .ok staged) : StagedBy b now ops staged := by
  have hgen : ∀ (rest before : List SetOp) (s s' : Staged), StagedBy b now before s →
      rest.foldlM (stageOp b now) s = .ok s' → StagedBy b now (before ++ rest) s' := by
    intro rest
    induction rest with
    | nil =>
      intro before s s' hs hok
      obtain rfl := Except.ok.inj hok
      simpa using hs
    | cons op rest ih =>
      intro before s s' hs hok
      rw [List.foldlM_cons] at hok
      cases hop : stageOp b now s op with
      | error e =>
        rw [hop] at hok
        exact absurd hok (by simp [bind, Except.bind])
      | ok s₁ =>
        rw [hop] at hok
        have hstep := ih (before ++ [op]) s₁ s' (hs.step hop) hok
        simpa using hstep
  have hempty : StagedBy b now [] Dict.empty := by
    intro a
    simp
  simpa using hgen ops [] Dict.empty staged hempty h

/-! ## What a commit does -/

/-- Writing one set leaves the others. -/
theorem find?_putElements (b : FakeSetBackend) (a a' : SetAddress)
    (elements : Dict ElementKey (Option Time)) :
    (b.putElements a elements).find? a' =
      if a' = a then (b.find? a).map fun fake => { fake with elements } else b.find? a' := by
  by_cases ha : a' = a
  · subst ha
    rw [if_pos rfl]
    unfold putElements find?
    cases ht : b.tables.get? (a'.family, a'.table) with
    | none => simp [ht]
    | some sets =>
      cases hs : sets.get? a'.setName with
      | none => simp [ht, hs]
      | some fake => simp [hs]
  · rw [if_neg ha]
    unfold putElements
    split
    · rfl
    rename_i sets ht
    split
    · rfl
    simp only [find?, Dict.get?_set]
    split
    · -- another set of the same table
      rename_i hloc
      have hname : a'.setName ≠ a.setName := by
        intro hname
        apply ha
        cases a
        cases a'
        simp_all
      rw [hloc, ht, Option.bind_some, Option.bind_some, Dict.get?_set, if_neg hname]
    · rfl

theorem expiry?_putElements (b : FakeSetBackend) (a a' : SetAddress)
    (elements : Dict ElementKey (Option Time)) (k : ElementKey) :
    (b.putElements a elements).expiry? a' k =
      if a' = a then (b.find? a).bind fun _ => elements.get? k else b.expiry? a' k := by
  rw [expiry?, find?_putElements]
  split
  · cases b.find? a <;> rfl
  · rfl

/-- Writing back a list of staged sets, each at most once. -/
theorem find?_foldl_putElements (es : List (SetAddress × Dict ElementKey (Option Time)))
    (hn : (es.map Prod.fst).Nodup) (b : FakeSetBackend) (a : SetAddress) :
    (es.foldl (fun b e => b.putElements e.1 e.2) b).find? a =
      match es.lookup a with
      | none => b.find? a
      | some elements => (b.find? a).map fun fake => { fake with elements } := by
  induction es generalizing b with
  | nil => rfl
  | cons e es ih =>
    obtain ⟨ha, hn⟩ := List.nodup_cons.mp hn
    rw [List.foldl_cons, ih hn, find?_putElements, List.lookup_cons]
    by_cases hea : a = e.1
    · subst hea
      have hnone : es.lookup e.1 = none := by
        rw [List.lookup_eq_none_iff]
        intro x hx
        rw [bne_iff_ne]
        intro hxe
        exact ha (hxe ▸ List.mem_map_of_mem hx)
      simp [hnone]
    · rw [if_neg hea, beq_eq_false_iff_ne.mpr hea]

/-- A commit writes what was staged and nothing else. -/
theorem find?_commit (b : FakeSetBackend) (staged : Staged) (a : SetAddress) :
    (b.commit staged).find? a =
      match staged.get? a with
      | none => b.find? a
      | some elements => (b.find? a).map fun fake => { fake with elements } :=
  find?_foldl_putElements staged.entries staged.nodup b a

theorem expiry?_commit {b : FakeSetBackend} {now : Time} {ops : List SetOp} {staged : Staged}
    (h : StagedBy b now ops staged) (a : SetAddress) (k : ElementKey) :
    (b.commit staged).expiry? a k =
      if a ∈ ops.map SetOp.address then keyResult now ops a k (b.expiry? a k)
      else b.expiry? a k := by
  rw [expiry?, find?_commit]
  by_cases ha : a ∈ ops.map SetOp.address
  · obtain ⟨hsome, elements, hget, hkey⟩ := (h a).2 ha
    obtain ⟨fake, hfake⟩ := Option.isSome_iff_exists.mp hsome
    rw [if_pos ha, hget, ← hkey]
    simp [hfake]
  · rw [if_neg ha, (h a).1 ha]
    rfl

/-! ## The writes, as the manager sees them -/

theorem begin_faults {b b₁ : FakeSetBackend} {r : Except String Unit} (h : b.begin = (r, b₁)) :
    b₁ = { b with faults := b₁.faults } ∧ (b.faults = [] → b₁.faults = [] ∧ r = .ok ()) := by
  unfold begin at h
  split at h
  · rename_i hnil
    cases h
    exact ⟨rfl, fun _ => ⟨hnil, rfl⟩⟩
  · rename_i rest hcons
    cases h
    exact ⟨rfl, fun hf => absurd (hcons.symm.trans hf) (by simp)⟩
  · rename_i rest hcons
    cases h
    exact ⟨rfl, fun hf => absurd (hcons.symm.trans hf) (by simp)⟩

theorem contains_putElements (b : FakeSetBackend) (a : SetAddress)
    (elements : Dict ElementKey (Option Time)) (location : String × String) :
    (b.putElements a elements).tables.contains location = b.tables.contains location := by
  unfold putElements
  split
  · rfl
  rename_i sets ht
  split
  · rfl
  simp only [Dict.contains, Dict.get?_set]
  split
  · rename_i hloc
    rw [hloc, ht]
    rfl
  · rfl

/-- Rewriting elements touches nothing but elements. -/
theorem foldl_putElements_frame {ι : Type} (es : List ι) (f : ι → SetAddress)
    (g : ι → Dict ElementKey (Option Time)) (b : FakeSetBackend) :
    let b' := es.foldl (fun b e => b.putElements (f e) (g e)) b
    b'.guards = b.guards ∧ b'.ops = b.ops ∧ b'.faults = b.faults ∧
      (∀ a, (b'.find? a).isSome = (b.find? a).isSome) ∧
      ∀ location, b'.tables.contains location = b.tables.contains location := by
  induction es generalizing b with
  | nil => simp
  | cons e es ih =>
    obtain ⟨h1, h2, h3, h4, h5⟩ := ih (b.putElements (f e) (g e))
    have hkeep : (b.putElements (f e) (g e)).guards = b.guards ∧
        (b.putElements (f e) (g e)).ops = b.ops ∧ (b.putElements (f e) (g e)).faults = b.faults := by
      unfold putElements
      split
      · simp
      · split <;> simp
    refine ⟨h1.trans hkeep.1, h2.trans hkeep.2.1, h3.trans hkeep.2.2, ?_, ?_⟩
    · intro a
      rw [List.foldl_cons, h4, find?_putElements]
      split
      · rename_i ha
        simp [ha]
      · rfl
    · intro location
      rw [List.foldl_cons, h5, contains_putElements]

theorem forM_validateElement {ops : List SetOp} (h : ops.forM validateElement = .ok ()) :
    ∀ op ∈ ops, validateElement op = .ok () := by
  induction ops with
  | nil => simp
  | cons op ops ih =>
    rw [List.forM_eq_forM, List.forM_cons] at h
    cases hop : validateElement op with
    | error e =>
      rw [hop] at h
      exact absurd h (by simp [bind, Except.bind])
    | ok u =>
      rw [hop] at h
      exact List.forall_mem_cons.mpr ⟨hop, ih h⟩

theorem forM_validateElement_ok {ops : List SetOp} (h : ∀ op ∈ ops, validateElement op = .ok ()) :
    ops.forM validateElement = .ok () := by
  induction ops with
  | nil => rfl
  | cons op ops ih =>
    obtain ⟨hop, hops⟩ := List.forall_mem_cons.mp h
    rw [List.forM_eq_forM, List.forM_cons, hop]
    exact ih hops

/-- What a batch that went through did: the elements of the sets it names, and one log entry. -/
structure Applied (b : FakeSetBackend) (ops : List SetOp) (now : Time) (b' : FakeSetBackend) :
    Prop where
  expiry : ∀ a k, b'.expiry? a k =
    if a ∈ ops.map SetOp.address then keyResult now ops a k (b.expiry? a k) else b.expiry? a k
  loaded : ∀ a, (b'.find? a).isSome = (b.find? a).isSome
  tables : ∀ location, b'.tables.contains location = b.tables.contains location
  guards : b'.guards = b.guards
  log : b'.ops = b.ops ++ if ops = [] then [] else [.apply ops]
  validated : ∀ op ∈ ops, validateElement op = .ok ()
  faults : b.faults = [] → b'.faults = []

/-- `apply` either did the whole batch or nothing but consume a scripted fault. -/
theorem apply_cases (b : FakeSetBackend) (ops : List SetOp) (now : Time) :
    ((b.apply ops now).1 = .ok () ∧ b.Applied ops now (b.apply ops now).2) ∨
      ∃ e faults, b.apply ops now = (.error e, { b with faults }) ∧ (b.faults = [] → faults = []) := by
  by_cases hops : ops = []
  · subst hops
    exact .inl ⟨rfl, by simp [apply], fun _ => rfl, fun _ => rfl, rfl, by simp [apply], by simp, id⟩
  rw [apply, if_neg hops]
  rcases hb : b.begin with ⟨r, b₁⟩
  obtain ⟨hb₁, hf⟩ := begin_faults hb
  rw [hb₁]
  cases r with
  | error e => exact .inr ⟨e, b₁.faults, rfl, fun h => (hf h).1⟩
  | ok u =>
    simp only
    cases hv : ops.forM validateElement with
    | error e => exact .inr ⟨e, b₁.faults, rfl, fun h => (hf h).1⟩
    | ok u =>
      simp only
      cases hs : FakeSetBackend.stage { b with faults := b₁.faults } now Dict.empty ops with
      | error e => exact .inr ⟨e, b₁.faults, rfl, fun h => (hf h).1⟩
      | ok staged =>
        have hstaged := stage_ok hs
        obtain ⟨h1, _, h3, h4, h5⟩ := foldl_putElements_frame staged.entries Prod.fst Prod.snd
          { b with faults := b₁.faults }
        exact .inl ⟨rfl, expiry?_commit hstaged, h4, h5, h1, by simp [hops],
          forM_validateElement hv, fun h => h3.trans (hf h).1⟩

/-- What the backend does with a validated batch when no fault is scripted. -/
theorem apply_validated {b : FakeSetBackend} (hfaults : b.faults = []) {ops : List SetOp}
    (hops : ops ≠ []) (hvalid : ∀ op ∈ ops, validateElement op = .ok ()) (now : Time) :
    b.apply ops now =
      match b.stage now Dict.empty ops with
      | .error e => (.error e, b)
      | .ok staged => (.ok (), { b.commit staged with ops := b.ops ++ [.apply ops] }) := by
  have hbegin : b.begin = (.ok (), b) := by
    unfold begin
    rw [hfaults]
  have hall := forM_validateElement_ok hvalid
  cases hstage : b.stage now Dict.empty ops with
  | error e => simp only [apply, if_neg hops, hbegin, hall, hstage]
  | ok staged => simp only [apply, if_neg hops, hbegin, hall, hstage]

/-- A deletion can be staged on every loaded set, full or not. -/
theorem stage_deletes {b : FakeSetBackend} {ops : List SetOp} (now : Time)
    (hkind : ∀ op ∈ ops, op.kind = .delete) (hset : ∀ op ∈ ops, (b.find? op.address).isSome)
    (staged : Staged) : ∃ staged', b.stage now staged ops = .ok staged' := by
  induction ops generalizing staged with
  | nil => exact ⟨staged, rfl⟩
  | cons op ops ih =>
    obtain ⟨hop, hkind⟩ := List.forall_mem_cons.mp hkind
    obtain ⟨hsome, hset⟩ := List.forall_mem_cons.mp hset
    obtain ⟨fake, hfake⟩ := Option.isSome_iff_exists.mp hsome
    obtain ⟨staged', hstaged⟩ := ih hkind hset
      (staged.set op.address (((staged.get? op.address).getD (liveElements fake.elements now)).erase op.key))
    refine ⟨staged', ?_⟩
    rw [stage, List.foldlM_cons, stageOp, setAt_eq_ok_iff.mpr hfake, hop]
    exact hstaged

/-- Without scripted faults, deleting validated elements of loaded sets goes through. -/
theorem apply_deletes_ok {b : FakeSetBackend} {ops : List SetOp} (now : Time) (hf : b.faults = [])
    (hkind : ∀ op ∈ ops, op.kind = .delete) (hvalid : ∀ op ∈ ops, validateElement op = .ok ())
    (hset : ∀ op ∈ ops, (b.find? op.address).isSome) : (b.apply ops now).1 = .ok () := by
  by_cases hempty : ops = []
  · simp only [apply, if_pos hempty]
  obtain ⟨staged, hstage⟩ := stage_deletes now hkind hset Dict.empty
  rw [apply_validated hf hempty hvalid now, hstage]

/-- A backend that refuses no valid batch on these sets: nothing is scripted to fail, and the sets are
loaded and have no size limit. -/
structure Reliable (b : FakeSetBackend) (addresses : List SetAddress) : Prop where
  faults : b.faults = []
  loaded : ∀ a ∈ addresses, ∃ fake, b.find? a = some fake ∧ fake.size = none

theorem Reliable.stage {b : FakeSetBackend} {addresses : List SetAddress} (h : b.Reliable addresses)
    (now : Time) {ops : List SetOp} (hops : ∀ op ∈ ops, op.address ∈ addresses) (staged : Staged) :
    ∃ staged', b.stage now staged ops = .ok staged' := by
  induction ops generalizing staged with
  | nil => exact ⟨staged, rfl⟩
  | cons op ops ih =>
    obtain ⟨hop, hrest⟩ := List.forall_mem_cons.mp hops
    obtain ⟨fake, hfake, hsize⟩ := h.loaded op.address hop
    have hstep : ∃ next, b.stageOp now staged op = .ok next := by
      simp only [stageOp, setAt_eq_ok_iff.mpr hfake, hsize, Option.filter_none]
      cases op.kind with
      | delete => exact ⟨_, rfl⟩
      | add =>
        dsimp only
        split
        · exact ⟨_, rfl⟩
        · exact ⟨_, rfl⟩
    obtain ⟨next, hnext⟩ := hstep
    obtain ⟨staged', hstaged⟩ := ih hrest next
    refine ⟨staged', ?_⟩
    rw [FakeSetBackend.stage, List.foldlM_cons, hnext]
    exact hstaged

/-- A reliable backend takes every valid batch on its sets, and stays reliable. -/
theorem Reliable.apply {b : FakeSetBackend} {addresses : List SetAddress} (h : b.Reliable addresses)
    (now : Time) {ops : List SetOp} (hvalid : ∀ op ∈ ops, validateElement op = .ok ())
    (hops : ∀ op ∈ ops, op.address ∈ addresses) :
    (b.apply ops now).1 = .ok () ∧ (b.apply ops now).2.Reliable addresses := by
  by_cases hempty : ops = []
  · simp only [FakeSetBackend.apply, if_pos hempty]
    exact ⟨trivial, h⟩
  obtain ⟨staged, hstage⟩ := h.stage now hops Dict.empty
  rw [apply_validated h.faults hempty hvalid now, hstage]
  refine ⟨rfl, ⟨?_, ?_⟩⟩
  · exact (foldl_putElements_frame staged.entries Prod.fst Prod.snd b).2.2.1.trans h.faults
  · intro a ha
    obtain ⟨fake, hfake, hsize⟩ := h.loaded a ha
    show ∃ fake, (b.commit staged).find? a = some fake ∧ fake.size = none
    rw [find?_commit]
    cases staged.get? a with
    | none => exact ⟨fake, hfake, hsize⟩
    | some elements => exact ⟨{ fake with elements }, by rw [hfake]; rfl, hsize⟩

/-! ## Flush, panic, listing -/

theorem expiry?_foldl_empty (names : List String) (b : FakeSetBackend) (a : SetAddress)
    (k : ElementKey) :
    (names.foldl (fun b name => b.putElements (adaptiveSet name) Dict.empty) b).expiry? a k =
      if a ∈ names.map adaptiveSet then none else b.expiry? a k := by
  induction names generalizing b with
  | nil => simp
  | cons name names ih =>
    rw [List.foldl_cons, ih, expiry?_putElements]
    by_cases ha : a = adaptiveSet name
    · simp [ha]
    · simp [ha]

/-- What a flush that went through did. -/
structure Flushed (b : FakeSetBackend) (names : List String) (b' : FakeSetBackend) : Prop where
  expiry : ∀ a k, b'.expiry? a k = if a ∈ names.map adaptiveSet then none else b.expiry? a k
  loaded : ∀ a, (b'.find? a).isSome = (b.find? a).isSome
  tables : ∀ location, b'.tables.contains location = b.tables.contains location
  log : b'.ops = b.ops ++ [.flush names]
  faults : b.faults = [] → b'.faults = []

/-- `flush_sets` empties every named set, or changes nothing. -/
theorem flushSets_cases (b : FakeSetBackend) (names : List String) :
    ((b.flushSets names).1 = .ok () ∧ b.Flushed names (b.flushSets names).2) ∨
    ∃ e faults, b.flushSets names = (.error e, { b with faults }) ∧ (b.faults = [] → faults = []) := by
  rw [flushSets]
  rcases hb : b.begin with ⟨r, b₁⟩
  obtain ⟨hb₁, hf⟩ := begin_faults hb
  rw [hb₁]
  cases r with
  | error e => exact .inr ⟨e, b₁.faults, rfl, fun h => (hf h).1⟩
  | ok u =>
    simp only
    split
    · rename_i e _
      exact .inr ⟨e, b₁.faults, rfl, fun h => (hf h).1⟩
    · obtain ⟨_, _, h3, h4, h5⟩ := foldl_putElements_frame names adaptiveSet (fun _ => Dict.empty)
        { b with faults := b₁.faults }
      exact .inl ⟨rfl, expiry?_foldl_empty names _, h4, h5, rfl, fun h => h3.trans (hf h).1⟩

/-- Without scripted faults, flushing loaded enforcement sets goes through. -/
theorem flushSets_ok {b : FakeSetBackend} (hf : b.faults = [])
    (hset : ∀ name ∈ adaptiveEnforcementSets, (b.find? (adaptiveSet name)).isSome) :
    (b.flushSets adaptiveEnforcementSets).1 = .ok () := by
  have hbegin : b.begin = (.ok (), b) := by
    simp [begin, hf]
  have hat : ∀ name ∈ adaptiveEnforcementSets, ∃ fake, b.setAt (adaptiveSet name) = .ok fake := by
    intro name hname
    obtain ⟨fake, hfake⟩ := Option.isSome_iff_exists.mp (hset name hname)
    exact ⟨fake, setAt_eq_ok_iff.mpr hfake⟩
  simp only [adaptiveEnforcementSets, List.forall_mem_cons] at hat
  obtain ⟨⟨f1, h1⟩, ⟨f2, h2⟩, ⟨f3, h3⟩, ⟨f4, h4⟩, _⟩ := hat
  have hcheck : (adaptiveEnforcementSets.forM fun name => do
      let _ ← writableSet (adaptiveSet name)
      let _ ← b.setAt (adaptiveSet name)) = .ok () := by
    simp only [adaptiveEnforcementSets, List.forM_eq_forM, List.forM_cons, List.forM_nil, h1, h2, h3, h4]
    rfl
  simp only [flushSets, hbegin, hcheck]

/-- After `panic` no adaptive set is left. -/
theorem panic_cases (b : FakeSetBackend) :
    (b.panic.1 = .ok panicTables ∧
      (∀ name k, b.panic.2.expiry? (adaptiveSet name) k = none) ∧
      b.panic.2.tables.contains (inetFamily, adaptiveTable) = false ∧
      b.panic.2.ops = b.ops ++ [.panic panicTables] ∧ (b.faults = [] → b.panic.2.faults = [])) ∨
    ∃ e faults, b.panic = (.error e, { b with faults }) ∧ b.faults ≠ [] := by
  rw [panic]
  rcases hb : b.begin with ⟨r, b₁⟩
  obtain ⟨hb₁, hf⟩ := begin_faults hb
  rw [hb₁]
  cases r with
  | error e => exact .inr ⟨e, b₁.faults, rfl, fun h => by simpa using (hf h).2⟩
  | ok u =>
    refine .inl ⟨rfl, ?_, ?_, rfl, fun h => (hf h).1⟩
    · intro name k
      simp [expiry?, find?, adaptiveSet, panicTables]
    · simp [Dict.contains, panicTables]

/-- A listing names each key once. -/
theorem listSet_nodup {b : FakeSetBackend} {a : SetAddress} {now : Time} {els : List ElementState}
    (h : (b.listSet a now).1 = .ok els) : (els.map ElementState.key).Nodup := by
  rw [listSet] at h
  split at h
  · exact absurd h (by simp)
  · obtain rfl := Except.ok.inj h
    rw [List.map_map]
    exact ((List.perm_insertionSort _ _).map Prod.fst).nodup_iff.mpr (Dict.nodup _)

/-- A listing reports the live elements of a loaded set, drops the expired ones, and touches no
other set. -/
theorem listSet_ok {b : FakeSetBackend} {a : SetAddress} {now : Time} {els : List ElementState}
    (h : (b.listSet a now).1 = .ok els) :
    (∀ k, k ∈ els.map ElementState.key ↔ ∃ e, b.expiry? a k = some e ∧ isLive now e = true) ∧
    ∀ a' k, (b.listSet a now).2.expiry? a' k =
      if a' = a then (b.expiry? a k).filter (isLive now) else b.expiry? a' k := by
  rw [listSet] at h ⊢
  cases hat : b.setAt a with
  | error e =>
    rw [hat] at h
    exact absurd h (by simp)
  | ok fake =>
    rw [hat] at h
    have hfake := setAt_eq_ok_iff.mp hat
    refine ⟨?_, ?_⟩
    · intro k
      obtain rfl := Except.ok.inj h
      have hexp : b.expiry? a k = fake.elements.get? k := by
        simp [expiry?, hfake]
      rw [hexp, List.map_map]
      constructor
      · intro hk
        obtain ⟨⟨k', e⟩, hmem, rfl⟩ := List.mem_map.mp hk
        have hmem := (List.perm_insertionSort _ _).mem_iff.mp hmem
        have hget := Dict.mem_entries_iff.mp hmem
        rw [liveElements, Dict.get?_filter, Option.filter_eq_some_iff] at hget
        exact ⟨e, hget⟩
      · rintro ⟨e, hget, hlive⟩
        refine List.mem_map.mpr ⟨(k, e), ?_, rfl⟩
        rw [(List.perm_insertionSort _ _).mem_iff, Dict.mem_entries_iff, liveElements, Dict.get?_filter,
          Option.filter_eq_some_iff]
        exact ⟨hget, hlive⟩
    · intro a' k
      simp only
      rw [expiry?_putElements]
      split
      · simp [expiry?, hfake, liveElements]
      · rfl

/-- A listing writes nothing. -/
theorem listSet_frame (b : FakeSetBackend) (a : SetAddress) (now : Time) :
    (b.listSet a now).2.guards = b.guards ∧ (b.listSet a now).2.ops = b.ops ∧
      (b.listSet a now).2.faults = b.faults ∧
      (∀ a', ((b.listSet a now).2.find? a').isSome = (b.find? a').isSome) ∧
      ∀ location, (b.listSet a now).2.tables.contains location = b.tables.contains location := by
  rw [listSet]
  split
  · simp
  · rename_i fake _
    exact foldl_putElements_frame [()] (fun _ => a) (fun _ => liveElements fake.elements now) b

end FakeSetBackend

end Pirewall
