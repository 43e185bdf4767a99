/-
# Pirewall.Firewall.NftSets -- the set backend over nftables, against the fake one

`NftablesSetBackend` turns a batch of element operations into one nft transaction. What the kernel does with a
transaction is assumed, not read off the repository: it commits as a whole or not at all, an addition of a present
element is a no-op, an addition to a full set and a deletion of an absent element fail, and what has lapsed is absent.
nft 1.0.6 has no idempotent deletion, so the backend adds the element for a moment and then deletes it. That
placeholder is the only difference from `FakeSetBackend`: it needs room.

`Mirrors` relates the two in the middle of a batch: the kernel that the transaction has got to, and the copies of sets
that the fake has staged so far. A set that is not staged yet is still as it was; the fake drops what has lapsed when
it takes its copy, and to the kernel a lapsed element is absent anyway, so both work on the same live elements. One op
keeps the relation or fails on both sides, but for a deletion that finds neither its element nor room, on which only
the kernel fails (`follows_op`).

Where a batch stands matters for the condition. An earlier op of the same batch may have made the room or taken it, so
`deletionsFindRoom` goes through the batch with what the ops before have left.
-/
import Pirewall.Firewall.FakeSets

namespace Pirewall

open Lib

/-! ## The kernel -/

/-- The kernel's sets by address. A `FakeSetBackend` shows one too: its `find?`. -/
abbrev Kernel := SetAddress → Option FakeSet

/-- What the kernel refuses a command with. -/
inductive NftError where
  | noSuchFile | tooManyOpenFiles
  deriving DecidableEq, Repr

def NftError.text : NftError → String
  | .noSuchFile => "No such file or directory"
  | .tooManyOpenFiles => "Too many open files in system"

/-- One element command of a transaction. -/
inductive NftCommand where
  | add (address : SetAddress) (key : ElementKey) (timeoutSeconds : Option Int)
  | delete (address : SetAddress) (key : ElementKey)
  deriving DecidableEq, Repr

/-- One command, on what has not lapsed by `now`. -/
def runCommand (now : Time) (kernel : Kernel) : NftCommand → Except NftError Kernel
  | .add address key timeoutSeconds =>
    match kernel address with
    | none => .error .noSuchFile
    | some set =>
      let elements := liveElements set.elements now
      if elements.contains key then .ok (Function.update kernel address (some { set with elements }))
      else if set.size.any fun n => decide (n ≤ elements.size) then .error .tooManyOpenFiles
      else .ok (Function.update kernel address (some { set with
        elements := elements.set key (timeoutSeconds.map fun t => now + seconds t) }))
  | .delete address key =>
    match kernel address with
    | none => .error .noSuchFile
    | some set =>
      let elements := liveElements set.elements now
      if elements.contains key then
        .ok (Function.update kernel address (some { set with elements := elements.erase key }))
      else .error .noSuchFile

/-- A transaction: every command in order, or nothing. -/
def transaction (now : Time) (kernel : Kernel) (commands : List NftCommand) : Except NftError Kernel :=
  commands.foldlM (runCommand now) kernel

/-! ## The backend -/

namespace NftablesSetBackend

/-- `_element_commands`. -/
def elementCommands (op : SetOp) : Except String (List NftCommand) :=
  match op.kind with
  | .add => .ok [.add op.address op.key op.timeoutSeconds]
  | .delete =>
    match writableSet op.address with
    | .error e => .error e
    | .ok shape =>
      .ok [.add op.address op.key (if shape.timeoutRequired then some 1 else none),
           .delete op.address op.key]

/-- The loop of `apply`: check and translate op by op. -/
def batchCommands : List SetOp → Except String (List NftCommand)
  | [] => .ok []
  | op :: ops => do
      validateElement op
      let first ← elementCommands op
      let rest ← batchCommands ops
      pure (first ++ rest)

/-- `_run`, on a batch of element commands. -/
def run (now : Time) (kernel : Kernel) (commands : List NftCommand) : Except String Kernel :=
  match transaction now kernel commands with
  | .ok kernel => .ok kernel
  | .error .tooManyOpenFiles => .error ("set is full: " ++ NftError.tooManyOpenFiles.text)
  | .error e => .error e.text

/-- `apply`: one transaction for the batch. -/
def apply (kernel : Kernel) (ops : List SetOp) (now : Time) : Except String Unit × Kernel :=
  if ops = [] then (.ok (), kernel)
  else
    match batchCommands ops with
    | .error e => (.error e, kernel)
    | .ok commands =>
      match run now kernel commands with
      | .error e => (.error e, kernel)
      | .ok kernel => (.ok (), kernel)

end NftablesSetBackend

/-! ## Room for the placeholder -/

namespace FakeSetBackend

/-- The elements an op of a batch works on: staged already, or taken fresh from the kernel. -/
def currentElements (now : Time) (staged : Staged) (fake : FakeSet) (a : SetAddress) :
    Dict ElementKey (Option Time) :=
  (staged.get? a).getD (liveElements fake.elements now)

/-- A deletion finds its element, or room in the set for a moment. -/
def findsRoom (b : FakeSetBackend) (now : Time) (staged : Staged) (op : SetOp) : Bool :=
  match op.kind, b.find? op.address with
  | .delete, some fake =>
    (currentElements now staged fake op.address).contains op.key ||
      !fake.size.any fun n => decide (n ≤ (currentElements now staged fake op.address).size)
  | _, _ => true

/-- Every deletion of a batch finds its element or room, where it stands in the batch. -/
def deletionsFindRoom (b : FakeSetBackend) (now : Time) : Staged → List SetOp → Bool
  | _, [] => true
  | staged, op :: ops =>
    b.findsRoom now staged op &&
      match b.stageOp now staged op with
      | .error _ => true
      | .ok staged => b.deletionsFindRoom now staged ops

end FakeSetBackend

/-! ## One op -/

theorem liveElements_eq_self_iff {elements : Dict ElementKey (Option Time)} {now : Time} :
    liveElements elements now = elements ↔ ∀ k e, elements.get? k = some e → isLive now e = true := by
  constructor
  · intro h k e hget
    rw [← h, liveElements, Dict.get?_filter, Option.filter_eq_some_iff] at hget
    exact hget.2
  · intro h
    apply Dict.ext
    exact List.filter_eq_self.mpr fun e he => h e.1 e.2 (Dict.mem_entries_iff.mp he)

theorem liveElements_liveElements (elements : Dict ElementKey (Option Time)) (now : Time) :
    liveElements (liveElements elements now) now = liveElements elements now := by
  rw [liveElements_eq_self_iff]
  intro k e hget
  rw [liveElements, Dict.get?_filter, Option.filter_eq_some_iff] at hget
  exact hget.2

/-- The kernel in the middle of a transaction and the fake's staged copies in the middle of the batch. -/
structure Mirrors (b : FakeSetBackend) (now : Time) (staged : FakeSetBackend.Staged) (kernel : Kernel) :
    Prop where
  sets : ∀ a, kernel a = match staged.get? a with
    | none => b.find? a
    | some elements => (b.find? a).map fun fake => { fake with elements }
  live : ∀ a elements, staged.get? a = some elements → liveElements elements now = elements

namespace Mirrors

variable {b : FakeSetBackend} {now : Time} {staged staged' : FakeSetBackend.Staged} {kernel : Kernel} {op : SetOp}

/-- What one has not loaded, the other has not either. -/
theorem missing (h : Mirrors b now staged kernel) {a : SetAddress} (hnone : b.find? a = none) :
    kernel a = none := by
  rw [h.sets, hnone]
  cases staged.get? a <;> rfl

/-- Both work on the same live elements of a set of the same size. -/
theorem current (h : Mirrors b now staged kernel) {a : SetAddress} {fake : FakeSet}
    (hfake : b.find? a = some fake) :
    ∃ set, kernel a = some set ∧ set.size = fake.size ∧
      liveElements set.elements now = FakeSetBackend.currentElements now staged fake a := by
  rw [h.sets, hfake]
  unfold FakeSetBackend.currentElements
  cases hget : staged.get? a with
  | none => exact ⟨fake, rfl, rfl, rfl⟩
  | some elements => exact ⟨{ fake with elements }, rfl, rfl, h.live a elements hget⟩

theorem current_live (h : Mirrors b now staged kernel) {a : SetAddress} {fake : FakeSet}
    (hfake : b.find? a = some fake) :
    liveElements (FakeSetBackend.currentElements now staged fake a) now =
      FakeSetBackend.currentElements now staged fake a := by
  obtain ⟨set, _, _, hlive⟩ := h.current hfake
  rw [← hlive, liveElements_liveElements]

/-- Staging a copy and writing it to the kernel. -/
theorem stage (h : Mirrors b now staged kernel) {a : SetAddress} {fake set : FakeSet}
    (hfake : b.find? a = some fake) (hsize : set.size = fake.size)
    {elements : Dict ElementKey (Option Time)} (hlive : liveElements elements now = elements) :
    Mirrors b now (staged.set a elements) (Function.update kernel a (some { set with elements })) where
  sets := by
    intro a'
    rw [Dict.get?_set]
    by_cases ha : a' = a
    · subst ha
      rw [Function.update_self, if_pos rfl, hfake, hsize]
      rfl
    · rw [Function.update_of_ne ha, if_neg ha]
      exact h.sets a'
  live := by
    intro a' elements' hget
    rw [Dict.get?_set] at hget
    split at hget
    · obtain rfl := Option.some.inj hget
      exact hlive
    · exact h.live a' elements' hget

end Mirrors

theorem isLive_timeout {now : Time} {timeout : Option Int} (h : ∀ t, timeout = some t → 0 < t) :
    isLive now (timeout.map fun t => now + seconds t) = true := by
  cases timeout with
  | none => rfl
  | some t =>
    have hpos : 0 < seconds t := Int.mul_pos (h t rfl) (by decide)
    exact decide_eq_true (Int.lt_add_of_pos_right now hpos)

theorem liveElements_set {elements : Dict ElementKey (Option Time)} {now : Time} {key : ElementKey}
    {expires : Option Time} (h : liveElements elements now = elements) (hnew : isLive now expires = true) :
    liveElements (elements.set key expires) now = elements.set key expires := by
  rw [liveElements_eq_self_iff] at h ⊢
  intro k e hget
  rw [Dict.get?_set] at hget
  split at hget
  · exact Option.some.inj hget ▸ hnew
  · exact h k e hget

theorem liveElements_erase {elements : Dict ElementKey (Option Time)} {now : Time} {key : ElementKey}
    (h : liveElements elements now = elements) :
    liveElements (elements.erase key) now = elements.erase key := by
  rw [liveElements_eq_self_iff] at h ⊢
  intro k e hget
  rw [Dict.get?_erase] at hget
  split at hget
  · exact absurd hget (by simp)
  · exact h k e hget

/-- The addition of a validated op is of a live element. -/
theorem validateElement_timeout {op : SetOp} (h : validateElement op = .ok ()) (hkind : op.kind = .add) :
    ∀ t, op.timeoutSeconds = some t → 0 < t := by
  intro t ht
  unfold validateElement at h
  split at h
  · exact absurd h (by simp)
  · split at h
    · exact absurd h (by simp)
    · split at h
      · exact absurd h (by simp)
      · rw [hkind] at h
        dsimp only [validateTimeout] at h
        rw [ht] at h
        dsimp only at h
        split at h
        · exact absurd h (by simp)
        · rename_i hpos
          exact not_le.mp hpos

section Commands

variable {now : Time} {kernel : Kernel} {a : SetAddress} {key : ElementKey} {timeout : Option Int} {set : FakeSet}
  {elements : Dict ElementKey (Option Time)}

theorem runCommand_missing (h : kernel a = none) :
    runCommand now kernel (.add a key timeout) = .error .noSuchFile := by
  simp only [runCommand, h]

theorem runCommand_present (hset : kernel a = some set) (hlive : liveElements set.elements now = elements)
    (hkey : elements.contains key = true) : runCommand now kernel (.add a key timeout) =
      .ok (Function.update kernel a (some { set with elements })) := by
  simp only [runCommand, hset, hlive, hkey, if_true]

/-- An addition to a full set, in the kernel. -/
theorem runCommand_full (hset : kernel a = some set) (hlive : liveElements set.elements now = elements)
    (hkey : elements.contains key = false) (hfull : (set.size.any fun n => decide (n ≤ elements.size)) = true) :
    runCommand now kernel (.add a key timeout) = .error .tooManyOpenFiles := by
  simp only [runCommand, hset, hlive, hkey, hfull, if_true, Bool.false_eq_true, if_false]

/-- One that finds room. -/
theorem runCommand_room (hset : kernel a = some set) (hlive : liveElements set.elements now = elements)
    (hkey : elements.contains key = false) (hroom : (set.size.any fun n => decide (n ≤ elements.size)) = false) :
    runCommand now kernel (.add a key timeout) = .ok (Function.update kernel a (some { set with
      elements := elements.set key (timeout.map fun t => now + seconds t) })) := by
  simp only [runCommand, hset, hlive, hkey, hroom, Bool.false_eq_true, if_false]

/-- A deletion, in the kernel. -/
theorem runCommand_delete (hset : kernel a = some set) (hlive : liveElements set.elements now = elements)
    (hkey : elements.contains key = true) : runCommand now kernel (.delete a key) =
      .ok (Function.update kernel a (some { set with elements := elements.erase key })) := by
  simp only [runCommand, hset, hlive, hkey, if_true]

end Commands

namespace NftablesSetBackend

theorem batchCommands_cons {op : SetOp} {ops : List SetOp} {commands : List NftCommand}
    (h : batchCommands (op :: ops) = .ok commands) :
    ∃ first rest, elementCommands op = .ok first ∧ batchCommands ops = .ok rest ∧ commands = first ++ rest := by
  unfold batchCommands at h
  cases hvalid : validateElement op with
  | error e => exact absurd h (by simp [hvalid, bind, Except.bind])
  | ok u =>
    cases hfirst : elementCommands op with
    | error e => exact absurd h (by simp [hvalid, hfirst, bind, Except.bind])
    | ok first =>
      cases hrest : batchCommands ops with
      | error e => exact absurd h (by simp [hvalid, hfirst, hrest, bind, Except.bind])
      | ok rest =>
        simp only [hvalid, hfirst, hrest, bind, Except.bind, pure, Except.pure] at h
        exact ⟨first, rest, rfl, rfl, (Except.ok.inj h).symm⟩

/-- Every validated op can be translated. -/
theorem batchCommands_ok {ops : List SetOp} (h : ∀ op ∈ ops, validateElement op = .ok ()) :
    ∃ commands, batchCommands ops = .ok commands := by
  induction ops with
  | nil => exact ⟨[], rfl⟩
  | cons op ops ih =>
    rw [List.forall_mem_cons] at h
    obtain ⟨rest, hrest⟩ := ih h.2
    have hfirst : ∃ first, elementCommands op = .ok first := by
      unfold elementCommands
      cases op.kind with
      | add => exact ⟨_, rfl⟩
      | delete =>
        obtain ⟨hvalid, _⟩ := h
        unfold validateElement at hvalid
        unfold writableSet
        split at hvalid
        · exact absurd hvalid (by simp)
        · rename_i shape hlookup
          rw [hlookup]
          exact ⟨_, rfl⟩
    obtain ⟨first, hfirst⟩ := hfirst
    refine ⟨first ++ rest, ?_⟩
    simp only [batchCommands, h.1, hfirst, hrest, bind, Except.bind, pure, Except.pure]

end NftablesSetBackend

namespace FakeSetBackend

variable {b : FakeSetBackend} {now : Time} {staged : Staged} {op : SetOp} {fake : FakeSet}

/-- An op on a set that is not loaded, in the fake. -/
theorem stageOp_missing (h : b.find? op.address = none) : ∃ e, b.stageOp now staged op = .error e := by
  unfold stageOp
  cases hat : b.setAt op.address with
  | error e => exact ⟨e, rfl⟩
  | ok fake => exact absurd (setAt_eq_ok_iff.mp hat) (by simp [h])

/-- A deletion, in the fake. -/
theorem stageOp_delete (hfake : b.find? op.address = some fake) (hkind : op.kind = .delete) :
    b.stageOp now staged op = .ok (staged.set op.address
      ((currentElements now staged fake op.address).erase op.key)) := by
  simp only [stageOp, setAt_eq_ok_iff.mpr hfake, hkind, currentElements]

theorem stageOp_present (hfake : b.find? op.address = some fake) (hkind : op.kind = .add)
    (hkey : (currentElements now staged fake op.address).contains op.key = true) :
    b.stageOp now staged op = .ok (staged.set op.address (currentElements now staged fake op.address)) := by
  unfold currentElements at hkey
  simp only [stageOp, setAt_eq_ok_iff.mpr hfake, hkind, hkey, if_true, currentElements]

theorem stageOp_full (hfake : b.find? op.address = some fake) (hkind : op.kind = .add)
    (hkey : (currentElements now staged fake op.address).contains op.key = false)
    (hfull : (fake.size.any fun n => decide (n ≤ (currentElements now staged fake op.address).size)) = true) :
    ∃ e, b.stageOp now staged op = .error e := by
  unfold currentElements at hkey hfull
  obtain ⟨n, hn, hle⟩ := (Option.any_eq_true _ _).mp hfull
  simp only [stageOp, setAt_eq_ok_iff.mpr hfake, hkind, hkey, Bool.false_eq_true, if_false, hn,
    Option.filter_some, hle, if_true]
  exact ⟨_, rfl⟩

theorem stageOp_room (hfake : b.find? op.address = some fake) (hkind : op.kind = .add)
    (hkey : (currentElements now staged fake op.address).contains op.key = false)
    (hroom : (fake.size.any fun n => decide (n ≤ (currentElements now staged fake op.address).size)) = false) :
    b.stageOp now staged op = .ok (staged.set op.address ((currentElements now staged fake op.address).set op.key
      (op.timeoutSeconds.map fun t => now + seconds t))) := by
  unfold currentElements at hkey hroom
  have hnone : (fake.size.filter fun n =>
      decide (n ≤ ((staged.get? op.address).getD (liveElements fake.elements now)).size)) = none := by
    cases hsize : fake.size with
    | none => rfl
    | some n =>
      rw [hsize, Option.any_some] at hroom
      rw [Option.filter_some, hroom]
      rfl
  simp only [stageOp, setAt_eq_ok_iff.mpr hfake, hkind, hkey, Bool.false_eq_true, if_false, hnone,
    currentElements]

end FakeSetBackend

namespace Mirrors

variable {b : FakeSetBackend} {now : Time} {staged : FakeSetBackend.Staged} {kernel : Kernel} {op : SetOp}

/-- What a transaction comes to beside the fake: it fails where the fake refuses or there is no room for the
placeholder, and leaves the kernel as the fake stages it otherwise. -/
def Follows (b : FakeSetBackend) (now : Time) (outcome : Except String FakeSetBackend.Staged) (room : Bool)
    (result : Except NftError Kernel) : Prop :=
  match outcome, room with
  | .ok staged, true => ∃ kernel, result = .ok kernel ∧ Mirrors b now staged kernel
  | _, _ => ∃ e, result = .error e

theorem add (h : Mirrors b now staged kernel) (hkind : op.kind = .add) (hvalid : validateElement op = .ok ()) :
    Follows b now (b.stageOp now staged op) true
      (runCommand now kernel (.add op.address op.key op.timeoutSeconds)) := by
  cases hfake : b.find? op.address with
  | none =>
    obtain ⟨e, he⟩ : ∃ e, b.stageOp now staged op = .error e := FakeSetBackend.stageOp_missing hfake
    rw [he, runCommand_missing (h.missing hfake)]
    exact ⟨_, rfl⟩
  | some fake =>
    obtain ⟨set, hset, hsize, hlive⟩ := h.current hfake
    cases hkey : (FakeSetBackend.currentElements now staged fake op.address).contains op.key with
    | true =>
      rw [FakeSetBackend.stageOp_present hfake hkind hkey, runCommand_present hset hlive hkey]
      exact ⟨_, rfl, h.stage hfake hsize (h.current_live hfake)⟩
    | false =>
      cases hfull : fake.size.any fun n =>
          decide (n ≤ (FakeSetBackend.currentElements now staged fake op.address).size) with
      | true =>
        obtain ⟨e, he⟩ := FakeSetBackend.stageOp_full hfake hkind hkey hfull
        rw [he, runCommand_full hset hlive hkey (hsize ▸ hfull)]
        exact ⟨_, rfl⟩
      | false =>
        rw [FakeSetBackend.stageOp_room hfake hkind hkey hfull,
          runCommand_room hset hlive hkey (hsize ▸ hfull)]
        exact ⟨_, rfl, h.stage hfake hsize (liveElements_set (h.current_live hfake)
          (isLive_timeout (validateElement_timeout hvalid hkind)))⟩

/-- The idempotent deletion: the placeholder is added where the element is not, and deleted with it. -/
theorem delete (h : Mirrors b now staged kernel) (hkind : op.kind = .delete) {timeout : Option Int}
    (htimeout : ∀ t, timeout = some t → 0 < t) :
    Follows b now (b.stageOp now staged op) (b.findsRoom now staged op)
      (transaction now kernel [.add op.address op.key timeout, .delete op.address op.key]) := by
  unfold transaction FakeSetBackend.findsRoom
  rw [List.foldlM_cons]
  cases hfake : b.find? op.address with
  | none =>
    obtain ⟨e, he⟩ : ∃ e, b.stageOp now staged op = .error e := FakeSetBackend.stageOp_missing hfake
    rw [he, runCommand_missing (h.missing hfake), hkind]
    exact ⟨_, rfl⟩
  | some fake =>
    obtain ⟨set, hset, hsize, hlive⟩ := h.current hfake
    have hcurrent := h.current_live hfake
    rw [FakeSetBackend.stageOp_delete hfake hkind, hkind]
    dsimp only
    generalize FakeSetBackend.currentElements now staged fake op.address = elements at hlive hcurrent ⊢
    -- after the placeholder the element is there, and the deletion takes it away
    have hdelete : ∀ present : Dict ElementKey (Option Time), liveElements present now = present →
        present.contains op.key = true → present.erase op.key = elements.erase op.key →
        Follows b now (.ok (staged.set op.address (elements.erase op.key))) true
          ([NftCommand.delete op.address op.key].foldlM (runCommand now)
            (Function.update kernel op.address (some { set with elements := present }))) := by
      intro present hpresent hcontains herase
      rw [List.foldlM_cons, runCommand_delete (Function.update_self _ _ _) hpresent hcontains, herase,
        Function.update_idem]
      exact ⟨_, rfl, h.stage hfake hsize (liveElements_erase hcurrent)⟩
    cases hkey : elements.contains op.key with
    | true =>
      rw [runCommand_present hset hlive hkey]
      exact hdelete elements hcurrent hkey rfl
    | false =>
      cases hfull : fake.size.any fun n => decide (n ≤ elements.size) with
      | true =>
        rw [runCommand_full hset hlive hkey (hsize ▸ hfull)]
        exact ⟨_, rfl⟩
      | false =>
        rw [runCommand_room hset hlive hkey (hsize ▸ hfull)]
        exact hdelete (elements.set op.key (timeout.map fun t => now + seconds t))
          (liveElements_set hcurrent (isLive_timeout htimeout)) (by simp [Dict.contains])
          (Dict.erase_set _ _ _)

/-- One op of a batch. -/
theorem follows_op (h : Mirrors b now staged kernel) (hvalid : validateElement op = .ok ())
    {commands : List NftCommand} (hcommands : NftablesSetBackend.elementCommands op = .ok commands) :
    Follows b now (b.stageOp now staged op) (b.findsRoom now staged op) (transaction now kernel commands) := by
  unfold NftablesSetBackend.elementCommands at hcommands
  cases hkind : op.kind with
  | add =>
    rw [hkind] at hcommands
    obtain rfl := Except.ok.inj hcommands
    have hroom : b.findsRoom now staged op = true := by
      unfold FakeSetBackend.findsRoom
      rw [hkind]
    rw [hroom]
    unfold transaction
    rw [List.foldlM_cons]
    simpa using h.add hkind hvalid
  | delete =>
    rw [hkind] at hcommands
    dsimp only at hcommands
    split at hcommands
    · exact absurd hcommands (by simp)
    · obtain rfl := Except.ok.inj hcommands
      refine h.delete hkind ?_
      intro t ht
      split at ht
      · exact (Option.some.inj ht) ▸ Int.one_pos
      · exact absurd ht (by simp)

/-- A batch fails with its first op that does. -/
theorem Follows.refused {outcome : Except String FakeSetBackend.Staged} {room : Bool} {e : NftError}
    (h : Follows b now outcome room (.error e)) {outcome' : Except String FakeSetBackend.Staged} {room' : Bool}
    (houtcome : ∀ e, outcome = .error e → ∃ e', outcome' = .error e') (hroom : room = false → room' = false)
    (e' : NftError) : Follows b now outcome' room' (.error e') := by
  cases outcome with
  | error e =>
    obtain ⟨e', rfl⟩ := houtcome e rfl
    exact ⟨_, rfl⟩
  | ok staged =>
    cases room with
    | true =>
      obtain ⟨kernel, hkernel, _⟩ := h
      exact absurd hkernel (by simp)
    | false =>
      obtain rfl := hroom rfl
      cases outcome' <;> exact ⟨_, rfl⟩

/-- A whole batch. -/
theorem follows_batch {ops : List SetOp} (h : Mirrors b now staged kernel)
    (hvalid : ∀ op ∈ ops, validateElement op = .ok ()) {commands : List NftCommand}
    (hcommands : NftablesSetBackend.batchCommands ops = .ok commands) :
    Follows b now (b.stage now staged ops) (b.deletionsFindRoom now staged ops)
      (transaction now kernel commands) := by
  induction ops generalizing staged kernel commands with
  | nil =>
    obtain rfl := Except.ok.inj hcommands
    exact ⟨kernel, rfl, h⟩
  | cons op ops ih =>
    rw [List.forall_mem_cons] at hvalid
    obtain ⟨first, rest, hfirst, hrest, rfl⟩ := NftablesSetBackend.batchCommands_cons hcommands
    have hop := h.follows_op hvalid.1 hfirst
    have hsplit : transaction now kernel (first ++ rest) =
        transaction now kernel first >>= fun kernel => transaction now kernel rest := List.foldlM_append
    unfold FakeSetBackend.stage FakeSetBackend.deletionsFindRoom
    rw [List.foldlM_cons, hsplit]
    cases hrun : transaction now kernel first with
    | error e =>
      rw [hrun] at hop
      refine hop.refused ?_ ?_ e
      · intro e he
        rw [he]
        exact ⟨e, rfl⟩
      · intro hroom
        rw [hroom, Bool.false_and]
    | ok kernel' =>
      cases hstage : b.stageOp now staged op with
      | error e =>
        rw [hrun, hstage] at hop
        exact absurd hop.choose_spec (by simp)
      | ok staged' =>
        cases hroom : b.findsRoom now staged op with
        | false =>
          rw [hrun, hstage, hroom] at hop
          exact absurd hop.choose_spec (by simp)
        | true =>
          rw [hrun, hstage, hroom] at hop
          obtain ⟨kernel'', heq, hnext⟩ := hop
          obtain rfl := Except.ok.inj heq
          exact ih hnext hvalid.2 hrest

end Mirrors

/-! ## The two backends -/

theorem Mirrors.init (b : FakeSetBackend) (now : Time) : Mirrors b now Dict.empty b.find? where
  sets := fun _ => rfl
  live := fun _ _ hget => absurd hget (by simp)

theorem Mirrors.commit {b : FakeSetBackend} {now : Time} {staged : FakeSetBackend.Staged} {kernel : Kernel}
    (h : Mirrors b now staged kernel) : kernel = (b.commit staged).find? := by
  funext a
  have hkernel := h.sets a
  have hcommit := b.find?_commit staged a
  cases hget : staged.get? a with
  | none =>
    rw [hget] at hkernel hcommit
    exact hkernel.trans hcommit.symm
  | some elements =>
    rw [hget] at hkernel hcommit
    exact hkernel.trans hcommit.symm

/-- Both backends take the batch and leave the same elements with the same expiries, or both refuse it and
leave everything as it was. -/
def Agrees (b : FakeSetBackend) (ops : List SetOp) (now : Time) : Prop :=
  ((NftablesSetBackend.apply b.find? ops now).1.isOk = (b.apply ops now).1.isOk) ∧
    (NftablesSetBackend.apply b.find? ops now).2 = (b.apply ops now).2.find?

/-- From the same kernel state, the nftables backend does with a validated batch what the fake does exactly
when each deletion in a batch the fake takes finds, where it stands in the batch, its element present or its
set below the declared size. -/
theorem nftables_agrees_iff (b : FakeSetBackend) (hfaults : b.faults = []) (ops : List SetOp)
    (hvalid : ∀ op ∈ ops, validateElement op = .ok ()) (now : Time) :
    Agrees b ops now ↔
      ((b.apply ops now).1 = .ok () → b.deletionsFindRoom now Dict.empty ops = true) := by
  by_cases hops : ops = []
  · subst hops
    exact ⟨fun _ _ => rfl, fun _ => ⟨rfl, rfl⟩⟩
  obtain ⟨commands, hcommands⟩ := NftablesSetBackend.batchCommands_ok hvalid
  have hfollows := (Mirrors.init b now).follows_batch hvalid hcommands
  have hrefused : ∀ e, transaction now b.find? commands = .error e →
      (NftablesSetBackend.apply b.find? ops now).1.isOk = false ∧
        (NftablesSetBackend.apply b.find? ops now).2 = b.find? := by
    intro e he
    unfold NftablesSetBackend.apply NftablesSetBackend.run
    simp only [if_neg hops, hcommands, he]
    cases e <;> exact ⟨rfl, rfl⟩
  unfold Agrees
  rw [b.apply_validated hfaults hops hvalid now]
  cases hstage : b.stage now Dict.empty ops with
  | error e =>
    rw [hstage] at hfollows
    obtain ⟨e', he'⟩ := hfollows
    obtain ⟨hfails, hkept⟩ := hrefused e' he'
    exact ⟨fun _ hok => absurd hok (by simp), fun _ => ⟨hfails, hkept⟩⟩
  | ok staged =>
    cases hroom : b.deletionsFindRoom now Dict.empty ops with
    | false =>
      rw [hstage, hroom] at hfollows
      obtain ⟨e', he'⟩ := hfollows
      rw [(hrefused e' he').1]
      exact ⟨fun hagrees => absurd hagrees.1 (by simp [Except.isOk, Except.toBool]),
        fun hok => absurd (hok rfl) (by simp)⟩
    | true =>
      rw [hstage, hroom] at hfollows
      obtain ⟨kernel, hkernel, hmirrors⟩ := hfollows
      refine ⟨fun _ _ => rfl, fun _ => ?_⟩
      unfold NftablesSetBackend.apply NftablesSetBackend.run
      simp only [if_neg hops, hcommands, hkernel]
      exact ⟨trivial, hmirrors.commit⟩

/-- An upgrade whose RATE_LIMIT element may have lapsed: its deletion and the BLOCK's addition. -/
def upgradeBatch : List SetOp :=
  [{ kind := .delete, setName := NftNames.setRatelimit4, key := .one "10.0.0.9" },
   { kind := .add, setName := NftNames.setBlock4, key := .one "10.0.0.9", timeoutSeconds := some 600 }]

/-- The reviewed tables with sets of this size, and another device rate-limited. -/
def limitedKernel (size : Nat) : FakeSetBackend :=
  ((FakeSetBackend.load (some size) (some 1024) fun _ => .observe).apply
    [{ kind := .add, setName := NftNames.setRatelimit4, key := .one "10.0.0.8", timeoutSeconds := some 600 }] 0).2

theorem nftables_agrees_iff_upgrade : Agrees (limitedKernel 2) upgradeBatch 0 :=
  (nftables_agrees_iff (limitedKernel 2) (by decide +kernel) upgradeBatch (by decide +kernel) 0).mpr
    fun _ => by decide +kernel

/-- With the set full, the upgrade that the fake takes fails in the kernel. -/
theorem lapsed_element_fails_the_upgrade :
    (limitedKernel 1).faults = [] ∧ (∀ op ∈ upgradeBatch, validateElement op = .ok ()) ∧
    ((limitedKernel 1).apply upgradeBatch 0).1.isOk = true ∧
    (NftablesSetBackend.apply (limitedKernel 1).find? upgradeBatch 0).1.isOk = false ∧
    ¬ Agrees (limitedKernel 1) upgradeBatch 0 := by
  have hfake : ((limitedKernel 1).apply upgradeBatch 0).1.isOk = true := by decide +kernel
  have hnft : (NftablesSetBackend.apply (limitedKernel 1).find? upgradeBatch 0).1.isOk = false := by
    decide +kernel
  refine ⟨by decide +kernel, by decide +kernel, hfake, hnft, ?_⟩
  intro hagrees
  have hsame := hagrees.1
  rw [hfake, hnft] at hsame
  exact absurd hsame (by decide)

end Pirewall
