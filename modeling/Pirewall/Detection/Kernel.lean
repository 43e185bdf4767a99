/-
# Pirewall.Detection.Kernel -- the kernel offender poller

Once a second the poller reads `@offenders` and turns each (code, MAC) element into `KernelGuardEvidence` that
says how many polls in a row the element was there. An episode is one unbroken presence; its id names the
code, the MAC, the start of the episode, the guard's mode and the stage.

`episodeOf` is what an episode is, read off the list of polls; `episodes_eq` says the poller's dictionary is
that. From it: the count is the length of the presence, ids tell episodes apart, and an episode is classified
as sustained enforcement under one id only, which the policy engine decides on once.
-/
import Mathlib.Data.List.Sort
import Pirewall.Lib.Calendar
import Pirewall.Lib.Text
import Pirewall.Flow.Packet
import Pirewall.Policy.Memory

namespace Pirewall

open Lib

/-- `datetime.isoformat` of a moment in UTC. -/
def DateTime.isoformat (moment : DateTime) : List Char := Lib.isoformat (moment.us + 62135596800000000).toNat

theorem DateTime.isoformat_injective {a b : DateTime} (h : a.isoformat = b.isoformat) : a = b := by
  have hbound : ∀ t : DateTime, (t.us + 62135596800000000).toNat / 1000000 / 86400 ≤ lastDay := by
    intro t
    have := t.le_max
    unfold lastDay
    omega
  have hus := Lib.isoformat_injective (hbound a) (hbound b) h
  have := a.min_le
  have := b.min_le
  exact DateTime.ext_us (by omega)

/-! ## What a poll reads -/

/-- One successful set of kernel reads. -/
structure KernelReading where
  offenders : List (String × Int)
  modes : Dict GuardName GuardMode
  counters : Dict String Nat
  /-- (table, set), elements and declared size of each watched set. -/
  fills : List ((String × String) × Nat × Option Nat)

inductive KernelRead where
  | failed (reason : String)
  | tableMissing
  | reading (r : KernelReading)

structure Poll where
  now : DateTime
  read : KernelRead

abbrev EpisodeKey := OffenderCode × Mac

/-- An offender that names a known meter and one device. -/
def offender? (element : String × Int) : Option EpisodeKey :=
  match Mac.ofString? element.1, if element.2 < 0 then none else OffenderCode.ofValue? element.2.toNat with
  | some mac, some code => some (code, mac)
  | _, _ => none

/-- `present`, a set. -/
def present (offenders : List (String × Int)) : List EpisodeKey := (offenders.filterMap offender?).dedup

/-- The order of `sorted(present)`. -/
def EpisodeKey.le (a b : EpisodeKey) : Bool :=
  decide (a.1.value < b.1.value) || (a.1.value == b.1.value && decide (a.2.text ≤ b.2.text))

/-! ## The poller -/

/-- One unbroken presence so far, counted at least once. -/
structure Episode where
  startedAt : DateTime
  polls : Nat
  counted : 1 ≤ polls

/-- The part of the id that says how far an episode got. -/
inductive Stage where
  | observe | new | sustained
  deriving DecidableEq, Repr

def Stage.value : Stage → String
  | .observe => "observe"
  | .new => "new"
  | .sustained => "sustained"

/-- Only an enforce-mode episode changes stage. -/
def stageOf (mode : GuardMode) (polls sustainedPolls : Nat) : Stage :=
  match mode with
  | .observe => .observe
  | .enforce => if sustainedPolls ≤ polls then .sustained else .new

/-- `k:<code>:<mac>:<started_at>:<mode>:<stage>`. -/
def kernelIdChars (key : EpisodeKey) (startedAt : DateTime) (mode : GuardMode) (stage : Stage) : List Char :=
  'k' :: ':' :: (Nat.toDigits 10 key.1.value ++ ':' :: (key.2.text.toList ++ ':' ::
    (startedAt.isoformat ++ ':' :: (mode.value.toList ++ ':' :: stage.value.toList))))

def kernelId (key : EpisodeKey) (startedAt : DateTime) (mode : GuardMode) (stage : Stage) : String :=
  String.ofList (kernelIdChars key startedAt mode stage)

/-- `modes.get(guard) or OBSERVE`: a guard that could not be read counts as the weaker mode. -/
def guardModeOf (modes : Dict GuardName GuardMode) (code : OffenderCode) : GuardMode :=
  (modes.get? code.guard).getD .observe

/-- The evidence an offender gives at a poll. -/
def kernelEvidence (sustainedPolls : Nat) (modes : Dict GuardName GuardMode) (now : DateTime)
    (key : EpisodeKey) (episode : Episode) : KernelGuardEvidence where
  id := kernelId key episode.startedAt (guardModeOf modes key.1)
    (stageOf (guardModeOf modes key.1) episode.polls sustainedPolls)
  code := key.1
  mac := key.2
  guard := key.1.guard
  guardMode := guardModeOf modes key.1
  sustainedPolls := episode.polls
  observedAt := now.us
  sustainedPolls_pos := episode.counted
  guard_matches_code := rfl

/-- The episode one poll on: it goes on, or starts now. -/
def continued (now : DateTime) : Option Episode → Episode
  | none => ⟨now, 1, le_refl 1⟩
  | some episode => ⟨episode.startedAt, episode.polls + 1, Nat.le_add_left 1 _⟩

/-- The loop of `_track` over the sorted offenders. -/
def trackAll (sustainedPolls : Nat) (modes : Dict GuardName GuardMode) (now : DateTime) :
    List EpisodeKey → Dict EpisodeKey Episode → List KernelGuardEvidence × Dict EpisodeKey Episode
  | [], episodes => ([], episodes)
  | key :: rest, episodes =>
    let episode := continued now (episodes.get? key)
    let tracked := trackAll sustainedPolls modes now rest (episodes.set key episode)
    (kernelEvidence sustainedPolls modes now key episode :: tracked.1, tracked.2)

/-- `GUARD_VERDICT_COUNTERS`. -/
def guardVerdictCounters : List (GuardName × String) :=
  [(.raw, "c_verdict_raw"), (.input, "c_verdict_input"), (.forward, "c_verdict_forward")]

/-- A watched set that crossed the warning ratio. -/
structure FillAlert where
  location : String × String
  count : Nat
  size : Nat

structure KernelPollResult where
  evidence : List KernelGuardEvidence
  /-- Evidence id to the start of its episode. -/
  startedAt : Dict String DateTime
  guardHits : Dict GuardName Nat
  offenderCount : Nat
  maxSetFillRatio : Rat
  alerts : List FillAlert
  tablePresent : Bool
  error : Option String

structure KernelPoller where
  sustainedPolls : Nat
  warningRatio : Rat
  episodes : Dict EpisodeKey Episode
  lastCounters : Dict GuardName Nat
  warned : List (String × String)

namespace KernelPoller

def init (sustainedPolls : Nat) (warningRatio : Rat) : KernelPoller :=
  ⟨sustainedPolls, warningRatio, Dict.empty, Dict.empty, []⟩

/-- `_track`. -/
def track (p : KernelPoller) (offenders : List (String × Int)) (modes : Dict GuardName GuardMode)
    (now : DateTime) : List KernelGuardEvidence × Dict EpisodeKey Episode :=
  let kept := p.episodes.filter fun key _ => (present offenders).contains key
  trackAll p.sustainedPolls modes now ((present offenders).insertionSort fun a b => a.le b = true) kept

/-- One guard of `_deltas`: a counter that went back was reset by a reload. -/
def delta (previous : Option Nat) (value : Nat) : Nat :=
  match previous with
  | none => value
  | some before => if value < before then value else value - before

/-- `_deltas`. -/
def deltas (p : KernelPoller) (counters : Dict String Nat) : Dict GuardName Nat × Dict GuardName Nat :=
  guardVerdictCounters.foldl (fun acc guard =>
    match counters.get? guard.2 with
    | none => acc
    | some value => (acc.1.set guard.1 (delta (acc.2.get? guard.1) value), acc.2.set guard.1 value))
    (Dict.empty, p.lastCounters)

/-- Elements over declared size; a set of no size has ratio 0. -/
def fillRatio (count : Nat) (size : Option Nat) : Rat :=
  match size with
  | none => 0
  | some size => if size = 0 then 0 else count / size

/-- `_fill_alerts`: one warning when a set crosses the ratio, re-armed once it drains. -/
def fillAlerts (p : KernelPoller) (fills : List ((String × String) × Nat × Option Nat)) :
    List FillAlert × List (String × String) :=
  fills.foldl (fun acc fill =>
    if fillRatio fill.2.1 fill.2.2 > p.warningRatio then
      if acc.2.contains fill.1 then acc
      else (acc.1 ++ [⟨fill.1, fill.2.1, fill.2.2.getD 0⟩], fill.1 :: acc.2)
    else (acc.1, acc.2.filter fun location => location != fill.1)) ([], p.warned)

/-- `poll`. -/
def poll (p : KernelPoller) (q : Poll) : KernelPollResult × KernelPoller :=
  match q.read with
  | .failed reason =>
    (⟨[], Dict.empty, Dict.empty, 0, 0, [], true, some ("kernel poll failed: " ++ reason)⟩, p)
  | .tableMissing =>
    (⟨[], Dict.empty, Dict.empty, 0, 0, [], false, none⟩, { p with episodes := Dict.empty })
  | .reading r =>
    let tracked := p.track r.offenders r.modes q.now
    let hits := p.deltas r.counters
    let alerts := p.fillAlerts r.fills
    let started := tracked.1.foldl (fun started item =>
      match tracked.2.get? (item.code, item.mac) with
      | none => started
      | some episode => started.set item.id episode.startedAt) Dict.empty
    let ratio := (r.fills.map fun fill => fillRatio fill.2.1 fill.2.2).foldl max 0
    (⟨tracked.1, started, hits.1, r.offenders.length, ratio, alerts.1, true, none⟩,
      { p with episodes := tracked.2, lastCounters := hits.2, warned := alerts.2 })

/-- The poller after a poll. -/
def after (p : KernelPoller) (q : Poll) : KernelPoller := (p.poll q).2

/-- The evidence of the last poll of a run. -/
def evidenceAt (p : KernelPoller) (before : List Poll) (q : Poll) : List KernelGuardEvidence :=
  ((run after p before).poll q).1.evidence

end KernelPoller

/-! ## Ids -/

theorem Mac.length_text (mac : Mac) : mac.text.toList.length = 17 := by
  have hcanonical := mac.canonical
  generalize mac.text.toList = cs at hcanonical
  unfold validateUnicastMac at hcanonical
  split at hcanonical
  · exact absurd hcanonical (by simp)
  · rename_i n hn
    split at hcanonical
    · obtain rfl := Option.some.inj hcanonical
      unfold normaliseMac at hn
      split at hn
      · rfl
      · exact absurd hn (by simp)
    · exact absurd hcanonical (by simp)

theorem OffenderCode.value_digits (code : OffenderCode) : ':' ∉ Nat.toDigits 10 code.value := by
  cases code <;> decide

theorem OffenderCode.digits_injective {a b : OffenderCode}
    (h : Nat.toDigits 10 a.value = Nat.toDigits 10 b.value) : a = b := by
  have hvalue : a.value = b.value := by
    rw [← Nat.ofDigitChars_ten_toDigits (n := a.value), h, Nat.ofDigitChars_ten_toDigits]
  have ha := OffenderCode.ofValue?_value a
  rw [hvalue, OffenderCode.ofValue?_value] at ha
  exact (Option.some.inj ha).symm

/-- A stage belongs to one mode. -/
def Stage.mode : Stage → GuardMode
  | .observe => .observe
  | .new | .sustained => .enforce

theorem stageOf_mode (mode : GuardMode) (polls sustainedPolls : Nat) :
    (stageOf mode polls sustainedPolls).mode = mode := by
  cases mode with
  | observe => rfl
  | enforce =>
    rw [stageOf]
    split
    · rfl
    · rfl

/-- The id names the code, the MAC, the start of the episode and the stage. -/
theorem kernelId_injective {key key' : EpisodeKey} {start start' : DateTime} {stage stage' : Stage}
    (h : kernelId key start stage.mode stage = kernelId key' start' stage'.mode stage') :
    key = key' ∧ start = start' ∧ stage = stage' := by
  have hchars : kernelIdChars key start stage.mode stage = kernelIdChars key' start' stage'.mode stage' := by
    have := congrArg String.toList h
    simpa [kernelId] using this
  simp only [kernelIdChars, List.cons.injEq, true_and] at hchars
  obtain ⟨hcode, hrest⟩ := append_separator_inj key.1.value_digits key'.1.value_digits hchars
  obtain ⟨hmac, hrest⟩ := List.append_inj hrest (by rw [key.2.length_text, key'.2.length_text])
  replace hrest := List.tail_eq_of_cons_eq hrest
  -- the lengths of the two possible starts and three possible ends add up in six different ways
  have htail : ∀ stage : Stage, (':' :: (stage.mode.value.toList ++ ':' :: stage.value.toList)).length =
      match stage with
      | .observe => 16
      | .new => 12
      | .sustained => 18 := by
    intro stage
    cases stage <;> decide
  have hstart : ∀ t : DateTime, t.isoformat.length = 25 ∨ t.isoformat.length = 32 := by
    intro t
    rw [DateTime.isoformat, length_isoformat]
    split
    · exact .inl rfl
    · exact .inr rfl
  have hlength := congrArg List.length hrest
  rw [List.length_append, List.length_append, htail, htail] at hlength
  have hstage : stage = stage' ∧ start.isoformat.length = start'.isoformat.length := by
    rcases hstart start with h₁ | h₁ <;> rcases hstart start' with h₂ | h₂ <;>
      rw [h₁, h₂] at hlength ⊢ <;> cases stage <;> cases stage' <;>
      first
        | exact ⟨rfl, rfl⟩
        | exact absurd hlength (by decide)
  obtain ⟨hiso, _⟩ := List.append_inj hrest hstage.2
  exact ⟨Prod.ext (OffenderCode.digits_injective hcode)
    (Mac.ext_text (String.toList_inj.mp hmac)), DateTime.isoformat_injective hiso, hstage.1⟩

theorem kernelId_stageOf_injective {key key' : EpisodeKey} {start start' : DateTime} {mode mode' : GuardMode}
    {polls polls' sustainedPolls : Nat}
    (h : kernelId key start mode (stageOf mode polls sustainedPolls) =
      kernelId key' start' mode' (stageOf mode' polls' sustainedPolls)) :
    key = key' ∧ start = start' ∧ mode = mode' ∧
      stageOf mode polls sustainedPolls = stageOf mode' polls' sustainedPolls := by
  have hmode := stageOf_mode mode polls sustainedPolls
  have hmode' := stageOf_mode mode' polls' sustainedPolls
  generalize stageOf mode polls sustainedPolls = stage at h hmode ⊢
  generalize stageOf mode' polls' sustainedPolls = stage' at h hmode' ⊢
  obtain rfl := hmode
  obtain rfl := hmode'
  obtain ⟨hkey, hstart, hstage⟩ := kernelId_injective h
  exact ⟨hkey, hstart, by rw [hstage], hstage⟩

/-! ## One poll -/

section Track

variable {sustainedPolls : Nat} {modes : Dict GuardName GuardMode} {now : DateTime}

/-- Each offender's episode goes on by one; the others stay. -/
theorem trackAll_episodes {keys : List EpisodeKey} (hnodup : keys.Nodup) (episodes : Dict EpisodeKey Episode)
    (key : EpisodeKey) :
    (trackAll sustainedPolls modes now keys episodes).2.get? key =
      if key ∈ keys then some (continued now (episodes.get? key)) else episodes.get? key := by
  induction keys generalizing episodes with
  | nil => rfl
  | cons first rest ih =>
    obtain ⟨hfirst, hrest⟩ := List.nodup_cons.mp hnodup
    simp only [trackAll, ih hrest, Dict.get?_set, List.mem_cons]
    by_cases hkey : key = first
    · simp [hkey, hfirst]
    · simp [hkey]

theorem mem_trackAll {keys : List EpisodeKey} (hnodup : keys.Nodup) (episodes : Dict EpisodeKey Episode)
    {item : KernelGuardEvidence} :
    item ∈ (trackAll sustainedPolls modes now keys episodes).1 ↔ ∃ key ∈ keys,
      item = kernelEvidence sustainedPolls modes now key (continued now (episodes.get? key)) := by
  induction keys generalizing episodes with
  | nil => simp [trackAll]
  | cons first rest ih =>
    obtain ⟨hfirst, hrest⟩ := List.nodup_cons.mp hnodup
    have hother : ∀ key ∈ rest, (episodes.set first (continued now (episodes.get? first))).get? key =
        episodes.get? key := by
      intro key hkey
      rw [Dict.get?_set, if_neg]
      rintro rfl
      exact hfirst hkey
    simp only [trackAll, List.mem_cons, ih hrest]
    constructor
    · rintro (rfl | ⟨key, hkey, rfl⟩)
      · exact ⟨first, .inl rfl, rfl⟩
      · exact ⟨key, .inr hkey, by rw [hother key hkey]⟩
    · rintro ⟨key, rfl | hkey, rfl⟩
      · exact .inl rfl
      · exact .inr ⟨key, hkey, by rw [hother key hkey]⟩

end Track

theorem nodup_present (offenders : List (String × Int)) :
    ((present offenders).insertionSort fun a b => a.le b = true).Nodup :=
  (List.perm_insertionSort _ _).nodup_iff.mpr (List.nodup_dedup _)

/-- The poll ends an unbroken presence of the offender. -/
def Poll.breaks (q : Poll) (key : EpisodeKey) : Bool :=
  match q.read with
  | .failed _ => false
  | .tableMissing => true
  | .reading r => !(present r.offenders).contains key

def Poll.succeeded (q : Poll) : Bool :=
  match q.read with
  | .reading _ => true
  | _ => false

namespace KernelPoller

/-- What a poll does to the episode of an offender. -/
theorem get?_after (p : KernelPoller) (q : Poll) (key : EpisodeKey) :
    (p.after q).episodes.get? key =
      if q.breaks key then none
      else if q.succeeded then some (continued q.now (p.episodes.get? key)) else p.episodes.get? key := by
  unfold after poll Poll.breaks Poll.succeeded
  cases q.read with
  | failed reason => rfl
  | tableMissing => rfl
  | reading r =>
    simp only [track, trackAll_episodes (nodup_present r.offenders), List.mem_insertionSort, Dict.get?_filter]
    cases hmem : (present r.offenders).contains key with
    | true =>
      rw [if_pos (List.contains_iff_mem.mp hmem)]
      cases p.episodes.get? key <;> rfl
    | false =>
      rw [if_neg fun h => by rw [List.contains_iff_mem.mpr h] at hmem; exact absurd hmem (by decide)]
      cases p.episodes.get? key <;> rfl

end KernelPoller

/-! ## Presence -/

/-- The polls since the last one that broke the offender's presence, newest first. -/
def presence (key : EpisodeKey) (polls : List Poll) : List Poll :=
  polls.reverse.takeWhile fun q => !q.breaks key

/-- The successful ones of them. -/
def sightings (key : EpisodeKey) (polls : List Poll) : List Poll := (presence key polls).filter Poll.succeeded

section Presence

variable {key : EpisodeKey}

theorem sightings_snoc (polls : List Poll) (q : Poll) :
    sightings key (polls ++ [q]) =
      if q.breaks key then []
      else if q.succeeded then q :: sightings key polls else sightings key polls := by
  simp only [sightings, presence, List.reverse_append, List.reverse_singleton, List.singleton_append,
    List.takeWhile_cons]
  cases q.breaks key with
  | true => rfl
  | false => simp only [Bool.not_false, if_true, List.filter_cons, Bool.false_eq_true, if_false]

/-- Without a break the presence goes on. -/
theorem sightings_append_unbroken (polls : List Poll) {more : List Poll}
    (h : ∀ q ∈ more, q.breaks key = false) :
    sightings key (polls ++ more) = more.reverse.filter Poll.succeeded ++ sightings key polls := by
  have htake : ((polls ++ more).reverse.takeWhile fun q => !q.breaks key) =
      more.reverse ++ polls.reverse.takeWhile fun q => !q.breaks key := by
    rw [List.reverse_append, List.takeWhile_append_of_pos]
    intro q hq
    rw [h q (List.mem_reverse.mp hq)]
    rfl
  rw [sightings, presence, htake, List.filter_append]
  rfl

/-- After a break nothing before it counts. -/
theorem sightings_append_broken (polls : List Poll) {more : List Poll}
    (h : ∃ q ∈ more, q.breaks key = true) : ∀ q ∈ sightings key (polls ++ more), q ∈ more := by
  obtain ⟨q, hq, hbreaks⟩ := h
  obtain ⟨before, after, rfl⟩ := List.append_of_mem hq
  intro q' hq'
  have hmem := (List.mem_filter.mp hq').1
  have htake : ((polls ++ (before ++ q :: after)).reverse.takeWhile fun q => !q.breaks key) =
      (after.reverse ++ q :: (before.reverse ++ polls.reverse)).takeWhile fun q => !q.breaks key := by
    simp
  rw [presence, htake] at hmem
  -- `takeWhile` stops at `q` at the latest
  have hstop : ∀ {rest : List Poll} {l : List Poll},
      q' ∈ ((l ++ q :: rest).takeWhile fun q => !q.breaks key) → q' ∈ l := by
    intro rest l
    induction l with
    | nil => simp [hbreaks]
    | cons first l ih =>
      rw [List.cons_append, List.takeWhile_cons]
      split
      · intro hmem
        rcases List.mem_cons.mp hmem with rfl | hmem
        · exact List.mem_cons_self
        · exact List.mem_cons_of_mem _ (ih hmem)
      · simp
  have hafter := hstop hmem
  exact List.mem_append_right _ (List.mem_cons_of_mem _ (List.mem_reverse.mp hafter))

end Presence

/-- An episode is the sightings of the current presence: as many, and since the first of them. -/
def Tracks (episode : Option Episode) (sighted : List Poll) : Prop :=
  match episode with
  | none => sighted = []
  | some episode => sighted.length = episode.polls ∧ sighted.getLast?.map Poll.now = some episode.startedAt

theorem Tracks.continued {episode : Option Episode} {sighted : List Poll} (h : Tracks episode sighted)
    (q : Poll) : Tracks (some (Pirewall.continued q.now episode)) (q :: sighted) := by
  cases episode with
  | none =>
    obtain rfl : sighted = [] := h
    exact ⟨rfl, rfl⟩
  | some episode =>
    obtain ⟨hlength, hlast⟩ := h
    refine ⟨by rw [List.length_cons, hlength]; rfl, ?_⟩
    cases sighted with
    | nil => exact absurd hlast (by simp)
    | cons first rest => exact hlast

namespace KernelPoller

variable (sustainedPolls : Nat) (warningRatio : Rat)

/-- The poller's dictionary holds the current presence of every offender. -/
theorem episodes_eq (polls : List Poll) (key : EpisodeKey) :
    Tracks ((run after (init sustainedPolls warningRatio) polls).episodes.get? key) (sightings key polls) := by
  induction polls using List.reverseRecOn with
  | nil => exact rfl
  | append_singleton polls q ih =>
    rw [run_append, sightings_snoc]
    show Tracks ((KernelPoller.after _ q).episodes.get? key) _
    rw [get?_after]
    split
    · exact rfl
    · split
      · exact ih.continued q
      · exact ih

theorem after_sustainedPolls (p : KernelPoller) (q : Poll) : (p.after q).sustainedPolls = p.sustainedPolls := by
  unfold after poll
  split
  · rfl
  · rfl
  · rfl

theorem run_sustainedPolls (p : KernelPoller) (polls : List Poll) :
    (run after p polls).sustainedPolls = p.sustainedPolls := by
  induction polls generalizing p with
  | nil => rfl
  | cons q rest ih => exact (ih (p.after q)).trans (p.after_sustainedPolls q)

/-- An item of evidence: the offender is there, and its count, start and stage are those of its presence. -/
theorem evidenceAt_spec {before : List Poll} {q : Poll} {item : KernelGuardEvidence}
    (h : item ∈ (init sustainedPolls warningRatio).evidenceAt before q) :
    q.breaks (item.code, item.mac) = false ∧ q.succeeded = true ∧
      (sightings (item.code, item.mac) (before ++ [q])).length = item.sustainedPolls ∧
      ∃ start, (sightings (item.code, item.mac) (before ++ [q])).getLast?.map Poll.now = some start ∧
        item.id = kernelId (item.code, item.mac) start item.guardMode
          (stageOf item.guardMode item.sustainedPolls sustainedPolls) := by
  have hepisodes := episodes_eq sustainedPolls warningRatio before
  unfold evidenceAt poll at h
  cases hread : q.read with
  | failed reason =>
    rw [hread] at h
    exact absurd h List.not_mem_nil
  | tableMissing =>
    rw [hread] at h
    exact absurd h List.not_mem_nil
  | reading r =>
    rw [hread] at h
    simp only [track, mem_trackAll (nodup_present r.offenders), List.mem_insertionSort,
      run_sustainedPolls] at h
    obtain ⟨key, hkey, rfl⟩ := h
    have hcontains : (present r.offenders).contains key = true := List.contains_iff_mem.mpr hkey
    have hbreaks : q.breaks key = false := by
      simp only [Poll.breaks, hread, hcontains, Bool.not_true]
    have hsucceeded : q.succeeded = true := by simp only [Poll.succeeded, hread]
    have hkept : ((run after (init sustainedPolls warningRatio) before).episodes.filter
        (fun key _ => (present r.offenders).contains key)).get? key =
        (run after (init sustainedPolls warningRatio) before).episodes.get? key := by
      rw [Dict.get?_filter, hcontains]
      cases (run after (init sustainedPolls warningRatio) before).episodes.get? key <;> rfl
    have htracks := (hepisodes key).continued q
    rw [← hkept] at htracks
    have hsightings : sightings key (before ++ [q]) = q :: sightings key before := by
      rw [sightings_snoc, hbreaks, hsucceeded]
      rfl
    rw [← hsightings] at htracks
    exact ⟨hbreaks, hsucceeded, htracks.1, _, htracks.2, rfl⟩

end KernelPoller

/-! ## Episodes -/

theorem mem_of_mem_sightings {key : EpisodeKey} {polls : List Poll} {q : Poll}
    (h : q ∈ sightings key polls) : q ∈ polls :=
  List.mem_reverse.mp ((List.takeWhile_subset _) (List.mem_filter.mp h).1)

/-- Two sightings belong to one episode exactly when it started at one time. -/
theorem start_eq_iff {before between : List Poll} {q₁ q₂ : Poll} {key : EpisodeKey} {start₁ start₂ : DateTime}
    (hincreasing : (before ++ q₁ :: (between ++ [q₂])).Pairwise fun p q => p.now.us < q.now.us)
    (hbreaks₂ : q₂.breaks key = false)
    (h₁ : (sightings key (before ++ [q₁])).getLast?.map Poll.now = some start₁)
    (h₂ : (sightings key (before ++ q₁ :: between ++ [q₂])).getLast?.map Poll.now = some start₂) :
    start₁ = start₂ ↔ ∀ q ∈ between, q.breaks key = false := by
  have hsplit : before ++ q₁ :: between ++ [q₂] = (before ++ [q₁]) ++ (between ++ [q₂]) := by simp
  rw [hsplit] at h₂
  obtain ⟨first₁, hfirst₁, rfl⟩ := Option.map_eq_some_iff.mp h₁
  obtain ⟨first₂, hfirst₂, rfl⟩ := Option.map_eq_some_iff.mp h₂
  constructor
  · intro heq
    by_contra hbroken
    push Not at hbroken
    obtain ⟨q, hq, hbreaks⟩ := hbroken
    -- the second start is later than the first poll, the first is not
    have hlater : first₂ ∈ between ++ [q₂] :=
      sightings_append_broken (before ++ [q₁]) ⟨q, List.mem_append_left _ hq, by simpa using hbreaks⟩ first₂
        (List.mem_of_getLast? hfirst₂)
    have hearlier : first₁ ∈ before ++ [q₁] := mem_of_mem_sightings (List.mem_of_getLast? hfirst₁)
    rw [show before ++ q₁ :: (between ++ [q₂]) = (before ++ [q₁]) ++ (between ++ [q₂]) by simp,
      List.pairwise_append] at hincreasing
    have hless := hincreasing.2.2 first₁ hearlier first₂ hlater
    rw [heq] at hless
    exact absurd hless (lt_irrefl _)
  · intro hunbroken
    have hall : ∀ q ∈ between ++ [q₂], q.breaks key = false := by
      intro q hq
      rcases List.mem_append.mp hq with hq | hq
      · exact hunbroken q hq
      · rw [List.mem_singleton.mp hq]
        exact hbreaks₂
    rw [sightings_append_unbroken _ hall, List.getLast?_append, hfirst₁] at hfirst₂
    exact congrArg Poll.now (Option.some.inj hfirst₂)

/-- The stage in an id is `sustained` exactly when the policy classifies the item as sustained enforcement. -/
theorem stage_sustained_iff (sustainedPolls : Nat) (item : KernelGuardEvidence) :
    stageOf item.guardMode item.sustainedPolls sustainedPolls = .sustained ↔
      kernelClass sustainedPolls item = .kEnforceSustained := by
  unfold stageOf kernelClass
  cases item.guardMode with
  | observe => simp
  | enforce =>
    simp only
    split
    · simp
    · simp

namespace KernelPoller

variable {sustainedPolls : Nat} {warningRatio : Rat}

/-- Ids at one poll name different offenders. -/
theorem id_injective_at {before : List Poll} {q : Poll} {item item' : KernelGuardEvidence}
    (h : item ∈ (init sustainedPolls warningRatio).evidenceAt before q)
    (h' : item' ∈ (init sustainedPolls warningRatio).evidenceAt before q) (hid : item.id = item'.id) :
    (item.code, item.mac) = (item'.code, item'.mac) := by
  obtain ⟨_, _, _, start, _, hitem⟩ := evidenceAt_spec _ _ h
  obtain ⟨_, _, _, start', _, hitem'⟩ := evidenceAt_spec _ _ h'
  rw [hitem, hitem'] at hid
  exact (kernelId_stageOf_injective hid).1

/-- Ids at two polls agree exactly for one offender in one episode, in one mode and stage. -/
theorem id_eq_iff {before between : List Poll} {q₁ q₂ : Poll}
    (hincreasing : (before ++ q₁ :: (between ++ [q₂])).Pairwise fun p q => p.now.us < q.now.us)
    {item₁ item₂ : KernelGuardEvidence}
    (h₁ : item₁ ∈ (init sustainedPolls warningRatio).evidenceAt before q₁)
    (h₂ : item₂ ∈ (init sustainedPolls warningRatio).evidenceAt (before ++ q₁ :: between) q₂) :
    item₁.id = item₂.id ↔ (item₁.code, item₁.mac) = (item₂.code, item₂.mac) ∧
      (∀ q ∈ between, q.breaks (item₁.code, item₁.mac) = false) ∧ item₁.guardMode = item₂.guardMode ∧
      stageOf item₁.guardMode item₁.sustainedPolls sustainedPolls =
        stageOf item₂.guardMode item₂.sustainedPolls sustainedPolls := by
  obtain ⟨_, _, _, start₁, hstart₁, hid₁⟩ := evidenceAt_spec _ _ h₁
  obtain ⟨hbreaks₂, _, _, start₂, hstart₂, hid₂⟩ := evidenceAt_spec _ _ h₂
  rw [hid₁, hid₂]
  constructor
  · intro hid
    obtain ⟨hkey, hstart, hmode, hstage⟩ := kernelId_stageOf_injective hid
    refine ⟨hkey, ?_, hmode, hstage⟩
    rw [← hkey] at hbreaks₂ hstart₂
    exact (start_eq_iff hincreasing hbreaks₂ hstart₁ hstart₂).mp hstart
  · rintro ⟨hkey, hunbroken, hmode, hstage⟩
    rw [← hkey] at hbreaks₂ hstart₂
    rw [(start_eq_iff hincreasing hbreaks₂ hstart₁ hstart₂).mpr hunbroken, hkey, hstage, hmode]

/-- The three values the ids of an episode can take. -/
def episodeIds (key : EpisodeKey) (start : DateTime) : List String :=
  [kernelId key start .observe .observe, kernelId key start .enforce .new, kernelId key start .enforce .sustained]

theorem mem_episodeIds (key : EpisodeKey) (start : DateTime) (mode : GuardMode) (polls sustainedPolls : Nat) :
    kernelId key start mode (stageOf mode polls sustainedPolls) ∈ episodeIds key start := by
  cases mode with
  | observe => exact List.mem_cons_self
  | enforce =>
    rw [stageOf]
    split
    · exact List.mem_cons_of_mem _ (List.mem_cons_of_mem _ List.mem_cons_self)
    · exact List.mem_cons_of_mem _ List.mem_cons_self

/-- No run of an engine that keeps its memory classifies a device on both items, in two calls. -/
def DecidedOnce (item item' : KernelGuardEvidence) : Prop :=
  ∀ (table : PolicyTable) (config : PolicyConfig) (first rest last : List PolicyCall) (call call' : PolicyCall),
    Along PolicyEngine.step PolicyEngine.Fits (.init table config) (first ++ call :: (rest ++ call' :: last)) →
    call.device.map historyKey = call'.device.map historyKey →
    .kernel item ∈ (run PolicyEngine.step (.init table config) first).classified call →
    .kernel item' ∉ (run PolicyEngine.step (.init table config) (first ++ call :: rest)).classified call'

theorem decidedOnce_of_id_eq {item item' : KernelGuardEvidence} (h : item.id = item'.id) :
    DecidedOnce item item' := fun _ _ _ _ _ _ _ hfits hdevice hitem hitem' =>
  PolicyEngine.classified_once hfits hdevice hitem hitem' h

/-- Along every run of polls at increasing times: an item's count is the number of successful polls in the
current unbroken presence of its offender, and its id one of three for the episode; ids at two polls agree
exactly within one episode, for one mode and stage; a stage is `sustained` exactly when the policy says so; and
an engine that keeps its memory classifies a device on the sustained enforcement of one episode at most
once. -/
theorem kernel_episodes (sustainedPolls : Nat) (warningRatio : Rat) (polls : List Poll)
    (hincreasing : polls.Pairwise fun p q => p.now.us < q.now.us) :
    (∀ before q after, polls = before ++ q :: after →
      ∀ item ∈ (init sustainedPolls warningRatio).evidenceAt before q,
        item.sustainedPolls = (presence (item.code, item.mac) (before ++ [q])).countP Poll.succeeded ∧
        (∃ start, (sightings (item.code, item.mac) (before ++ [q])).getLast?.map Poll.now = some start ∧
          item.id = kernelId (item.code, item.mac) start item.guardMode
            (stageOf item.guardMode item.sustainedPolls sustainedPolls) ∧
          item.id ∈ episodeIds (item.code, item.mac) start) ∧
        (stageOf item.guardMode item.sustainedPolls sustainedPolls = .sustained ↔
          kernelClass sustainedPolls item = .kEnforceSustained) ∧
        ∀ item' ∈ (init sustainedPolls warningRatio).evidenceAt before q, item.id = item'.id →
          (item.code, item.mac) = (item'.code, item'.mac) ∧ DecidedOnce item item') ∧
    (∀ before q₁ between q₂ after, polls = before ++ q₁ :: (between ++ q₂ :: after) →
      ∀ item₁ ∈ (init sustainedPolls warningRatio).evidenceAt before q₁,
      ∀ item₂ ∈ (init sustainedPolls warningRatio).evidenceAt (before ++ q₁ :: between) q₂,
        (item₁.id = item₂.id ↔ (item₁.code, item₁.mac) = (item₂.code, item₂.mac) ∧
          (∀ q ∈ between, q.breaks (item₁.code, item₁.mac) = false) ∧ item₁.guardMode = item₂.guardMode ∧
          stageOf item₁.guardMode item₁.sustainedPolls sustainedPolls =
            stageOf item₂.guardMode item₂.sustainedPolls sustainedPolls) ∧
        -- one episode, sustained at both polls
        ((item₁.code, item₁.mac) = (item₂.code, item₂.mac) →
          (∀ q ∈ between, q.breaks (item₁.code, item₁.mac) = false) →
          kernelClass sustainedPolls item₁ = .kEnforceSustained →
          kernelClass sustainedPolls item₂ = .kEnforceSustained →
          DecidedOnce item₁ item₂ ∧ DecidedOnce item₂ item₁)) := by
  refine ⟨?_, ?_⟩
  · rintro before q after rfl item hitem
    obtain ⟨_, _, hcount, start, hstart, hid⟩ := evidenceAt_spec _ _ hitem
    refine ⟨?_, ⟨start, hstart, hid, ?_⟩, stage_sustained_iff sustainedPolls item,
      fun item' hitem' hsame => ⟨id_injective_at hitem hitem' hsame, decidedOnce_of_id_eq hsame⟩⟩
    · rw [← hcount, sightings, List.countP_eq_length_filter]
    · rw [hid]
      exact mem_episodeIds _ start _ _ _
  · rintro before q₁ between q₂ after rfl item₁ h₁ item₂ h₂
    -- up to the second poll the run is one of increasing times as well
    have hprefix : (before ++ q₁ :: (between ++ [q₂])).Pairwise fun p q => p.now.us < q.now.us := by
      refine hincreasing.sublist ?_
      exact List.Sublist.append_left (List.Sublist.cons_cons _
        (List.Sublist.append_left (List.Sublist.cons_cons _ (List.nil_sublist _)) _)) _
    have hiff := id_eq_iff hprefix h₁ h₂
    refine ⟨hiff, fun hkey hunbroken hclass₁ hclass₂ => ?_⟩
    have hstage₁ := (stage_sustained_iff sustainedPolls item₁).mpr hclass₁
    have hstage₂ := (stage_sustained_iff sustainedPolls item₂).mpr hclass₂
    -- a stage names the guard mode, so items of one stage have one mode
    have hmode : item₁.guardMode = item₂.guardMode := by
      rw [← stageOf_mode item₁.guardMode item₁.sustainedPolls sustainedPolls,
        ← stageOf_mode item₂.guardMode item₂.sustainedPolls sustainedPolls, hstage₁, hstage₂]
    have hsame : item₁.id = item₂.id := hiff.mpr ⟨hkey, hunbroken, hmode, hstage₁.trans hstage₂.symm⟩
    exact ⟨decidedOnce_of_id_eq hsame, decidedOnce_of_id_eq hsame.symm⟩

/-- A SYN flood seen at two polls one second apart, the raw guard enforcing. -/
def floodPolls : List Poll :=
  [⟨.epoch, .reading ⟨[("02:00:00:00:00:01", 1)], Dict.empty.set .raw .enforce, Dict.empty, []⟩⟩,
    ⟨.firstSecond,
      .reading ⟨[("02:00:00:00:00:01", 1)], Dict.empty.set .raw .enforce, Dict.empty, []⟩⟩]

theorem kernel_episodes_flood :
    ((init 2 0).evidenceAt (floodPolls.take 1) (floodPolls.getLast (by decide))).map
        (fun item => item.sustainedPolls) = [2] ∧
      ∀ item ∈ (init 2 0).evidenceAt (floodPolls.take 1) (floodPolls.getLast (by decide)),
        item.sustainedPolls =
          (presence (item.code, item.mac)
            (floodPolls.take 1 ++ [floodPolls.getLast (by decide)])).countP Poll.succeeded :=
  ⟨by decide +kernel, fun item hitem => (((kernel_episodes 2 0 floodPolls (by decide +kernel)).1
    (floodPolls.take 1) (floodPolls.getLast (by decide)) [] rfl item hitem).1)⟩

end KernelPoller

end Pirewall
