/-
# Pirewall.Policy.Table -- the policy table and its loader

`policy/table.toml` is data that a reviewer edits, and `load_policy_table` refuses a file that would break a
ceiling. A `PolicyRow` and a `PolicyTable` carry what the loader checked as fields, so a table that lets
anomaly evidence do more than MONITOR cannot be built. `shippedTable` is the file as it stands.
-/
import Pirewall.Policy.Evidence

namespace Pirewall

open Lib

/-! ## Rows -/

/-- The row keys: what kind of evidence a device's bundle holds. -/
inductive EvidenceClass where
  | kObserve | kEnforcePending | kEnforceSustained | d1High | d1Standard | d1Escalated | mlOnly | mlWithD1
  deriving DecidableEq, Repr

namespace EvidenceClass

def value : EvidenceClass → String
  | .kObserve => "k_observe"
  | .kEnforcePending => "k_enforce_pending"
  | .kEnforceSustained => "k_enforce_sustained"
  | .d1High => "d1_high"
  | .d1Standard => "d1_standard"
  | .d1Escalated => "d1_escalated"
  | .mlOnly => "ml_only"
  | .mlWithD1 => "ml_with_d1"

/-- `set(EvidenceClass)`. -/
def all : List EvidenceClass :=
  [.kObserve, .kEnforcePending, .kEnforceSustained, .d1High, .d1Standard, .d1Escalated, .mlOnly, .mlWithD1]

theorem mem_all (c : EvidenceClass) : c ∈ all := by cases c <;> decide

/-- `EvidenceClass(text)`. -/
def ofValue? (text : String) : Option EvidenceClass := all.find? fun c => c.value == text

/-- `MONITOR_CEILING_CLASSES`. -/
def monitorCeiling : EvidenceClass → Bool
  | .mlOnly | .kObserve | .kEnforcePending => true
  | _ => false

end EvidenceClass

/-- What one cell may say. -/
inductive TableAction where
  | log | monitor | rateLimit | block | blockApproval
  deriving DecidableEq, Repr

def TableAction.ofValue? : String → Option TableAction
  | "log" => some .log
  | "monitor" => some .monitor
  | "rate_limit" => some .rateLimit
  | "block" => some .block
  | "block_approval" => some .blockApproval
  | _ => none

/-- One evidence class's actions for each mode, as `_check_cells` lets it stand. -/
structure PolicyRow where
  evidence : EvidenceClass
  shadow : List TableAction
  assisted : List TableAction
  active : List TableAction
  escalate : Bool
  assisted_nonempty : assisted ≠ []
  active_nonempty : active ≠ []
  shadow_logs : shadow = [.log]
  no_log : .log ∉ assisted ∧ .log ∉ active
  ceiling : evidence.monitorCeiling = true → ∀ action ∈ assisted ++ active, action = .monitor
  no_approval_in_active : .blockApproval ∉ active

/-- `cell`: SHADOW reads the ACTIVE column. -/
def PolicyRow.cell (row : PolicyRow) : EnforcementMode → List TableAction
  | .assisted => row.assisted
  | .shadow | .active => row.active

theorem PolicyRow.mem_cell {row : PolicyRow} {mode : EnforcementMode} {action : TableAction}
    (h : action ∈ row.cell mode) : action ∈ row.assisted ++ row.active := by
  cases mode with
  | shadow => exact List.mem_append_right _ h
  | assisted => exact List.mem_append_left _ h
  | active => exact List.mem_append_right _ h

/-! ## Tables -/

/-- A table that `load_policy_table` accepts: a row for every class, filed under its own, and two disjoint
tiers of detectors. -/
structure PolicyTable where
  high : List D1Detector
  standard : List D1Detector
  rows : Dict EvidenceClass PolicyRow
  complete : ∀ c, (rows.get? c).isSome = true
  filed : ∀ c row, rows.get? c = some row → row.evidence = c
  disjoint_tiers : ∀ d ∈ high, d ∉ standard

namespace PolicyTable

/-- `rows[evidence_class]`. -/
def row (t : PolicyTable) (c : EvidenceClass) : PolicyRow := (t.rows.get? c).get (t.complete c)

theorem row_evidence (t : PolicyTable) (c : EvidenceClass) : (t.row c).evidence = c :=
  t.filed c _ (Option.some_get _).symm

/-- The detectors of either tier. -/
def acting (t : PolicyTable) (d : D1Detector) : Bool := t.high.contains d || t.standard.contains d

end PolicyTable

/-! ## The loader -/

/-- A `[[row]]` of the file, read by the TOML parser. -/
structure RawRow where
  evidence : String
  shadow : List String
  assisted : List String
  active : List String
  escalate : Bool

/-- The file, read by the TOML parser. -/
structure RawTable where
  version : Int
  high : List String
  standard : List String
  rows : List RawRow

/-- `D1Detector(text)`. -/
def D1Detector.ofValue? (text : String) : Option D1Detector :=
  [.verticalScan, .horizontalScan, .failedHandshake, .bruteForce, .slowRateDos, .fanIn, .newMacRate,
    .newLeaseRate, .portalAuthFailures].find? fun d : D1Detector => d.value == text

/-- Why a table is refused. -/
inductive TableError where
  /-- A text that names no action, class or detector. -/
  | unknownName (text : String)
  /-- `Field(min_length=1)` of a column. -/
  | emptyColumn (evidence : EvidenceClass)
  /-- The message of a `ValueError`. -/
  | refused (message : String)
  deriving DecidableEq, Repr

/-- A text as a member of an enumeration. -/
def named {α : Type} (ofValue? : String → Option α) (text : String) : Except TableError α :=
  match ofValue? text with
  | some a => .ok a
  | none => .error (.unknownName text)

/-- `PolicyRow.model_validate`: the columns, then the checks of `_check_cells` in their order. -/
def PolicyRow.validate (raw : RawRow) : Except TableError PolicyRow := do
  let evidence ← named EvidenceClass.ofValue? raw.evidence
  let shadow ← raw.shadow.mapM (named TableAction.ofValue?)
  let assisted ← raw.assisted.mapM (named TableAction.ofValue?)
  let active ← raw.active.mapM (named TableAction.ofValue?)
  if shadow = [] then .error (.emptyColumn evidence)
  else if hassisted : assisted = [] then .error (.emptyColumn evidence)
  else if hactive : active = [] then .error (.emptyColumn evidence)
  else if hshadow : shadow ≠ [.log] then
    .error (.refused (evidence.value ++ ": the SHADOW column is always [\"log\"] (A1)"))
  else if hlog : .log ∈ assisted ∨ .log ∈ active then
    .error (.refused (evidence.value ++ ": \"log\" belongs to the SHADOW column only"))
  else if hceiling : evidence.monitorCeiling = true ∧ ∃ action ∈ assisted ++ active, action ≠ .monitor then
    .error (.refused (evidence.value ++ ": D4 caps this evidence at MONITOR"))
  else if happroval : .blockApproval ∈ active then
    .error (.refused (evidence.value ++ ": the approval queue is ASSISTED's (A7)"))
  else
    .ok
      { evidence, shadow, assisted, active
        escalate := raw.escalate
        assisted_nonempty := hassisted
        active_nonempty := hactive
        shadow_logs := by simpa using hshadow
        no_log := not_or.mp hlog
        ceiling := fun hcapped action hmem => by
          by_contra hother
          exact hceiling ⟨hcapped, action, hmem, hother⟩
        no_approval_in_active := happroval }

/-- `{row.evidence: row for row in rows}`. -/
def byClass (rows : List PolicyRow) : Dict EvidenceClass PolicyRow :=
  rows.foldl (fun filed row => filed.set row.evidence row) Dict.empty

theorem byClass_filed (rows : List PolicyRow) {c : EvidenceClass} {row : PolicyRow}
    (h : (byClass rows).get? c = some row) : row.evidence = c := by
  have hfold : ∀ (rows : List PolicyRow) (filed : Dict EvidenceClass PolicyRow),
      (∀ c row, filed.get? c = some row → row.evidence = c) →
      ∀ c row, (rows.foldl (fun filed row => filed.set row.evidence row) filed).get? c = some row →
        row.evidence = c := by
    intro rows
    induction rows with
    | nil => exact fun _ hfiled => hfiled
    | cons first rest ih =>
      intro filed hfiled
      refine ih _ fun c row hrow => ?_
      rw [Dict.get?_set] at hrow
      split at hrow
      · rename_i heq
        exact (Option.some.inj hrow) ▸ heq.symm
      · exact hfiled c row hrow
  exact hfold rows Dict.empty (fun _ _ hnone => absurd hnone (by simp)) c row h

/-- The classes without a row, as the message lists them. -/
def missingRows (rows : Dict EvidenceClass PolicyRow) : List String :=
  ((EvidenceClass.all.filter fun c => (rows.get? c).isNone).map EvidenceClass.value).mergeSort fun a b =>
    decide (a ≤ b)

/-- `load_policy_table`, from the parsed file on. -/
def loadPolicyTable (raw : RawTable) : Except TableError PolicyTable := do
  let rows ← raw.rows.mapM PolicyRow.validate
  if (byClass rows).size ≠ rows.length then .error (.refused "policy table has a duplicate row")
  else
    let high ← raw.high.mapM (named D1Detector.ofValue?)
    let standard ← raw.standard.mapM (named D1Detector.ofValue?)
    if raw.version ≠ 1 then
      .error (.refused ("unsupported policy table version " ++ toString raw.version))
    else if hcomplete : ∃ c ∈ EvidenceClass.all, ((byClass rows).get? c).isNone = true then
      .error (.refused ("policy table lacks rows for ['" ++ "', '".intercalate (missingRows (byClass rows)) ++ "']"))
    else if hdisjoint : ∃ d ∈ high, d ∈ standard then
      .error (.refused "a D1 detector cannot be both high and standard certainty")
    else
      .ok
        { high, standard
          rows := byClass rows
          complete := fun c => by
            by_contra hnone
            exact hcomplete ⟨c, EvidenceClass.mem_all c, by simpa using hnone⟩
          filed := fun _ _ h => byClass_filed rows h
          disjoint_tiers := fun d hhigh hstandard => hdisjoint ⟨d, hhigh, hstandard⟩ }

/-! ## The shipped table -/

/-- `policy/table.toml`, read by the TOML parser. -/
def tableToml : RawTable where
  version := 1
  high := ["vertical_scan", "horizontal_scan", "brute_force"]
  standard := ["failed_handshake", "slow_rate_dos", "portal_auth_failures"]
  rows :=
    [⟨"k_observe", ["log"], ["monitor"], ["monitor"], false⟩,
     ⟨"k_enforce_pending", ["log"], ["monitor"], ["monitor"], false⟩,
     ⟨"k_enforce_sustained", ["log"], ["rate_limit"], ["rate_limit"], false⟩,
     ⟨"d1_high", ["log"], ["rate_limit", "block_approval"], ["block"], false⟩,
     ⟨"d1_standard", ["log"], ["rate_limit"], ["rate_limit"], false⟩,
     ⟨"d1_escalated", ["log"], ["block_approval"], ["block"], true⟩,
     ⟨"ml_only", ["log"], ["monitor"], ["monitor"], false⟩,
     ⟨"ml_with_d1", ["log"], ["rate_limit"], ["rate_limit"], false⟩]

theorem tableToml_loads : (loadPolicyTable tableToml).toOption.isSome = true := by decide +kernel

/-- The table in force unless the operator edits the file. -/
def shippedTable : PolicyTable := (loadPolicyTable tableToml).toOption.get tableToml_loads

/-- The columns the shipped file gives a class: assisted, active and whether it escalates. -/
def shippedCells : EvidenceClass → List TableAction × List TableAction × Bool
  | .kObserve | .kEnforcePending | .mlOnly => ([.monitor], [.monitor], false)
  | .kEnforceSustained | .d1Standard | .mlWithD1 => ([.rateLimit], [.rateLimit], false)
  | .d1High => ([.rateLimit, .blockApproval], [.block], false)
  | .d1Escalated => ([.blockApproval], [.block], true)

theorem shippedTable_row (c : EvidenceClass) :
    ((shippedTable.row c).assisted, (shippedTable.row c).active, (shippedTable.row c).escalate) =
      shippedCells c := by
  cases c <;> decide +kernel

end Pirewall
