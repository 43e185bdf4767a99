/-
# Pirewall.Lib.Toml.Document -- what the statements of a TOML text make

`loads` carries out one statement after the other: a header makes its table and the pairs below it go there. What a
statement does to the document is an operation at a path; `Flags` only say which statements are refused.

The operations at one key are independent of those at another (`runAt_entry`): what a document has under a key is
what the operations below that key make of it. A text that differs in the operations of a few keys is a document
that differs there.
-/
import Pirewall.Lib.Toml.Syntax

namespace Pirewall.Lib.Toml

variable {φ : Type}

/-! ## Operations at a path -/

/-- What is done at the end of a path. -/
inductive Act (φ : Type) where
  | enter
  | put (v : Value φ)
  | push

/-- `get_or_create_nest` of a header, `nest[key_stem] = value` of a pair, `append_nest_to_list`. -/
def Act.apply : Act φ → Option (Value φ) → Option (Value φ)
  | .enter, none => some (.table [])
  | .enter, some (.table t) => some (.table t)
  | .enter, some (.array items) => match items.getLast? with
      | some (.table _) => some (.array items)
      | _ => none
  | .put v, value => putNew v value
  | .push, none => some (.array [.table []])
  | .push, some (.array items) => some (.array (items ++ [.table []]))
  | _, _ => none

/-- An operation: where, and what. -/
abbrev Op (φ : Type) := Path × Act φ

/-- Carry out an operation on what is there. -/
def Op.apply (op : Op φ) (value : Option (Value φ)) : Option (Value φ) := setAt true op.1 op.2.apply value

/-! ## Flags -/

/-- `Flags`: the namespaces that cannot be opened again, those waiting to be so, and the immutable ones. -/
structure Flags where
  explicit : List Path
  pending : List Path
  frozen : List Path

namespace Flags

/-- `is_(key, EXPLICIT_NEST)`. -/
def isExplicit (flags : Flags) (path : Path) : Bool := flags.explicit.contains path

/-- `is_(key, FROZEN)`. -/
def isFrozen (flags : Flags) (path : Path) : Bool := path ≠ [] && Toml.frozen flags.frozen path

/-- `finalize_pending`. -/
def finalizePending (flags : Flags) : Flags :=
  { flags with explicit := flags.pending ++ flags.explicit, pending := [] }

/-- `unset_all`: of the namespace and of those in it. -/
def unsetAll (flags : Flags) (path : Path) : Flags :=
  { flags with
    explicit := flags.explicit.filter fun space => !path.isPrefixOf space
    frozen := flags.frozen.filter fun space => !path.isPrefixOf space }

end Flags

/-! ## Documents -/

/-- `out` and `header` of `loads`. -/
structure Output (φ : Type) where
  data : Value φ
  flags : Flags
  header : Path

/-- The containers a dotted key names below the header. -/
def containers (header path : Path) : List Path := (path.dropLast.inits.drop 1).map (header ++ ·)

/-- One statement. -/
def Output.step (out : Output φ) : Statement φ → Option (Output φ)
  | .table path =>
    let flags := out.flags.finalizePending
    if flags.isExplicit path || flags.isFrozen path then none
    else (Op.apply (path, .enter) (some out.data)).map fun data =>
      ⟨data, { flags with explicit := path :: flags.explicit }, path⟩
  | .arrayTable path =>
    let flags := out.flags.finalizePending
    if flags.isFrozen path then none
    else
      let flags := flags.unsetAll path
      (Op.apply (path, .push) (some out.data)).map fun data =>
        ⟨data, { flags with explicit := path :: flags.explicit }, path⟩
  | .pair path v =>
    let flags := out.flags
    if (containers out.header path).any flags.isExplicit || flags.isFrozen (out.header ++ path.dropLast) then none
    else (Op.apply (out.header ++ path, .put v) (some out.data)).map fun data =>
      ⟨data, { flags with
        pending := containers out.header path ++ flags.pending
        frozen := if v.isNest then (out.header ++ path) :: flags.frozen else flags.frozen }, out.header⟩

def Output.start : Output φ := ⟨.table [], ⟨[], [], []⟩, []⟩

variable (parseFloat : List Char → Option φ)

/-- `tomllib.loads`. -/
def loads (text : List Char) : Option (Entries φ) :=
  (statements parseFloat text).bind fun sts => (sts.foldlM Output.step Output.start).bind fun out =>
    match out.data with
    | .table t => some t
    | _ => none

/-! ## The operations of a text -/

/-- The operations of statements that follow `header`. -/
def opsFrom (header : Path) : List (Statement φ) → List (Op φ)
  | [] => []
  | .table path :: rest => (path, .enter) :: opsFrom path rest
  | .arrayTable path :: rest => (path, .push) :: opsFrom path rest
  | .pair path v :: rest => (header ++ path, .put v) :: opsFrom header rest

/-- The header that holds after the statements. -/
def headerAfter (header : Path) : List (Statement φ) → Path
  | [] => header
  | .table path :: rest => headerAfter path rest
  | .arrayTable path :: rest => headerAfter path rest
  | .pair _ _ :: rest => headerAfter header rest

theorem opsFrom_append (header : Path) (sts sts' : List (Statement φ)) :
    opsFrom header (sts ++ sts') = opsFrom header sts ++ opsFrom (headerAfter header sts) sts' := by
  induction sts generalizing header with
  | nil => rfl
  | cons st sts ih => cases st <;> simp [opsFrom, headerAfter, ih]

/-- Operations one after the other. -/
def runAt : List (Op φ) → Option (Value φ) → Option (Option (Value φ))
  | [], value => some value
  | op :: ops, value => (op.apply value).bind fun v => runAt ops (some v)

/-- The operations of one statement. -/
theorem Output.step_data {out out' : Output φ} {st : Statement φ} (h : out.step st = some out') :
    runAt (opsFrom out.header [st]) (some out.data) = some (some out'.data) ∧
      out'.header = headerAfter out.header [st] := by
  cases st with
  | table path =>
    simp only [Output.step] at h
    split at h
    · cases h
    · obtain ⟨data, hdata, rfl⟩ := Option.map_eq_some_iff.mp h
      exact ⟨by simp [opsFrom, runAt, hdata], rfl⟩
  | arrayTable path =>
    simp only [Output.step] at h
    split at h
    · cases h
    · obtain ⟨data, hdata, rfl⟩ := Option.map_eq_some_iff.mp h
      exact ⟨by simp [opsFrom, runAt, hdata], rfl⟩
  | pair path v =>
    simp only [Output.step] at h
    split at h
    · cases h
    · obtain ⟨data, hdata, rfl⟩ := Option.map_eq_some_iff.mp h
      exact ⟨by simp [opsFrom, runAt, hdata], rfl⟩

theorem runAt_append (ops ops' : List (Op φ)) (value : Option (Value φ)) :
    runAt (ops ++ ops') value = (runAt ops value).bind (runAt ops') := by
  induction ops generalizing value with
  | nil => rfl
  | cons op ops ih =>
    rw [List.cons_append, runAt, runAt, Option.bind_assoc]
    exact congrArg _ (funext fun v => ih (some v))

theorem Output.run_data {sts : List (Statement φ)} {out out' : Output φ} (h : sts.foldlM Output.step out = some out') :
    runAt (opsFrom out.header sts) (some out.data) = some (some out'.data) := by
  induction sts generalizing out with
  | nil =>
    cases h
    rfl
  | cons st sts ih =>
    rw [List.foldlM_cons] at h
    obtain ⟨mid, hstep, hrest⟩ := Option.bind_eq_some_iff.mp h
    obtain ⟨hdata, hheader⟩ := Output.step_data hstep
    have hops : opsFrom out.header (st :: sts) = opsFrom out.header [st] ++ opsFrom mid.header sts := by
      rw [hheader]
      exact opsFrom_append out.header [st] sts
    rw [hops, runAt_append, hdata]
    exact ih hrest

theorem loads_run {parseFloat : List Char → Option φ} {text : List Char} {t : Entries φ}
    (h : loads parseFloat text = some t) :
    ∃ sts, statements parseFloat text = some sts ∧
      runAt (opsFrom [] sts) (some (.table [])) = some (some (.table t)) := by
  obtain ⟨sts, hsts, h⟩ := Option.bind_eq_some_iff.mp h
  obtain ⟨out, hout, h⟩ := Option.bind_eq_some_iff.mp h
  refine ⟨sts, hsts, ?_⟩
  have hrun := Output.run_data hout
  split at h
  · rename_i t' hdata
    cases h
    rw [hdata] at hrun
    exact hrun
  · cases h

/-! ## What is under a key -/

/-- What a value has under a key. -/
def entry (value : Option (Value φ)) (k : String) : Option (Value φ) :=
  match value with
  | some (.table t) => t.lookup k
  | _ => none

/-- What an operation does under a key. -/
def Op.below (k : String) : Op φ → Option (Op φ)
  | (key :: path, act) => if key = k then some (path, act) else none
  | ([], .put (.table t)) => (t.lookup k).map fun v => ([], .put v)
  | ([], _) => none

def below (k : String) (ops : List (Op φ)) : List (Op φ) := ops.filterMap (Op.below k)

/-- A table, or nothing yet. -/
def IsOpen : Option (Value φ) → Prop
  | none => True
  | some (.table _) => True
  | _ => False

/-- A value that is no table never becomes one. -/
theorem Op.apply_table {op : Op φ} {v : Value φ} {t : Entries φ} (h : op.apply (some v) = some (.table t)) :
    ∃ t', v = .table t' := by
  obtain ⟨path, act⟩ := op
  cases v with
  | table t' => exact ⟨t', rfl⟩
  | array items =>
    exfalso
    cases path with
    | nil =>
      cases act with
      | enter =>
        simp only [Op.apply, setAt, Act.apply] at h
        split at h <;> simp at h
      | put v => simp [Op.apply, setAt, Act.apply, putNew] at h
      | push => simp [Op.apply, setAt, Act.apply] at h
    | cons key path =>
      simp only [Op.apply, setAt, if_true] at h
      split at h
      · obtain ⟨v, -, hv⟩ := Option.map_eq_some_iff.mp h
        cases hv
      · cases h
  | _ =>
    cases path with
    | nil => cases act <;> simp [Op.apply, setAt, Act.apply, putNew] at h
    | cons key path => simp [Op.apply, setAt] at h

theorem runAt_table {ops : List (Op φ)} {v : Value φ} {t : Entries φ}
    (h : runAt ops (some v) = some (some (.table t))) : ∃ t', v = .table t' := by
  induction ops generalizing v with
  | nil =>
    cases h
    exact ⟨t, rfl⟩
  | cons op ops ih =>
    rw [runAt] at h
    obtain ⟨w, hop, h⟩ := Option.bind_eq_some_iff.mp h
    obtain ⟨t', rfl⟩ := ih h
    exact Op.apply_table hop

/-- One operation, seen under a key. -/
theorem Op.apply_below {op : Op φ} {value : Option (Value φ)} {t : Entries φ} (hopen : IsOpen value)
    (h : op.apply value = some (.table t)) (k : String) :
    runAt (op.below k).toList (entry value k) = some (t.lookup k) := by
  obtain ⟨path, act⟩ := op
  cases path with
  | nil =>
    cases act with
    | enter =>
      cases value with
      | none =>
        cases h
        rfl
      | some v =>
        obtain ⟨t', rfl⟩ := Op.apply_table h
        cases h
        rfl
    | put v =>
      cases value with
      | none =>
        cases h
        cases hlookup : t.lookup k with
        | none => simp [Op.below, hlookup, runAt, entry]
        | some w => simp [Op.below, hlookup, runAt, entry, Op.apply, setAt, Act.apply, putNew]
      | some w => simp [Op.apply, setAt, Act.apply, putNew] at h
    | push =>
      cases value with
      | none => simp [Op.apply, setAt, Act.apply] at h
      | some v =>
        obtain ⟨t', rfl⟩ := Op.apply_table h
        simp [Op.apply, setAt, Act.apply] at h
  | cons key path =>
    have hset : ∃ v, Op.apply (path, act) (entry value key) = some v ∧
        ∀ k', t.lookup k' = if k' = key then some v else entry value k' := by
      cases value with
      | none =>
        obtain ⟨v, hv, hx⟩ := Option.map_eq_some_iff.mp h
        cases hx
        refine ⟨v, hv, fun k' => ?_⟩
        by_cases hk : k' = key
        · simp [hk]
        · simp [List.lookup_cons, beq_false_of_ne hk, hk, entry]
      | some w =>
        obtain ⟨t', rfl⟩ := Op.apply_table h
        obtain ⟨v, hv, hx⟩ := Option.map_eq_some_iff.mp h
        cases hx
        exact ⟨v, hv, fun k' => Dict.lookup_setEntries t' key k' v⟩
    obtain ⟨v, hv, hlookup⟩ := hset
    rw [hlookup, Op.below]
    by_cases hk : key = k
    · subst hk
      simp [runAt, hv]
    · simp [hk, Ne.symm hk, runAt]

/-- **What is under a key is what the operations under it make.** -/
theorem runAt_below {ops : List (Op φ)} {value : Option (Value φ)} {t : Entries φ} (hopen : IsOpen value)
    (h : runAt ops value = some (some (.table t))) (k : String) :
    runAt (below k ops) (entry value k) = some (t.lookup k) := by
  induction ops generalizing value with
  | nil =>
    cases h
    rfl
  | cons op ops ih =>
    rw [runAt] at h
    obtain ⟨w, hop, h⟩ := Option.bind_eq_some_iff.mp h
    obtain ⟨t', rfl⟩ := runAt_table h
    have hhead : below k (op :: ops) = (op.below k).toList ++ below k ops := by
      rw [below, List.filterMap_cons]
      cases op.below k <;> rfl
    have hopen' : IsOpen (some (Value.table t')) := trivial
    rw [hhead, runAt_append, Op.apply_below hopen hop]
    exact ih hopen' h

/-! ## What keys and headers make -/

/-- A table, or an array that ends in one. -/
def Nested : Value φ → Prop
  | .table _ => True
  | .array items => ∃ t, items.getLast? = some (.table t)
  | _ => False

theorem setAt_nested {k : String} {path : Path} {f : Option (Value φ) → Option (Value φ)} {value : Option (Value φ)}
    {v : Value φ} (h : setAt true (k :: path) f value = some v) : Nested v := by
  cases value with
  | none =>
    obtain ⟨w, -, rfl⟩ := Option.map_eq_some_iff.mp h
    trivial
  | some value =>
    cases value with
    | table t =>
      obtain ⟨w, -, rfl⟩ := Option.map_eq_some_iff.mp h
      trivial
    | array items =>
      rw [setAt, if_pos rfl] at h
      split at h
      · obtain ⟨w, -, rfl⟩ := Option.map_eq_some_iff.mp h
        exact ⟨_, List.getLast?_concat⟩
      · cases h
    | _ => cases h

theorem Act.apply_nested {act : Act φ} {v w : Value φ} (h : act.apply (some v) = some w) : Nested w := by
  cases act with
  | put x => cases h
  | enter =>
    cases v with
    | table t =>
      cases h
      trivial
    | array items =>
      simp only [Act.apply] at h
      split at h
      · rename_i t hlast
        cases h
        exact ⟨t, hlast⟩
      · cases h
    | _ => cases h
  | push =>
    cases v with
    | array items =>
      cases h
      exact ⟨[], List.getLast?_concat⟩
    | _ => cases h

/-- What is there already stays or becomes nested. -/
theorem Op.apply_nested {op : Op φ} {v w : Value φ} (h : op.apply (some v) = some w) : Nested w := by
  obtain ⟨path, act⟩ := op
  cases path with
  | nil => exact Act.apply_nested h
  | cons k path => exact setAt_nested h

/-- The first operation puts a value, or makes a nested one. -/
theorem Op.apply_none {op : Op φ} {w : Value φ} (h : op.apply none = some w) : op = ([], .put w) ∨ Nested w := by
  obtain ⟨path, act⟩ := op
  cases path with
  | cons k path => exact .inr (setAt_nested h)
  | nil =>
    cases act with
    | put x =>
      cases h
      exact .inl rfl
    | enter =>
      cases h
      exact .inr trivial
    | push =>
      cases h
      exact .inr ⟨[], rfl⟩

theorem nested_of_runAt {ops : List (Op φ)} {v w : Value φ} (h : runAt ops (some v) = some (some w)) :
    w = v ∨ Nested w := by
  induction ops generalizing v with
  | nil =>
    cases h
    exact .inl rfl
  | cons op ops ih =>
    rw [runAt] at h
    obtain ⟨x, hop, h⟩ := Option.bind_eq_some_iff.mp h
    rcases ih h with rfl | hnested
    · exact .inr (Op.apply_nested hop)
    · exact .inr hnested

/-- **A value that is not nested has been put there.** -/
theorem put_of_runAt {ops : List (Op φ)} {w : Value φ} (h : runAt ops none = some (some w)) (hw : ¬Nested w) :
    ([], .put w) ∈ ops := by
  cases ops with
  | nil => cases h
  | cons op ops =>
    rw [runAt] at h
    obtain ⟨x, hop, h⟩ := Option.bind_eq_some_iff.mp h
    obtain rfl := (nested_of_runAt h).resolve_right hw
    obtain rfl := (Op.apply_none hop).resolve_right hw
    exact List.mem_cons_self

/-- What a document has under two keys has been put there, if it is not nested. -/
theorem put_of_loads {parseFloat : List Char → Option φ} {text : List Char} {raw t : Entries φ} {name k : String}
    {v : Value φ} (h : loads parseFloat text = some raw) (ht : raw.lookup name = some (.table t))
    (hv : t.lookup k = some v) (hnested : ¬Nested v) :
    ∃ sts, statements parseFloat text = some sts ∧ ([], .put v) ∈ below k (below name (opsFrom [] sts)) := by
  obtain ⟨sts, hsts, hrun⟩ := loads_run h
  refine ⟨sts, hsts, put_of_runAt ?_ hnested⟩
  have hempty : IsOpen (some (Value.table ([] : Entries φ))) := trivial
  have hnone : IsOpen (none : Option (Value φ)) := trivial
  have hname : runAt (below name (opsFrom [] sts)) none = some (some (.table t)) := by
    rw [← ht]
    exact runAt_below hempty hrun name
  rw [← hv]
  exact runAt_below hnone hname k

end Pirewall.Lib.Toml
