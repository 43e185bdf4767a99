/-
# Pirewall.Lib.Toml.Flat -- documents of flat tables

The simplest documents: keys at the top, then tables and arrays of tables at the top, each with undotted keys. Under
one header the pairs go to the end of its table, in their order, if no key comes twice (`run_pairs`). So the
statements of such a file make the document with its pairs, tables and arrays in the order of the text.

The rules of the format that a flat document never meets are about keys of keys: a table that is defined twice, a key
that goes through a value, a table that an inline one has closed. What is needed of them is that no flag stands in the
way of a key at the top (`Flags.Deep`), which every statement of this kind keeps.
-/
import Pirewall.Lib.Toml.Document

namespace Pirewall.Lib.Toml

variable {φ : Type}

/-! ## Flags -/

/-- Nothing at the top is immutable: what is, is below a key of it. -/
def Flags.Deep (flags : Flags) : Prop := ∀ space ∈ flags.frozen, 2 ≤ space.length

/-- A key at the top is not frozen. -/
theorem Flags.Deep.isFrozen {flags : Flags} (h : flags.Deep) (name : String) : flags.isFrozen [name] = false := by
  have hspace : Toml.frozen flags.frozen [name] = false := by
    rw [Toml.frozen, List.any_eq_false]
    intro space hspace hpre
    have hlen := (List.isPrefixOf_iff_prefix.mp hpre).length_le
    have := h space hspace
    simp only [List.length_singleton] at hlen
    omega
  rw [Flags.isFrozen, hspace, Bool.and_false]

theorem Flags.Deep.finalizePending {flags : Flags} (h : flags.Deep) : flags.finalizePending.Deep := h

theorem Flags.Deep.unsetAll {flags : Flags} (h : flags.Deep) (path : Path) : (flags.unsetAll path).Deep :=
  fun space hspace => h space (List.mem_of_mem_filter hspace)

/-! ## The last entry -/

section Last

variable {pre : Entries φ} {name : String}

theorem lookup_last (hpre : name ∉ pre.map Prod.fst) (v : Value φ) : (pre ++ [(name, v)]).lookup name = some v := by
  have hnone : pre.lookup name = none := List.lookup_eq_none_iff.mpr fun e he => by
    simpa using fun heq => hpre (List.mem_map.mpr ⟨e, he, heq.symm⟩)
  simp [List.lookup_append, hnone]

theorem lookup_new (hpre : name ∉ pre.map Prod.fst) : pre.lookup name = none :=
  List.lookup_eq_none_iff.mpr fun e he => by
    simpa using fun heq => hpre (List.mem_map.mpr ⟨e, he, heq.symm⟩)

theorem setEntries_new (hpre : name ∉ pre.map Prod.fst) (v : Value φ) :
    Dict.setEntries pre name v = pre ++ [(name, v)] := by
  rw [Dict.setEntries, if_neg hpre]

/-- Setting the last key again changes the last entry. -/
theorem setEntries_last (hpre : name ∉ pre.map Prod.fst) (v w : Value φ) :
    Dict.setEntries (pre ++ [(name, v)]) name w = pre ++ [(name, w)] := by
  have hothers : ∀ e ∈ pre, (if e.1 = name then (name, w) else e) = e := fun e he =>
    if_neg fun heq => hpre (List.mem_map.mpr ⟨e, he, heq⟩)
  rw [Dict.setEntries, if_pos (by simp), List.map_append, List.map_congr_left hothers]
  simp

end Last

/-! ## Pairs under a header -/

/-- A value that stands for a table: the table, or an array that ends in it. -/
def Nests (nest : Entries φ → Value φ) : Prop :=
  ∀ t k v, t.lookup k = none → setAt true [k] (putNew v) (some (nest t)) = some (nest (Dict.setEntries t k v))

/-- A table stands for itself. -/
theorem nests_table : Nests (φ := φ) .table := by
  intro t k v hk
  rw [setAt, hk]
  rfl

/-- An array stands for its last table. -/
theorem nests_array (items : List (Value φ)) : Nests fun t => .array (items ++ [.table t]) := by
  intro t k v hk
  simp only [setAt, if_true, List.getLast?_concat, hk, List.dropLast_concat]
  rfl

/-- One pair under a header. -/
theorem step_pair {pre : Entries φ} {name key : String} {nest : Entries φ → Value φ} (hnest : Nests nest)
    (hpre : name ∉ pre.map Prod.fst) {t : Entries φ} (hkey : key ∉ t.map Prod.fst) (v : Value φ) {flags : Flags}
    (hflags : flags.Deep) :
    ∃ flags' : Flags, Output.step ⟨.table (pre ++ [(name, nest t)]), flags, [name]⟩ (.pair [key] v) =
        some ⟨.table (pre ++ [(name, nest (t ++ [(key, v)]))]), flags', [name]⟩ ∧
      flags'.Deep ∧ flags'.pending = flags.pending := by
  have hdata : Op.apply ([name] ++ [key], .put v) (some (.table (pre ++ [(name, nest t)]))) =
      some (.table (pre ++ [(name, nest (t ++ [(key, v)]))])) := by
    change (setAt true [key] (putNew v) ((pre ++ [(name, nest t)]).lookup name)).map _ = _
    rw [lookup_last hpre, hnest t key v (lookup_new hkey), Option.map_some, setEntries_last hpre, setEntries_new hkey]
  have hopen : ((containers [name] [key]).any flags.isExplicit || flags.isFrozen ([name] ++ [key].dropLast)) = false :=
    hflags.isFrozen name
  refine ⟨{ flags with frozen := if v.isNest then [name, key] :: flags.frozen else flags.frozen }, ?_, ?_, rfl⟩
  · simp only [Output.step]
    rw [if_neg (by rw [hopen]; decide), hdata]
    rfl
  · intro space hspace
    dsimp only at hspace
    split at hspace
    · rcases List.mem_cons.mp hspace with rfl | hspace
      · exact le_refl 2
      · exact hflags space hspace
    · exact hflags space hspace

/-- The statements of pairs. -/
def pairs (ps : Entries φ) : List (Statement φ) := ps.map fun e => .pair [e.1] e.2

/-- **The pairs under a header go to the end of its table.** -/
theorem run_pairs {pre : Entries φ} {name : String} {nest : Entries φ → Value φ} (hnest : Nests nest)
    (hpre : name ∉ pre.map Prod.fst) {t ps : Entries φ} (hkeys : ((t ++ ps).map Prod.fst).Nodup) {flags : Flags}
    (hflags : flags.Deep) :
    ∃ flags' : Flags, (pairs ps).foldlM Output.step ⟨.table (pre ++ [(name, nest t)]), flags, [name]⟩ =
        some ⟨.table (pre ++ [(name, nest (t ++ ps))]), flags', [name]⟩ ∧
      flags'.Deep ∧ flags'.pending = flags.pending := by
  induction ps generalizing t flags with
  | nil => exact ⟨flags, by rw [List.append_nil]; rfl, hflags, rfl⟩
  | cons e ps ih =>
    have hkey : e.1 ∉ t.map Prod.fst := by
      rw [List.map_append, List.map_cons, List.nodup_append] at hkeys
      exact fun hmem => hkeys.2.2 e.1 hmem e.1 List.mem_cons_self rfl
    obtain ⟨mid, hstep, hmid, hpending⟩ := step_pair hnest hpre hkey e.2 hflags
    have hsplit : t ++ e :: ps = t ++ [(e.1, e.2)] ++ ps := by simp
    obtain ⟨flags', hrun, hdeep, hpending'⟩ := ih (by rwa [← hsplit]) hmid
    refine ⟨flags', ?_, hdeep, hpending'.trans hpending⟩
    rw [hsplit, pairs, List.map_cons, List.foldlM_cons, hstep]
    exact hrun

/-! ## Headers -/

/-- The header of a new table. -/
theorem step_table {t : Entries φ} {name : String} (hname : name ∉ t.map Prod.fst) {flags : Flags}
    (hflags : flags.Deep) (hexplicit : flags.finalizePending.isExplicit [name] = false) (header : Path) :
    ∃ flags' : Flags, Output.step ⟨.table t, flags, header⟩ (.table [name]) =
        some ⟨.table (t ++ [(name, .table [])]), flags', [name]⟩ ∧ flags'.Deep := by
  have hdata : Op.apply ([name], .enter) (some (.table t)) = some (.table (t ++ [(name, .table [])])) := by
    change (Act.apply .enter (t.lookup name)).map _ = _
    rw [lookup_new hname, Act.apply, Option.map_some, setEntries_new hname]
  refine ⟨{ flags.finalizePending with explicit := [name] :: flags.finalizePending.explicit }, ?_, hflags⟩
  simp only [Output.step]
  rw [if_neg (by rw [hexplicit, hflags.finalizePending.isFrozen]; decide), hdata]
  rfl

/-- The header of an array's next table. -/
theorem step_arrayTable {pre : Entries φ} {name : String} (hpre : name ∉ pre.map Prod.fst) (items : List (Value φ))
    {flags : Flags} (hflags : flags.Deep) (header : Path) :
    ∃ flags' : Flags, Output.step ⟨.table (pre ++ [(name, .array items)]), flags, header⟩ (.arrayTable [name]) =
        some ⟨.table (pre ++ [(name, .array (items ++ [Value.table []]))]), flags', [name]⟩ ∧ flags'.Deep := by
  have hdata : Op.apply ([name], .push) (some (.table (pre ++ [(name, .array items)]))) =
      some (.table (pre ++ [(name, .array (items ++ [Value.table []]))])) := by
    change (Act.apply .push ((pre ++ [(name, Value.array items)]).lookup name)).map _ = _
    rw [lookup_last hpre, Act.apply, Option.map_some, setEntries_last hpre]
  have hdeep := hflags.finalizePending
  refine ⟨{ flags.finalizePending.unsetAll [name] with
    explicit := [name] :: (flags.finalizePending.unsetAll [name]).explicit }, ?_, hdeep.unsetAll _⟩
  simp only [Output.step]
  rw [if_neg (by rw [hdeep.isFrozen]; decide), hdata]
  rfl

/-- The header of an array's first table. -/
theorem step_arrayTable_new {t : Entries φ} {name : String} (hname : name ∉ t.map Prod.fst) {flags : Flags}
    (hflags : flags.Deep) (header : Path) :
    ∃ flags' : Flags, Output.step ⟨.table t, flags, header⟩ (.arrayTable [name]) =
        some ⟨.table (t ++ [(name, .array [.table []])]), flags', [name]⟩ ∧ flags'.Deep := by
  have hdata : Op.apply ([name], .push) (some (.table t)) = some (.table (t ++ [(name, .array [.table []])])) := by
    change (Act.apply .push (t.lookup name)).map _ = _
    rw [lookup_new hname, Act.apply, Option.map_some, setEntries_new hname]
  have hdeep := hflags.finalizePending
  refine ⟨{ flags.finalizePending.unsetAll [name] with
    explicit := [name] :: (flags.finalizePending.unsetAll [name]).explicit }, ?_, hdeep.unsetAll _⟩
  simp only [Output.step]
  rw [if_neg (by rw [hdeep.isFrozen]; decide), hdata]
  rfl

/-! ## Arrays of tables -/

/-- The statements of an array of tables: a header and its pairs for each. -/
def tables (name : String) (ts : List (Entries φ)) : List (Statement φ) :=
  ts.flatMap fun t => .arrayTable [name] :: pairs t

/-- The tables of an array, one after the other. -/
theorem run_tables {pre : Entries φ} {name : String} (hpre : name ∉ pre.map Prod.fst) {ts : List (Entries φ)}
    (hkeys : ∀ t ∈ ts, (t.map Prod.fst).Nodup) (items : List (Value φ)) {flags : Flags} (hflags : flags.Deep)
    (header : Path) :
    ∃ out : Output φ, (tables name ts).foldlM Output.step ⟨.table (pre ++ [(name, .array items)]), flags, header⟩ =
        some out ∧ out.data = .table (pre ++ [(name, .array (items ++ ts.map .table))]) := by
  induction ts generalizing items flags header with
  | nil => exact ⟨_, rfl, by rw [List.map_nil, List.append_nil]⟩
  | cons t ts ih =>
    obtain ⟨mid, hheader, hmid⟩ := step_arrayTable hpre items hflags header
    obtain ⟨flags', hpairs, hdeep, -⟩ :=
      run_pairs (nests_array items) hpre (t := []) (hkeys t List.mem_cons_self) hmid
    obtain ⟨out, hrun, hout⟩ :=
      ih (fun t ht => hkeys t (List.mem_cons_of_mem _ ht)) (items ++ [.table t]) hdeep [name]
    refine ⟨out, ?_, by rw [hout]; simp⟩
    rw [tables, List.flatMap_cons, List.cons_append, List.foldlM_cons, hheader]
    change ((pairs t) ++ tables name ts).foldlM Output.step _ = _
    rw [List.foldlM_append, hpairs]
    exact hrun

/-- An array of tables, if there is one. -/
theorem run_tables_new {t : Entries φ} {name : String} (hname : name ∉ t.map Prod.fst) {ts : List (Entries φ)}
    (hkeys : ∀ t ∈ ts, (t.map Prod.fst).Nodup) {flags : Flags} (hflags : flags.Deep) (header : Path) :
    ∃ out : Output φ, (tables name ts).foldlM Output.step ⟨.table t, flags, header⟩ = some out ∧
      out.data = .table (t ++ if ts = [] then [] else [(name, .array (ts.map .table))]) := by
  cases ts with
  | nil => exact ⟨_, rfl, by rw [if_pos rfl, List.append_nil]⟩
  | cons first ts =>
    obtain ⟨mid, hheader, hmid⟩ := step_arrayTable_new hname hflags header
    obtain ⟨flags', hpairs, hdeep, -⟩ :=
      run_pairs (nests_array []) hname (t := []) (hkeys first List.mem_cons_self) hmid
    obtain ⟨out, hrun, hout⟩ := run_tables hname (fun t ht => hkeys t (List.mem_cons_of_mem _ ht))
      [.table first] hdeep [name]
    refine ⟨out, ?_, by rw [hout]; simp⟩
    rw [tables, List.flatMap_cons, List.cons_append, List.foldlM_cons, hheader]
    change ((pairs first) ++ tables name ts).foldlM Output.step _ = _
    rw [List.foldlM_append]
    simp only [List.nil_append] at hpairs
    rw [hpairs]
    exact hrun

end Pirewall.Lib.Toml
