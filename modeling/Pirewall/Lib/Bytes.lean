/-
# Pirewall.Lib.Bytes -- numbers and fields in byte strings

A binary format is read by offsets: a field is the number its octets stand for, most significant first, and a read
is bounded by the length of the string. Two facts carry a proof about such a reader. A field is where the writer
put it (`field_append`), whatever precedes and follows; and cutting the string changes no field that lies before
the cut (`field_take`), while the others are gone.

A format that leaves the byte order to the writer is read through an `Endian`: a record of fixed-width fields is
packed one after the other, and unpacking gives them back in either order (`numbers_pack`).
-/
import Mathlib.Tactic

namespace Pirewall.Lib.Bytes

/-! ## Numbers -/

/-- The number some octets stand for, most significant first. -/
def bigEndian (bytes : List UInt8) : Nat := bytes.foldl (fun n octet => n * 256 + octet.toNat) 0

/-- The last `width` octets of a number, most significant first. -/
def octets : Nat → Nat → List UInt8
  | 0, _ => []
  | width + 1, n => octets width (n / 256) ++ [UInt8.ofNat (n % 256)]

@[simp] theorem length_octets (width n : Nat) : (octets width n).length = width := by
  induction width generalizing n with
  | zero => rfl
  | succ width ih => rw [octets, List.length_append, ih, List.length_singleton]

theorem bigEndian_concat (bytes : List UInt8) (octet : UInt8) :
    bigEndian (bytes ++ [octet]) = bigEndian bytes * 256 + octet.toNat := by
  rw [bigEndian, List.foldl_append]
  rfl

/-- A number is read back from its octets when they are enough for it. -/
theorem bigEndian_octets {width n : Nat} (h : n < 256 ^ width) : bigEndian (octets width n) = n := by
  induction width generalizing n with
  | zero =>
    obtain rfl : n = 0 := by simpa using h
    rfl
  | succ width ih =>
    have hhigh : n / 256 < 256 ^ width := by
      rw [Nat.div_lt_iff_lt_mul (by decide), ← Nat.pow_succ]
      exact h
    have hlow : (UInt8.ofNat (n % 256)).toNat = n % 256 := by
      rw [UInt8.toNat_ofNat']
      omega
    rw [octets, bigEndian_concat, ih hhigh, hlow]
    omega

theorem bigEndian_lt (bytes : List UInt8) : bigEndian bytes < 256 ^ bytes.length := by
  induction bytes using List.reverseRecOn with
  | nil => exact Nat.one_pos
  | append_singleton bytes octet ih =>
    have hoctet := octet.toNat_lt
    rw [bigEndian_concat, List.length_append, List.length_singleton, Nat.pow_succ]
    omega

/-! ## Slices -/

/-- `bytes[start : start + length]`: shorter where the string ends. -/
def slice (bytes : List UInt8) (start length : Nat) : List UInt8 := (bytes.drop start).take length

theorem length_slice (bytes : List UInt8) (start length : Nat) :
    (slice bytes start length).length = min length (bytes.length - start) := by
  rw [slice, List.length_take, List.length_drop]

theorem slice_append {before inner after : List UInt8} {start length : Nat} (hstart : before.length = start)
    (hlength : inner.length = length) : slice (before ++ (inner ++ after)) start length = inner := by
  subst hstart hlength
  rw [slice, List.drop_left, List.take_left]

theorem slice_end {before inner : List UInt8} {start length : Nat} (hstart : before.length = start)
    (hlength : inner.length = length) : slice (before ++ inner) start length = inner := by
  rw [← List.append_nil inner]
  exact (slice_append hstart hlength).trans (List.append_nil inner).symm

/-- What a slice of a cut string is: the slice, cut as far as the cut reaches into it. -/
theorem slice_take (bytes : List UInt8) (cut start length : Nat) :
    slice (bytes.take cut) start length = (slice bytes start length).take (cut - start) := by
  rw [slice, slice, List.drop_take, List.take_take, List.take_take, Nat.min_comm]

/-- A slice that ends before the cut is not cut. -/
theorem slice_take_of_le (bytes : List UInt8) {cut start length : Nat} (h : start + length ≤ cut) :
    slice (bytes.take cut) start length = slice bytes start length := by
  rw [slice_take, List.take_of_length_le]
  rw [length_slice]
  omega

/-- A slice of the front of a string, whatever is behind. -/
theorem slice_append_of_le {front : List UInt8} (behind : List UInt8) {start length : Nat}
    (h : start + length ≤ front.length) : slice (front ++ behind) start length = slice front start length := by
  rw [slice, slice, List.drop_append_of_le_length (by omega),
    List.take_append_of_le_length (by rw [List.length_drop]; omega)]

/-! ## Fields -/

/-- The number in `width` octets at an offset, `none` where the string is too short. -/
def field (bytes : List UInt8) (start width : Nat) : Option Nat :=
  if start + width ≤ bytes.length then some (bigEndian (slice bytes start width)) else none

theorem field_eq_none_iff {bytes : List UInt8} {start width : Nat} :
    field bytes start width = none ↔ bytes.length < start + width := by
  rw [field]
  split_ifs with h
  · simp [Nat.not_lt.mpr h]
  · simp [Nat.lt_of_not_le h]

theorem field_of_le {bytes : List UInt8} {start width : Nat} (h : start + width ≤ bytes.length) :
    field bytes start width = some (bigEndian (slice bytes start width)) := if_pos h

/-- A field is where it was put. -/
theorem field_append {before after : List UInt8} {start width n : Nat} (hstart : before.length = start)
    (hn : n < 256 ^ width) : field (before ++ (octets width n ++ after)) start width = some n := by
  have hfits : start + width ≤ (before ++ (octets width n ++ after)).length := by
    simp only [List.length_append, length_octets]
    omega
  rw [field_of_le hfits, slice_append hstart (length_octets width n), bigEndian_octets hn]

/-- Cutting a string keeps the fields that end before the cut. -/
theorem field_take {bytes : List UInt8} {cut start width : Nat} (h : start + width ≤ cut) :
    field (bytes.take cut) start width = field bytes start width := by
  rw [field, field, slice_take_of_le bytes h, List.length_take]
  by_cases hfits : start + width ≤ bytes.length
  · rw [if_pos hfits, if_pos (Nat.le_min.mpr ⟨h, hfits⟩)]
  · rw [if_neg hfits, if_neg (fun hmin => hfits (hmin.trans (Nat.min_le_right _ _)))]

/-! ## Either byte order -/

/-- A byte order. -/
inductive Endian where
  | little | big
  deriving DecidableEq, Repr

namespace Endian

/-- The number some octets stand for. -/
def number (endian : Endian) (bytes : List UInt8) : Nat :=
  match endian with
  | little => bigEndian bytes.reverse
  | big => bigEndian bytes

/-- The last `width` octets of a number. -/
def octets (endian : Endian) (width n : Nat) : List UInt8 :=
  match endian with
  | little => (Bytes.octets width n).reverse
  | big => Bytes.octets width n

@[simp] theorem length_octets (endian : Endian) (width n : Nat) : (endian.octets width n).length = width := by
  cases endian with
  | little => exact List.length_reverse.trans (Bytes.length_octets width n)
  | big => exact Bytes.length_octets width n

theorem number_octets (endian : Endian) {width n : Nat} (h : n < 256 ^ width) :
    endian.number (endian.octets width n) = n := by
  cases endian with
  | little =>
    show bigEndian (Bytes.octets width n).reverse.reverse = n
    rw [List.reverse_reverse, bigEndian_octets h]
  | big => exact bigEndian_octets h

/-- The numbers in fields of these widths, one after the other. -/
def numbers (endian : Endian) : List Nat → List UInt8 → List Nat
  | [], _ => []
  | width :: widths, bytes => endian.number (bytes.take width) :: numbers endian widths (bytes.drop width)

/-- Fields of some width each, one after the other. -/
def pack (endian : Endian) (fields : List (Nat × Nat)) : List UInt8 :=
  fields.flatMap fun field => endian.octets field.1 field.2

theorem length_pack (endian : Endian) (fields : List (Nat × Nat)) :
    (endian.pack fields).length = (fields.map Prod.fst).sum := by
  induction fields with
  | nil => rfl
  | cons field fields ih =>
    rw [pack, List.flatMap_cons, List.length_append, length_octets, List.map_cons, List.sum_cons, ← ih]
    rfl

/-- What was packed is unpacked. -/
theorem numbers_pack (endian : Endian) {fields : List (Nat × Nat)}
    (h : ∀ field ∈ fields, field.2 < 256 ^ field.1) :
    endian.numbers (fields.map Prod.fst) (endian.pack fields) = fields.map Prod.snd := by
  induction fields with
  | nil => rfl
  | cons field fields ih =>
    have hlength : (endian.octets field.1 field.2).length = field.1 := endian.length_octets _ _
    rw [pack, List.flatMap_cons, List.map_cons, numbers, List.take_left' hlength, List.drop_left' hlength,
      number_octets endian (h field List.mem_cons_self)]
    exact congrArg _ (ih fun other hother => h other (List.mem_cons_of_mem _ hother))

end Endian

end Pirewall.Lib.Bytes
