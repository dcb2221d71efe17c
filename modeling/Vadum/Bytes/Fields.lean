import Mathlib.Data.Nat.Digits.Lemmas

/-!
# Fields of a Buffer

A fixed layout: a buffer of zeros is allocated and its fields are written at
their offsets, or a buffer is received and they are read from there.

Encoders write from left to right, so a buffer under construction is what has
been written and zeros: `write_zeros` is the rule for one more field. Reading is
its inverse, `slice_append`, and reading every field in turn gives the whole
buffer back, `slice_append_slice`.

Numbers are little-endian. Their bytes are Mathlib's digits in base 256, padded
to the width of the field.

## Main definitions

* `write`: Write at an offset.
* `slice`, `field`: Read there; a field must lie inside the buffer.
* `leBytes`, `ofLe`: A number's bytes, and the number of some bytes.

## Theorems

* `write_zeros`: Writing the next field.
* `slice_append`: Reading a field that was written.
* `slice_append_slice`: Two neighbouring fields are one.
* `ofLe_leBytes`, `leBytes_ofLe`: Numbers and their bytes.
-/

namespace Bytes

variable {α : Type}

/-- Write at an offset, over what is there. -/
def write (buffer : List α) (offset : Nat) (xs : List α) : List α :=
  buffer.take offset ++ xs ++ buffer.drop (offset + xs.length)

/-- What is at an offset, or as much of it as there is. -/
def slice (buffer : List α) (offset size : Nat) : List α := (buffer.drop offset).take size

/-- What is at an offset, if all of it lies inside the buffer. -/
def field (buffer : List α) (offset size : Nat) : Option (List α) :=
  if offset + size ≤ buffer.length then some (slice buffer offset size) else none

section Write

/-- Writing the next field of a buffer under construction. -/
theorem write_append {done rest xs : List α} {offset : Nat} (h : done.length = offset) :
    write (done ++ rest) offset xs = (done ++ xs) ++ rest.drop xs.length := by
  subst h
  rw [write, List.take_left, List.drop_append, List.drop_eq_nil_of_le (Nat.le_add_right _ _),
    Nat.add_sub_cancel_left, List.nil_append]

theorem write_zeros {zero : α} {done xs : List α} {offset n : Nat} (h : done.length = offset) :
    write (done ++ List.replicate n zero) offset xs
      = (done ++ xs) ++ List.replicate (n - xs.length) zero := by
  rw [write_append h, List.drop_replicate]

end Write

section Read

theorem length_slice {buffer : List α} {offset size : Nat} (h : offset + size ≤ buffer.length) :
    (slice buffer offset size).length = size := by
  rw [slice, List.length_take, List.length_drop]
  omega

theorem field_of_le {buffer : List α} {offset size : Nat} (h : offset + size ≤ buffer.length) :
    field buffer offset size = some (slice buffer offset size) := if_pos h

/-- Reading a field that was written. -/
theorem slice_append {done xs rest : List α} {offset size : Nat} (h : done.length = offset)
    (hsize : xs.length = size) : slice (done ++ (xs ++ rest)) offset size = xs := by
  subst h hsize
  rw [slice, List.drop_left, List.take_left]

/-- What is behind some bytes is read without them. -/
theorem slice_behind {xs ys : List α} {offset size : Nat} (h : xs.length ≤ offset) :
    slice (xs ++ ys) offset size = slice ys (offset - xs.length) size := by
  rw [slice, slice, List.drop_append, List.drop_eq_nil_of_le h, List.nil_append]

theorem slice_front {xs ys : List α} {size : Nat} (h : xs.length = size) :
    slice (xs ++ ys) 0 size = xs := by
  subst h
  rw [slice, List.drop_zero, List.take_left]

theorem slice_whole {xs : List α} {size : Nat} (h : xs.length = size) : slice xs 0 size = xs := by
  rw [slice, List.drop_zero, List.take_of_length_le (Nat.le_of_eq h)]

theorem slice_last {done xs : List α} {offset size : Nat} (h : done.length = offset)
    (hsize : xs.length = size) : slice (done ++ xs) offset size = xs := by
  rw [slice_behind (Nat.le_of_eq h), h, Nat.sub_self, slice_whole hsize]

/-- Two neighbouring fields are one. -/
theorem slice_append_slice (buffer : List α) (offset size size' : Nat) :
    slice buffer offset size ++ slice buffer (offset + size) size'
      = slice buffer offset (size + size') := by
  rw [slice, slice, slice, ← List.drop_drop, List.take_add]

/-- One more field of a buffer that is read field by field. -/
theorem slice_next {buffer : List α} {offset offset' size size' : Nat}
    (h : offset + size = offset') :
    slice buffer offset size ++ slice buffer offset' size'
      = slice buffer offset (size + size') := h ▸ slice_append_slice buffer offset size size'

theorem slice_all (buffer : List α) : slice buffer 0 buffer.length = buffer := by
  rw [slice, List.drop_zero, List.take_length]

end Read

section Numbers

/-- The bytes of a number, lowest first. -/
def leBytes (size n : Nat) : List UInt8 := (Nat.digitsAppend 256 size n).map UInt8.ofNat

/-- The number some bytes stand for, lowest first. -/
def ofLe (bytes : List UInt8) : Nat := Nat.ofDigits 256 (bytes.map UInt8.toNat)

theorem length_leBytes {size n : Nat} (h : n < 256 ^ size) : (leBytes size n).length = size := by
  rw [leBytes, List.length_map, Nat.length_digitsAppend (by decide) size h]

theorem ofLe_lt (bytes : List UInt8) : ofLe bytes < 256 ^ bytes.length := by
  have h := Nat.ofDigits_lt_base_pow_length (b := 256) (l := bytes.map UInt8.toNat) (by decide)
    (fun x hx => by
      rcases List.mem_map.mp hx with ⟨b, _, rfl⟩
      exact b.toNat_lt)
  rwa [List.length_map] at h

theorem ofLe_leBytes {size n : Nat} (h : n < 256 ^ size) : ofLe (leBytes size n) = n := by
  have hbytes : (leBytes size n).map UInt8.toNat = Nat.digitsAppend 256 size n := by
    rw [leBytes, List.map_map, List.map_congr_left (g := id) fun d hd => ?_, List.map_id]
    have := Nat.lt_of_mem_digitsAppend (b := 256) (by decide) size d hd
    exact UInt8.toNat_ofNat_of_lt' this
  rw [ofLe, hbytes]
  exact (Nat.setInvOn_digitsAppend_ofDigits (by decide) size).2 h

theorem leBytes_ofLe {size : Nat} {bytes : List UInt8} (h : bytes.length = size) :
    leBytes size (ofLe bytes) = bytes := by
  have hdigits : Nat.digitsAppend 256 size (ofLe bytes) = bytes.map UInt8.toNat := by
    refine (Nat.setInvOn_digitsAppend_ofDigits (by decide) size).1 ⟨?_, fun x hx => ?_⟩
    · rwa [List.length_map]
    · rcases List.mem_map.mp hx with ⟨b, _, rfl⟩
      exact b.toNat_lt
  rw [leBytes, hdigits, List.map_map]
  exact (List.map_congr_left fun b _ => UInt8.ofNat_toNat).trans (List.map_id bytes)

end Numbers

end Bytes
