import Mathlib.Data.List.Basic
import Mathlib.Data.Nat.Notation

/-!
# Bounds-checked memory

A block of memory is the list of its cells. Every access checks its index against the
size of the block and answers `none` when it lies outside, which is how a model of C code
records undefined behaviour. Nothing here depends on what the cells hold.

The lemmas describe a block by the pieces it is made of: `write_pieces` overwrites one
piece, `slice_pieces` reads one back.
-/

namespace Memory

universe u

variable {α : Type u}

/-- Read the cell at index `i`. -/
def load (block : List α) (i : ℕ) : Option α := block[i]?

/-- Write the cell at index `i`. -/
def store (block : List α) (i : ℕ) (v : α) : Option (List α) :=
  if i < block.length then some (block.set i v) else none

/-- Write `vs` cell by cell from index `i` on. -/
def write (block : List α) (i : ℕ) : List α → Option (List α)
  | [] => some block
  | v :: vs => do
    let block ← store block i v
    write block (i + 1) vs

/-- Read the `n` cells from index `i` on. -/
def slice (block : List α) (i n : ℕ) : Option (List α) :=
  if i + n ≤ block.length then some ((block.drop i).take n) else none

/-! ## When an access is in bounds -/

theorem store_of_lt {block : List α} {i : ℕ} (v : α) (h : i < block.length) :
    store block i v = some (block.set i v) := if_pos h

theorem slice_of_le {block : List α} {i n : ℕ} (h : i + n ≤ block.length) :
    slice block i n = some ((block.drop i).take n) := if_pos h

theorem load_append {front post : List α} {v : α} {i : ℕ} (hi : i = front.length) :
    load (front ++ v :: post) i = some v := by
  subst hi
  simp [load]

/-! ## Blocks as pieces -/

/-- Storing at the end of a piece replaces the cell after it. -/
theorem store_pieces (front post : List α) (old v : α) :
    store (front ++ old :: post) front.length v = some (front ++ v :: post) := by
  rw [store_of_lt v (by simp)]
  simp

/-- **Writing one piece**: the cells before and after it stay as they are. -/
theorem write_pieces (front old new post : List α) {i : ℕ} (hi : i = front.length)
    (hlen : old.length = new.length) :
    write (front ++ old ++ post) i new = some (front ++ new ++ post) := by
  subst hi
  induction new generalizing front old with
  | nil =>
    obtain rfl := List.eq_nil_of_length_eq_zero hlen
    simp [write]
  | cons v vs ih =>
    obtain _ | ⟨o, os⟩ := old
    · cases hlen
    · have hos : os.length = vs.length := by simpa using hlen
      have hstore : store (front ++ (o :: os) ++ post) front.length v =
          some ((front ++ [v]) ++ os ++ post) := by
        have := store_pieces front (os ++ post) o v
        simpa [List.append_assoc] using this
      have hrest := ih (front ++ [v]) os hos
      rw [List.length_append, List.length_singleton] at hrest
      rw [write, hstore, Option.bind_eq_bind, Option.bind_some, hrest]
      simp [List.append_assoc]

/-- **Reading one piece** back. -/
theorem slice_pieces (front piece post : List α) {i n : ℕ} (hi : i = front.length)
    (hn : n = piece.length) :
    slice (front ++ piece ++ post) i n = some piece := by
  subst hi hn
  rw [slice_of_le (by simp)]
  simp [List.append_assoc]

/-- Storing just past a prefix extends the prefix. -/
theorem take_succ_set {block : List α} {i : ℕ} (v : α) (h : i < block.length) :
    (block.set i v).take (i + 1) = block.take i ++ [v] := by
  rw [List.take_succ_eq_append_getElem (by simpa using h), List.take_set_of_le (Nat.le_refl i)]
  simp

/-- A load inside a prefix reads the prefix. -/
theorem load_take {block : List α} {i n : ℕ} (h : i < n) :
    load (block.take n) i = load block i := by
  simp [load, h]

/-- A slice inside a prefix reads the prefix. -/
theorem slice_take {block : List α} {i n m : ℕ} (h : i + n ≤ m) (hm : m ≤ block.length) :
    slice (block.take m) i n = slice block i n := by
  rw [slice_of_le (by rw [List.length_take]; omega), slice_of_le (by omega)]
  rw [List.drop_take, List.take_take, Nat.min_eq_left (by omega)]

end Memory
