import ChangeGate.Files.Tree

/-! # Disks

Opening a file is one thing and writing to it another: a **disk** decides how much of what is written
at a place gets there, and may stop any write, or a part of it, for a cause of its own. **writeAll**
writes pieces one after another and ends with the first one that is stopped, so that a beginning of the
whole is written (`writeAll_prefix`): all of it exactly if there is no fault (`writeAll_eq_iff`). -/

namespace ChangeGate.Files

/-- What stops a write: there is room for so many bytes, and then a cause. -/
structure Stop where
  room : Nat
  cause : Cause
deriving DecidableEq, Repr

/-- What stops the writes at a place, by their number; most are not stopped. -/
abbrev Disk := Path → Nat → Option Stop

/-- What came of writing. -/
structure Written where
  /-- The bytes that got to their place. -/
  bytes : Text.Bytes
  /-- What stopped the others, if there are any. -/
  fault : Option Cause
  /-- The number of the next write. -/
  next : Nat
deriving DecidableEq, Repr

namespace Disk

/-- Pieces written one after another, the first one having a number; the first piece for which there is
too little room is the last one. -/
def writeAll (stops : Nat → Option Stop) : Nat → List Text.Bytes → Written
  | n, [] => ⟨[], none, n⟩
  | n, piece :: rest =>
    match (stops n).filter fun s => s.room < piece.length with
    | some s => ⟨piece.take s.room, some s.cause, n + 1⟩
    | none =>
      let more := writeAll stops (n + 1) rest
      { more with bytes := piece ++ more.bytes }

variable {stops : Nat → Option Stop}

/-- What is written is a beginning of the pieces. -/
theorem writeAll_prefix (n : Nat) (pieces : List Text.Bytes) :
    (writeAll stops n pieces).bytes <+: pieces.flatten := by
  induction pieces generalizing n with
  | nil => exact List.prefix_rfl
  | cons piece rest ih =>
    rw [writeAll, List.flatten_cons]
    split
    · exact (List.take_prefix _ _).trans (List.prefix_append _ _)
    · exact (List.prefix_append_right_inj piece).mpr (ih (n + 1))

/-- All the pieces are written exactly if nothing stops them. -/
theorem writeAll_eq_iff (n : Nat) (pieces : List Text.Bytes) :
    (writeAll stops n pieces).bytes = pieces.flatten ↔ (writeAll stops n pieces).fault = none := by
  induction pieces generalizing n with
  | nil => simp [writeAll]
  | cons piece rest ih =>
    rw [writeAll, List.flatten_cons]
    split
    · rename_i s hstop
      -- a piece that is stopped is not written to its end
      have hroom : s.room < piece.length := by simpa using (Option.filter_eq_some_iff.mp hstop).2
      have hshort : piece.take s.room ≠ piece ++ rest.flatten := by
        intro h
        have hlength := congrArg List.length h
        rw [List.length_take, List.length_append] at hlength
        omega
      simp [hshort]
    · rw [← ih (n + 1)]
      exact List.append_right_inj piece

/-- Later writes have later numbers. -/
theorem le_next_writeAll (n : Nat) (pieces : List Text.Bytes) : n ≤ (writeAll stops n pieces).next := by
  induction pieces generalizing n with
  | nil => exact Nat.le_refl n
  | cons piece rest ih =>
    rw [writeAll]
    split
    · exact Nat.le_succ n
    · exact Nat.le_trans (Nat.le_succ n) (ih (n + 1))

/-- Where no write is stopped from some number on, there is no fault. -/
theorem fault_writeAll {n : Nat} (h : ∀ k, n ≤ k → stops k = none) (pieces : List Text.Bytes) :
    (writeAll stops n pieces).fault = none := by
  induction pieces generalizing n with
  | nil => rfl
  | cons piece rest ih =>
    rw [writeAll, h n (Nat.le_refl n)]
    exact ih fun k hk => h k (by omega)

/-! ## The disk of a computer -/

/-- The place of the device that is always full. -/
def fullDevice : Path := ["dev".toList, "full".toList]

/-- The disk of a computer: all that is written gets to its place, but for the device that is always
full. -/
def usual : Disk := fun place _ => if place = fullDevice then some ⟨0, .noRoom⟩ else none

/-- A tree with that device, which is opened like a file and stays empty. Only writing to it is
described here: reading it would never end. -/
def withDevices (t : Tree) : Tree :=
  (t.insert fullDevice.dropLast .directory).insert fullDevice (.file [] false)

end Disk

end ChangeGate.Files
