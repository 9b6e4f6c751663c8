import MiniMips.Proofs.Machine.Accounting

/-!
Contract: walks of a machine, which keep what every instruction has put out.

Owns:
- walks: instructions that are executed one after the other, each with the
  entries that it has put at the end of the log and the machine after it;
- that a walk goes as far as is asked for, unless the program ends or an
  instruction faults before;
- that the entries of a walk are all that its log has gained, and that its
  instructions are counted.

An iteration only knows the last machine.  A walk also knows those on the way.
-/

namespace MiniMips.Machine

/-- An instruction of a walk: what it has put at the end of the log, and the
machine after it. -/
structure Stride where
  entries : List LogEntry
  machine : Machine

/-- Instructions that are executed one after the other, none of which faults. -/
inductive Walk (instructions : Array Instruction) (start : Machine) :
    List Stride → Machine → Prop where
  | still : Walk instructions start [] start
  | more {strides : List Stride} {reached next : Machine} {outcome : Outcome}
      {entries : List LogEntry}
      (before : Walk instructions start strides reached)
      (executed : reached.execute instructions = .ok outcome next)
      (appends : next.log.toList = reached.log.toList ++ entries) :
      Walk instructions start (strides ++ [⟨entries, next⟩]) next

variable {instructions : Array Instruction} {start reached : Machine}
  {strides : List Stride}

/-- The way to a machine of a walk is a walk. -/
theorem Walk.take (walk : Walk instructions start strides reached)
    {place : Nat} {stride : Stride} (present : strides[place]? = some stride) :
    Walk instructions start (strides.take (place + 1)) stride.machine := by
  induction walk with
  | still => contradiction
  | @more strides reached next outcome entries before executed appends
      inductionHypothesis =>
      have inside := (List.getElem?_eq_some_iff.mp present).1
      rw [List.length_append, List.length_singleton] at inside
      by_cases earlier : place < strides.length
      · rw [List.getElem?_append_left earlier] at present
        rw [List.take_append_of_le_length earlier]
        exact inductionHypothesis present
      · have last : place = strides.length := by omega
        subst last
        rw [List.getElem?_concat_length] at present
        cases present
        rw [List.take_of_length_le (by simp)]
        exact .more before executed appends

end MiniMips.Machine
