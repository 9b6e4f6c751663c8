import MiniMips.Machine.State
import MiniMips.Proofs.Column

/-!
Contract: what a dump tells of a machine.

Owns:
- where the entries and the lines of the table of registers end;
- that the table tells the contents of every register;
- that a dump tells the address of the next instruction and the contents of
  every register, and nothing else.

Entries have no fixed width, as a long value pushes what is behind it to the
right.  Each entry ends at the blanks behind its value, which are its last two
characters.
-/

namespace MiniMips

namespace RegisterFile

variable {file other : RegisterFile} {register : Register} {row : Fin 8}
  {rest otherRest : List Char}

theorem toList_entryText (file : RegisterFile) (register : Register) :
    (file.entryText register).toList =
      (Column.alignLeft 6 ("$" ++ Register.name register)).toList ++
        '=' :: ((Column.alignRight 12
            (Numeral.ofInt (file.read register).toInt)).toList ++
          [' ', ' ']) := by
  simp [entryText]

/-- An entry of the table tells the contents of its register. -/
theorem entryText_append_inj
    (same : (file.entryText register).toList ++ rest =
      (other.entryText register).toList ++ otherRest) :
    file.read register = other.read register ∧ rest = otherRest := by
  simp only [toList_entryText, List.append_assoc, List.cons_append,
    List.nil_append] at same
  -- The name and its mark are the same in both tables.
  have values := (List.cons.inj (List.append_cancel_left same)).2
  obtain ⟨sameValue, behind⟩ := Column.alignRight_ofInt_append_inj values
  exact ⟨Int32.toInt_inj.mp sameValue, (List.cons.inj behind).2⟩

/-- A line of the table tells the contents of the four registers in it. -/
theorem rowText_append_inj
    (same : (file.rowText row).toList ++ rest =
      (other.rowText row).toList ++ otherRest) :
    (∀ register : Register, register.val / 4 = row.val →
      file.read register = other.read register) ∧
      rest = otherRest := by
  simp only [rowText, String.toList_append, String.toList_join,
    List.flatMap_map, List.append_assoc] at same
  obtain ⟨entries, behind⟩ :=
    flatMap_append_inj (fun _ _ _ => entryText_append_inj) same
  refine ⟨fun register inRow => ?_, (List.cons.inj behind).2⟩
  have entry := entries ⟨register.val % 4, Nat.mod_lt _ (by decide)⟩
    (List.mem_finRange _)
  simpa only [← inRow, Nat.div_add_mod] using entry

/-- Tables of registers are the same where all registers have the same
contents, and nowhere else. -/
theorem text_eq_text_iff :
    file.text = other.text ↔
      ∀ register, file.read register = other.read register := by
  constructor
  · intro same register
    have rows := congrArg (fun text => text.toList ++ []) same
    simp only [text, String.toList_join, List.flatMap_map] at rows
    have inRow := (flatMap_append_inj (fun _ _ _ => rowText_append_inj) rows).1
    exact inRow ⟨register.val / 4, by omega⟩ (List.mem_finRange _) register rfl
  · intro same
    have entries : file.entryText = other.entryText := by
      funext register
      rw [entryText, entryText, same]
    have rows : file.rowText = other.rowText := by
      funext row
      rw [rowText, rowText, entries]
    rw [text, text, rows]

end RegisterFile

/-- **Dumps.**  Two machines have the same dump if they have the same address
of the next instruction and the same contents of every register, and only
then. -/
theorem Machine.dump_eq_dump_iff {machine other : Machine} :
    machine.dump = other.dump ↔
      machine.pc = other.pc ∧
        ∀ register,
          machine.registers.read register = other.registers.read register := by
  rw [← RegisterFile.text_eq_text_iff]
  constructor
  · intro same
    have characters := congrArg String.toList same
    simp only [dump, String.toList_append, List.append_assoc] at characters
    obtain ⟨sameAddress, sameTable⟩ := append_cons_inj
      (Numeral.not_mem_ofNat rfl _) (Numeral.not_mem_ofNat rfl _)
      (List.append_cancel_left characters)
    exact ⟨Numeral.ofNat_injective (String.toList_inj.mp sameAddress),
      String.toList_inj.mp sameTable⟩
  · rintro ⟨sameAddress, sameTable⟩
    rw [dump, dump, sameAddress, sameTable]

end MiniMips
