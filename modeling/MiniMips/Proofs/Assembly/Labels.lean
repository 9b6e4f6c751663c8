import Mathlib.Data.List.Nodup
import MiniMips.Assembly.Program
import MiniMips.Proofs.Assembly.Statements

/-!
Contract: the labels of a token list and the addresses they are bound to.

Owns:
- the declarations of a token list: every label token with the number of
  mnemonics before it;
- that a label table holds the declarations, provided that no name is declared
  twice, and that there is none otherwise;
- looking a label up in a table without repeated names, and the first label of
  an address.
-/

namespace MiniMips

/-- The declarations among tokens, before which there are `address`
mnemonics. -/
def Token.declarations (address : Nat) : List Token → List LabelEntry
  | [] => []
  | token :: rest =>
      match token.kind with
      | .label name => ⟨name, address, token.line⟩ :: declarations address rest
      | .mnemonic _ => declarations (address + 1) rest
      | _ => declarations address rest

/-- The declarations among statements, before which there are `address`
instructions. -/
def Statement.declarations (address : Nat) :
    List Statement → List LabelEntry
  | [] => []
  | .label name line :: rest =>
      ⟨name, address, line⟩ :: declarations address rest
  | .instruction _ _ _ :: rest => declarations (address + 1) rest

variable {tokens : List Token} {statements : List Statement}
  {address index : Nat} {name : String} {table extended : LabelTable}

/-! ## Declarations -/

theorem Token.declarations_operands {line : Nat} {operands : List Token}
    (belong : ∀ operand ∈ operands,
      Statement.isOperandOn line operand = true)
    (address : Nat) (rest : List Token) :
    declarations address (operands ++ rest) = declarations address rest := by
  induction operands with
  | nil => rfl
  | cons operand operands inductionHypothesis =>
      obtain ⟨_, noStart⟩ :=
        Statement.isOperandOn_iff.mp (belong operand (by simp))
      have silent := inductionHypothesis
        (fun other member => belong other (List.mem_cons_of_mem _ member))
      rw [List.cons_append, declarations]
      unfold startsStatement at noStart
      split at noStart <;> simp_all

theorem Token.declarations_append (address : Nat) (before after : List Token) :
    declarations address (before ++ after) =
      declarations address before ++
        declarations (address + mnemonicCount before) after := by
  induction before generalizing address with
  | nil => rfl
  | cons token before inductionHypothesis =>
      rw [List.cons_append, declarations, declarations, mnemonicCount_cons]
      cases kind : token.kind <;>
        simp [inductionHypothesis, isMnemonic, kind, Nat.add_assoc,
          Nat.add_comm 1]

theorem Statement.MadeOf.declarations_eq
    (made : Statement.MadeOf tokens statements) (address : Nat) :
    Statement.declarations address statements =
      Token.declarations address tokens := by
  induction made generalizing address with
  | nil => rfl
  | label declares others inductionHypothesis =>
      simp only [Statement.declarations, Token.declarations, declares,
        inductionHypothesis]
  | instruction names belong others inductionHypothesis =>
      simp only [Statement.declarations, Token.declarations, names,
        inductionHypothesis, Token.declarations_operands belong]

theorem Statement.declarations_append (address : Nat)
    (earlier later : List Statement) :
    declarations address (earlier ++ later) =
      declarations address earlier ++
        declarations (address + instructionCount earlier) later := by
  induction earlier generalizing address with
  | nil => rfl
  | cons statement earlier inductionHypothesis =>
      cases statement with
      | label name line =>
          rw [List.cons_append, declarations, declarations,
            inductionHypothesis]
          rfl
      | instruction mnemonic line operands =>
          rw [List.cons_append, declarations, declarations,
            inductionHypothesis, instructionCount_instruction, Nat.add_assoc,
            Nat.add_comm 1]

/-- The declarations are the label tokens, each with the number of mnemonics
before it. -/
theorem Token.mem_declarations_iff {entry : LabelEntry} :
    entry ∈ declarations address tokens ↔
      ∃ before token after, tokens = before ++ token :: after ∧
        token.kind = .label entry.name ∧ token.line = entry.line ∧
        address + mnemonicCount before = entry.index := by
  induction tokens generalizing address with
  | nil => simp [declarations]
  | cons token rest inductionHypothesis =>
      rw [exists_cut_cons_iff, declarations]
      cases kind : token.kind with
      | label name =>
          have first : entry = ⟨name, address, token.line⟩ ↔
              name = entry.name ∧ token.line = entry.line ∧
                address = entry.index := by
            cases entry with
            | mk entryName entryIndex entryLine =>
                simp only [LabelEntry.mk.injEq]
                exact ⟨fun ⟨sameName, sameIndex, sameLine⟩ =>
                    ⟨sameName.symm, sameLine.symm, sameIndex.symm⟩,
                  fun ⟨sameName, sameLine, sameIndex⟩ =>
                    ⟨sameName.symm, sameIndex.symm, sameLine.symm⟩⟩
          simp [inductionHypothesis, isMnemonic_of_label kind, first]
      | mnemonic name =>
          simp [inductionHypothesis, isMnemonic_of_kind kind, Nat.add_assoc,
            Nat.add_comm 1]
      | _ =>
          have silent : token.isMnemonic = false := by
            simp [isMnemonic, kind]
          simp [inductionHypothesis, silent]

theorem Token.mem_names_declarations_iff :
    name ∈ (declarations address tokens).map LabelEntry.name ↔
      ∃ token ∈ tokens, token.kind = .label name := by
  rw [List.mem_map]
  constructor
  · intro declared
    obtain ⟨entry, member, rfl⟩ := declared
    obtain ⟨before, token, after, rfl, declares, _⟩ :=
      mem_declarations_iff.mp member
    exact ⟨token, by simp, declares⟩
  · intro declared
    obtain ⟨token, among, declares⟩ := declared
    obtain ⟨before, after, rfl⟩ := List.append_of_mem among
    refine ⟨⟨name, address + mnemonicCount before, token.line⟩, ?_, rfl⟩
    exact mem_declarations_iff.mpr
      ⟨before, token, after, rfl, declares, rfl, rfl⟩

/-- Whether a label is declared among tokens, with so many mnemonics before its
declaration and so many after it. -/
def Token.Declares (tokens : List Token) (name : String)
    (preceding following : Nat) : Prop :=
  ∃ before token after, tokens = before ++ token :: after ∧
    token.kind = .label name ∧ mnemonicCount before = preceding ∧
    mnemonicCount after = following

theorem Token.Declares.count_eq {preceding following : Nat}
    (declares : Declares tokens name preceding following) :
    preceding + following = mnemonicCount tokens := by
  obtain ⟨before, token, after, rfl, kind, rfl, rfl⟩ := declares
  simp [isMnemonic_of_label kind]

/-! ## Tables -/

/-- No name is declared twice. -/
def LabelTable.Distinct (table : LabelTable) : Prop :=
  (table.entries.map LabelEntry.name).Nodup

namespace LabelTable

theorem distinct_empty : empty.Distinct :=
  List.nodup_nil

theorem find?_eq_none_iff :
    table.find? name = none ↔ name ∉ table.entries.map LabelEntry.name := by
  simp [find?, List.find?_eq_none]

theorem declare_eq_ok_iff {line : Nat} :
    table.declare name index line = .ok extended ↔
      name ∉ table.entries.map LabelEntry.name ∧
        extended = ⟨table.entries ++ [⟨name, index, line⟩]⟩ := by
  rw [← find?_eq_none_iff]
  unfold declare
  cases table.find? name with
  | none => simp [eq_comm]
  | some first => simp

/-- **Label tables.**  The table of statements holds their declarations, and
there is one exactly where no name is declared twice. -/
theorem ofStatements_eq_ok_iff (distinct : table.Distinct) :
    table.ofStatements address statements = .ok extended ↔
      extended =
          ⟨table.entries ++ Statement.declarations address statements⟩ ∧
        extended.Distinct := by
  induction statements generalizing table address with
  | nil =>
      simp only [ofStatements, Statement.declarations, List.append_nil,
        Except.ok.injEq]
      constructor
      · rintro rfl
        exact ⟨rfl, distinct⟩
      · rintro ⟨rfl, _⟩
        rfl
  | cons statement rest inductionHypothesis =>
      cases statement with
      | instruction mnemonic line operands =>
          simp only [ofStatements, Statement.declarations]
          exact inductionHypothesis distinct
      | label name line =>
          simp only [ofStatements, Statement.declarations]
          by_cases fresh : name ∉ table.entries.map LabelEntry.name
          · have declared : table.declare name address line =
                .ok ⟨table.entries ++ [⟨name, address, line⟩]⟩ :=
              declare_eq_ok_iff.mpr ⟨fresh, rfl⟩
            have stillDistinct :
                Distinct ⟨table.entries ++ [⟨name, address, line⟩]⟩ := by
              unfold Distinct
              rw [List.map_append, List.nodup_append]
              refine ⟨distinct, by simp, ?_⟩
              rintro other member declared declaredHere rfl
              rw [List.map_singleton, List.mem_singleton] at declaredHere
              rw [declaredHere] at member
              exact fresh member
            simp only [declared]
            rw [inductionHypothesis stillDistinct, List.append_assoc,
              List.singleton_append]
          · -- The name is there already, so the entries would repeat it.
            constructor
            · intro bound
              cases declared : table.declare name address line with
              | error parseError => simp [declared] at bound
              | ok middle =>
                  exact absurd (declare_eq_ok_iff.mp declared).1 fresh
            · rintro ⟨rfl, repeated⟩
              unfold Distinct at repeated
              rw [List.map_append, List.nodup_append] at repeated
              obtain ⟨_, _, apart⟩ := repeated
              have member := Classical.not_not.mp fresh
              exact absurd rfl (apart name member name (by simp))

/-- Without repeated names, a label is resolved by the only declaration of its
name. -/
theorem resolve?_eq_some_iff (distinct : table.Distinct) :
    table.resolve? name = some index ↔
      ∃ entry ∈ table.entries, entry.name = name ∧ entry.index = index := by
  unfold resolve? find?
  rw [Option.map_eq_some_iff]
  constructor
  · rintro ⟨entry, found, bound⟩
    have named := List.find?_some found
    exact ⟨entry, List.mem_of_find?_eq_some found, of_decide_eq_true named,
      bound⟩
  · rintro ⟨entry, member, named, bound⟩
    cases found : table.entries.find? (fun entry =>
        decide (entry.name = name)) with
    | none =>
        have absent := List.find?_eq_none.mp found entry member
        simp [named] at absent
    | some first =>
        have firstNamed := List.find?_some found
        have sameName : first.name = entry.name :=
          (of_decide_eq_true firstNamed).trans named.symm
        have same := List.inj_on_of_nodup_map distinct
          (List.mem_of_find?_eq_some found) member sameName
        exact ⟨first, rfl, same ▸ bound⟩

/-- The label of an address is the first one that is bound to it. -/
theorem nameAt?_eq_some_iff :
    table.nameAt? index = some name ↔
      ∃ before entry after, table.entries = before ++ entry :: after ∧
        entry.name = name ∧ entry.index = index ∧
        ∀ earlier ∈ before, earlier.index ≠ index := by
  rw [nameAt?, Option.map_eq_some_iff]
  constructor
  · rintro ⟨entry, found, named⟩
    obtain ⟨bound, before, after, cut, apart⟩ :=
      List.find?_eq_some_iff_append.mp found
    exact ⟨before, entry, after, cut, named, of_decide_eq_true bound,
      fun earlier member => by simpa using apart earlier member⟩
  · rintro ⟨before, entry, after, cut, named, bound, apart⟩
    refine ⟨entry, List.find?_eq_some_iff_append.mpr ?_, named⟩
    exact ⟨decide_eq_true bound, before, after, cut,
      fun earlier member => by simpa using apart earlier member⟩

theorem nameAt?_eq_none_iff :
    table.nameAt? index = none ↔
      ∀ entry ∈ table.entries, entry.index ≠ index := by
  rw [nameAt?, Option.map_eq_none_iff, List.find?_eq_none]
  simp

theorem exists_entry_of_nameAt? (named : table.nameAt? index = some name) :
    ∃ entry ∈ table.entries, entry.name = name ∧ entry.index = index := by
  obtain ⟨_, entry, _, cut, same, bound, _⟩ := nameAt?_eq_some_iff.mp named
  exact ⟨entry, by simp [cut], same, bound⟩

/-- Without repeated names, the label of an address is resolved to this
address. -/
theorem resolve?_of_nameAt? (distinct : table.Distinct)
    (named : table.nameAt? index = some name) :
    table.resolve? name = some index :=
  (resolve?_eq_some_iff distinct).mpr (exists_entry_of_nameAt? named)

end LabelTable

end MiniMips
