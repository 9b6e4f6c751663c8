import Mathlib.Data.List.Chain
import MiniMips.Proofs.Assembly.Operands

/-!
Contract: the items that operand tokens are made of.

Owns:
- the items with the token kinds and the operand of each;
- which lists of items are undivided, so that every number belongs to a
  parenthesis that follows it;
- that token kinds are grouped exactly where they are items one after the
  other, and into the operands of the only undivided list of them;
- the token kinds of the operands, which are the given ones with every missing
  offset put in.
-/

namespace MiniMips

/-- One item of an operand list as it is written. -/
inductive OperandItem where
  | register (index : UInt8)
  | immediate (value : Int32)
  | symbol (name : String)
  /-- A register in parentheses, with a number before them. -/
  | offsetMemory (offset : Int32) (base : UInt8)
  /-- A register in parentheses alone. -/
  | bareMemory (base : UInt8)
deriving DecidableEq, Repr

namespace OperandItem

def kinds : OperandItem → List TokenKind
  | .register index => [.register index]
  | .immediate value => [.immediate value]
  | .symbol name => [.symbol name]
  | .offsetMemory offset base =>
      [.immediate offset, .openParenthesis, .register base, .closeParenthesis]
  | .bareMemory base => [.openParenthesis, .register base, .closeParenthesis]

def operand : OperandItem → Operand
  | .register index => .register index
  | .immediate value => .immediate value
  | .symbol name => .symbol name
  | .offsetMemory offset base => .memory offset base
  | .bareMemory base => .memory 0 base

/-- Whether two items may stand side by side.  A number and a bare memory
operand may not, since the two are written like one operand with an offset. -/
def MayPrecede : OperandItem → OperandItem → Prop
  | .immediate _, .bareMemory _ => False
  | _, _ => True

/-- Every number directly before a parenthesis is the offset of an item. -/
def Undivided (items : List OperandItem) : Prop :=
  items.IsChain MayPrecede

variable {items others : List OperandItem} {item : OperandItem}
  {kinds : List TokenKind} {operands : List Operand}

theorem head?_flatMap_kinds :
    (items.flatMap OperandItem.kinds).head? = some .openParenthesis ↔
      ∃ base rest, items = .bareMemory base :: rest := by
  cases items with
  | nil => simp
  | cons item items => cases item <;> simp [OperandItem.kinds]

theorem undivided_immediate_iff {value : Int32} :
    Undivided (.immediate value :: items) ↔
      (items.flatMap OperandItem.kinds).head? ≠ some .openParenthesis ∧
        Undivided items := by
  rw [Undivided, List.isChain_cons, Ne, head?_flatMap_kinds]
  refine and_congr_left' ?_
  cases items with
  | nil => simp
  | cons item items => cases item <;> simp [MayPrecede]

/-- Written operands are an undivided list of items. -/
theorem exists_undivided (written : Operand.Written kinds operands) :
    ∃ items, Undivided items ∧ kinds = items.flatMap OperandItem.kinds ∧
      operands = items.map operand := by
  have chain : ∀ {item items}, Undivided items →
      (∀ next ∈ items.head?, MayPrecede item next) →
      Undivided (item :: items) :=
    fun undivided apart => List.isChain_cons.mpr ⟨apart, undivided⟩
  induction written with
  | nil => exact ⟨[], .nil, rfl, rfl⟩
  | register index others inductionHypothesis =>
      obtain ⟨items, undivided, rfl, rfl⟩ := inductionHypothesis
      exact ⟨.register index :: items, chain undivided (by simp [MayPrecede]),
        rfl, rfl⟩
  | immediate value noOffset others inductionHypothesis =>
      obtain ⟨items, undivided, rfl, rfl⟩ := inductionHypothesis
      exact ⟨.immediate value :: items,
        undivided_immediate_iff.mpr ⟨noOffset, undivided⟩, rfl, rfl⟩
  | symbol name others inductionHypothesis =>
      obtain ⟨items, undivided, rfl, rfl⟩ := inductionHypothesis
      exact ⟨.symbol name :: items, chain undivided (by simp [MayPrecede]),
        rfl, rfl⟩
  | memory offset base others inductionHypothesis =>
      obtain ⟨items, undivided, rfl, rfl⟩ := inductionHypothesis
      exact ⟨.offsetMemory offset base :: items,
        chain undivided (by simp [MayPrecede]), rfl, rfl⟩
  | bareMemory base others inductionHypothesis =>
      obtain ⟨items, undivided, rfl, rfl⟩ := inductionHypothesis
      exact ⟨.bareMemory base :: items,
        chain undivided (by simp [MayPrecede]), rfl, rfl⟩

/-- Items one after the other are operands, also where a number has to be
joined with the parenthesis behind it. -/
theorem exists_written (items : List OperandItem) :
    ∃ operands, Operand.Written (items.flatMap OperandItem.kinds) operands := by
  induction items with
  | nil => exact ⟨[], .nil⟩
  | cons item items inductionHypothesis =>
      obtain ⟨operands, others⟩ := inductionHypothesis
      cases item with
      | register index => exact ⟨_, .register index others⟩
      | immediate value =>
          by_cases opens : (items.flatMap OperandItem.kinds).head? =
              some .openParenthesis
          · obtain ⟨base, rest, rfl⟩ := head?_flatMap_kinds.mp opens
            cases others with
            | bareMemory _ others => exact ⟨_, .memory value base others⟩
          · exact ⟨_, .immediate value opens others⟩
      | symbol name => exact ⟨_, .symbol name others⟩
      | offsetMemory offset base => exact ⟨_, .memory offset base others⟩
      | bareMemory base => exact ⟨_, .bareMemory base others⟩

/-- A number alone is told apart from one with a parenthesis behind it. -/
theorem flatMap_immediate_ne {value offset : Int32} {base : UInt8}
    (undivided : Undivided (.immediate value :: items)) :
    (OperandItem.immediate value :: items).flatMap OperandItem.kinds ≠
      (.offsetMemory offset base :: others).flatMap OperandItem.kinds := by
  intro same
  have rest : items.flatMap OperandItem.kinds =
      [.openParenthesis, .register base, .closeParenthesis] ++
        others.flatMap OperandItem.kinds :=
    (List.cons.inj same).2
  refine (undivided_immediate_iff.mp undivided).1 ?_
  rw [rest]
  rfl

theorem Undivided.cons_inj {other : OperandItem}
    (undivided : Undivided (item :: items))
    (otherUndivided : Undivided (other :: others))
    (same : (item :: items).flatMap OperandItem.kinds =
      (other :: others).flatMap OperandItem.kinds) :
    item = other ∧
      items.flatMap OperandItem.kinds = others.flatMap OperandItem.kinds := by
  cases item <;> cases other
  case immediate.offsetMemory =>
    exact absurd same (flatMap_immediate_ne undivided)
  case offsetMemory.immediate =>
    exact absurd same.symm (flatMap_immediate_ne otherUndivided)
  all_goals simp_all [OperandItem.kinds]

/-- Undivided lists of items that are written alike are the same. -/
theorem Undivided.unique (undivided : Undivided items)
    (otherUndivided : Undivided others)
    (same : items.flatMap OperandItem.kinds =
      others.flatMap OperandItem.kinds) : items = others := by
  induction items generalizing others with
  | nil =>
      cases others with
      | nil => rfl
      | cons other others => cases other <;> simp [OperandItem.kinds] at same
  | cons item items inductionHypothesis =>
      cases others with
      | nil => cases item <;> simp [OperandItem.kinds] at same
      | cons other others =>
          obtain ⟨rfl, sameRest⟩ := undivided.cons_inj otherUndivided same
          have rest := inductionHypothesis (List.isChain_cons.mp undivided).2
            (List.isChain_cons.mp otherUndivided).2 sameRest
          rw [rest]

end OperandItem

namespace Operand

/-- Token kinds with a zero put in before every parenthesis that has no number
before it. -/
def withOffsets : List TokenKind → List TokenKind
  | [] => []
  | .immediate offset :: .openParenthesis :: rest =>
      .immediate offset :: .openParenthesis :: withOffsets rest
  | .openParenthesis :: rest =>
      .immediate 0 :: .openParenthesis :: withOffsets rest
  | kind :: rest => kind :: withOffsets rest

/-- Written out again, operands have the token kinds that they were grouped
from, and an offset wherever there was none. -/
theorem Written.flatMap_tokenKinds {kinds : List TokenKind}
    {operands : List Operand} (written : Written kinds operands) :
    operands.flatMap tokenKinds = withOffsets kinds := by
  induction written with
  | nil => rfl
  | register index others inductionHypothesis
  | symbol name others inductionHypothesis
  | memory offset base others inductionHypothesis
  | bareMemory base others inductionHypothesis =>
      simp [tokenKinds, withOffsets, inductionHypothesis]
  | @immediate kinds operands value noOffset others inductionHypothesis =>
      rw [List.flatMap_cons, inductionHypothesis, withOffsets]
      · rfl
      · rintro offset rest - rfl
        exact noOffset rfl
      · simp

/-- **Items.**  Tokens are grouped exactly where their kinds are those of items
one after the other: a register, a number, a symbol, or a register in
parentheses with or without a number before them.  The operands are those of
the items, one for each, where every number directly before a parenthesis is
taken for an offset; there is only one such list of items.  Written out again,
the operands have the kinds of the tokens, with a zero put in where an offset is
missing. -/
theorem ofTokens?_groups_items (tokens : List Token) :
    ((∃ operands, ofTokens? tokens = some operands) ↔
      ∃ items : List OperandItem,
        tokens.map Token.kind = items.flatMap OperandItem.kinds) ∧
    (ofTokens? tokens = none ↔
      ∀ items : List OperandItem,
        tokens.map Token.kind ≠ items.flatMap OperandItem.kinds) ∧
    (∀ operands, ofTokens? tokens = some operands →
      (∃! items, OperandItem.Undivided items ∧
        tokens.map Token.kind = items.flatMap OperandItem.kinds) ∧
      (∀ items, OperandItem.Undivided items →
        tokens.map Token.kind = items.flatMap OperandItem.kinds →
        operands = items.map OperandItem.operand) ∧
      operands.flatMap tokenKinds = withOffsets (tokens.map Token.kind)) := by
  have grouped : (∃ operands, ofTokens? tokens = some operands) ↔
      ∃ items : List OperandItem,
        tokens.map Token.kind = items.flatMap OperandItem.kinds := by
    constructor
    · rintro ⟨operands, grouped⟩
      obtain ⟨items, _, kinds, _⟩ :=
        OperandItem.exists_undivided (ofKinds?_eq_some_iff.mp grouped)
      exact ⟨items, kinds⟩
    · rintro ⟨items, kinds⟩
      obtain ⟨operands, written⟩ := OperandItem.exists_written items
      rw [← kinds] at written
      exact ⟨operands, ofKinds?_eq_some_iff.mpr written⟩
  refine ⟨grouped, ?_, ?_⟩
  · rw [← not_exists, ← grouped, Option.eq_none_iff_forall_ne_some, not_exists]
  · intro operands grouped
    have written := ofKinds?_eq_some_iff.mp grouped
    obtain ⟨items, undivided, kinds, same⟩ :=
      OperandItem.exists_undivided written
    refine ⟨⟨items, ⟨undivided, kinds⟩, ?_⟩, ?_, written.flatMap_tokenKinds⟩
    · rintro others ⟨otherUndivided, otherKinds⟩
      exact otherUndivided.unique undivided (otherKinds.symm.trans kinds)
    · intro others otherUndivided otherKinds
      rw [otherUndivided.unique undivided (otherKinds.symm.trans kinds), same]

/-- A number with two bare memory operands behind it can be written like this,
but is grouped with the first of them. -/
theorem ofTokens?_groups_items_offset :
    let tokens : List Token :=
      [⟨.immediate 4, "4", 1⟩, ⟨.openParenthesis, "(", 1⟩,
        ⟨.register 29, "$sp", 1⟩, ⟨.closeParenthesis, ")", 1⟩,
        ⟨.openParenthesis, "(", 1⟩, ⟨.register 8, "$t0", 1⟩,
        ⟨.closeParenthesis, ")", 1⟩]
    tokens.map Token.kind =
        [OperandItem.immediate 4, .bareMemory 29, .bareMemory 8].flatMap
          OperandItem.kinds ∧
      ofTokens? tokens = some [.memory 4 29, .memory 0 8] := by
  intro tokens
  obtain ⟨grouped, _, results⟩ := ofTokens?_groups_items tokens
  obtain ⟨operands, found⟩ := grouped.mpr
    ⟨[.immediate 4, .bareMemory 29, .bareMemory 8], rfl⟩
  obtain ⟨_, ofItems, _⟩ := results operands found
  refine ⟨rfl, ?_⟩
  rw [found, ofItems [.offsetMemory 4 29, .bareMemory 8] ?_ rfl]
  · rfl
  · exact List.isChain_pair.mpr trivial

end Operand

end MiniMips
