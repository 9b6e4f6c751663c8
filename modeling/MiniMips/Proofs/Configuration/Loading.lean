import MiniMips.Machine.State
import MiniMips.Proofs.Configuration.Spelling
import MiniMips.Proofs.Json.Decoding
import MiniMips.Proofs.Machine.Changes
import MiniMips.Simulator.Loading

/-!
Contract: configurations that are loaded from texts.

Owns:
- the texts of a configuration;
- usable settings of the memory, and the check for them;
- what loading with a lawful library answers to each text of a configuration;
- the memory and the stack pointer of a machine whose configuration was loaded,
  with whatever library.
-/

namespace MiniMips

open Json (Document Library TextPiece Token documentLibrary_lawful)

/-- Whether a text spells a configuration out, nested no deeper than a limit. -/
def Configuration.SpelledBy (configuration : Configuration) (limit : Nat)
    (text : String) : Prop :=
  ∃ document, configuration.Spells document ∧ document.depth ≤ limit ∧
    Token.Spaced document.tokens text.toList

/-- The end of the memory is a signed word, and the stack pointer is in the
memory or at its end. -/
structure MemorySettings.Usable (settings : MemorySettings) : Prop where
  size : settings.sizeBytes ≤ 0x7FFFFFFF
  stackPointer : ∀ pointer ∈ settings.initialStackPointer?,
    0 ≤ pointer.toInt ∧ pointer.toInt ≤ settings.sizeBytes

/-! ## Checking -/

namespace MemorySettings

variable {settings : MemorySettings} {pointer : Int32}

theorem validate_of_large (large : 0x7FFFFFFF < settings.sizeBytes) :
    settings.validate = .error (.memoryTooLarge settings.sizeBytes) :=
  if_pos large

theorem validate_of_outside (small : settings.sizeBytes ≤ 0x7FFFFFFF)
    (set : settings.initialStackPointer? = some pointer)
    (outside : ¬(0 ≤ pointer.toInt ∧ pointer.toInt ≤ settings.sizeBytes)) :
    settings.validate =
      .error (.stackPointerOutOfRange pointer settings.sizeBytes) := by
  have notLarge : ¬largestSize < settings.sizeBytes := Nat.not_lt.mpr small
  have notHeld : settings.holdsStackPointer pointer = false :=
    decide_eq_false outside
  simp only [validate, if_neg notLarge, set, notHeld, Bool.false_eq_true,
    if_false]

theorem Usable.validate_eq (usable : settings.Usable) :
    settings.validate = .ok () := by
  have notLarge : ¬largestSize < settings.sizeBytes :=
    Nat.not_lt.mpr usable.size
  cases set : settings.initialStackPointer? with
  | none => simp only [validate, if_neg notLarge, set]
  | some pointer =>
      have held : settings.holdsStackPointer pointer = true :=
        decide_eq_true (usable.stackPointer pointer set)
      simp only [validate, if_neg notLarge, set, held, if_true]

theorem validate_eq_ok_iff : settings.validate = .ok () ↔ settings.Usable := by
  refine ⟨fun accepted => ?_, Usable.validate_eq⟩
  have small : settings.sizeBytes ≤ 0x7FFFFFFF := by
    by_contra large
    rw [validate_of_large (Nat.not_le.mp large)] at accepted
    cases accepted
  refine ⟨small, fun pointer set => ?_⟩
  by_contra outside
  rw [validate_of_outside small set outside] at accepted
  cases accepted

/-- The end of a usable memory is itself the standard stack pointer. -/
theorem Usable.toInt_stackPointer (usable : settings.Usable) :
    settings.stackPointer.toInt =
      (settings.initialStackPointer?.map Int32.toInt).getD
        settings.sizeBytes := by
  have small : settings.sizeBytes ≤ largestSize := usable.size
  rw [MemorySettings.stackPointer]
  cases settings.initialStackPointer? with
  | some pointer => rfl
  | none =>
      rw [Option.getD_none, Option.map_none, Option.getD_none,
        Nat.min_eq_left small]
      exact Int32.toInt_ofNat_of_lt (Nat.lt_succ_of_le usable.size)

theorem Usable.stackPointer_mem (usable : settings.Usable) :
    0 ≤ settings.stackPointer.toInt ∧
      settings.stackPointer.toInt ≤ settings.sizeBytes := by
  rw [usable.toInt_stackPointer]
  cases set : settings.initialStackPointer? with
  | none => exact ⟨Int.natCast_nonneg _, Int.le_refl _⟩
  | some pointer => exact usable.stackPointer pointer set

end MemorySettings

/-! ## Loading -/

theorem Machine.stackPointer_fresh (configuration : Configuration) :
    (Machine.fresh configuration).registers.read Register.stackPointer =
      configuration.memory.stackPointer := by
  rw [RegisterFile.read, if_neg (by decide), Machine.fresh,
    RegisterFile.get_write, if_pos (by decide)]

namespace Configuration

section

variable [Library] {configuration : Configuration} {text : String}

theorem load_of_fault {fault : ConfigurationFault}
    (found : ofText? text = some configuration)
    (refused : configuration.memory.validate = .error fault) :
    load text = .error (.invalidConfiguration fault) := by
  simp only [load, found, validate, refused]

theorem load_eq_ok_iff :
    load text = .ok configuration ↔
      ofText? text = some configuration ∧ configuration.memory.Usable := by
  rw [← MemorySettings.validate_eq_ok_iff, load]
  cases ofText? text with
  | none => simp
  | some found =>
      cases checked : found.memory.validate with
      | error fault =>
          simp only [validate, checked]
          constructor
          · nofun
          · rintro ⟨⟨⟩, accepted⟩
            rw [checked] at accepted
            cases accepted
      | ok =>
          simp only [validate, checked]
          constructor
          · rintro ⟨⟩
            exact ⟨rfl, checked⟩
          · rintro ⟨⟨⟩, _⟩
            rfl

theorem SpelledBy.ofText?_eq (lawful : Library.Lawful)
    (spelled : configuration.SpelledBy Library.depthLimit text)
    (fits : configuration.Fits) : ofText? text = some configuration := by
  obtain ⟨document, spells, shallow, spaced⟩ := spelled
  rw [ofText?, lawful.fromText decoder shallow spaced,
    decoder_of_spells lawful fits spells]

/-- **Loading.**  With a lawful library, a configuration is loaded from each
text that spells it out if the settings of its memory are usable.  Otherwise
the size of the memory is at fault if it is too large, and the stack pointer if
it is not.  Whatever configuration was loaded, its machine has a memory of the
size that was set and starts with the stack pointer that was set, or else with
the end of this memory. -/
theorem load_spelled_out :
    (Library.Lawful → ∀ (configuration : Configuration) (text : String),
      configuration.Fits →
      configuration.SpelledBy Library.depthLimit text →
        (configuration.memory.Usable → load text = .ok configuration) ∧
        (0x7FFFFFFF < configuration.memory.sizeBytes →
          load text = .error (.invalidConfiguration
            (.memoryTooLarge configuration.memory.sizeBytes))) ∧
        (configuration.memory.sizeBytes ≤ 0x7FFFFFFF →
          ¬configuration.memory.Usable →
          ∃ pointer, configuration.memory.initialStackPointer? = some pointer ∧
            load text = .error (.invalidConfiguration
              (.stackPointerOutOfRange pointer
                configuration.memory.sizeBytes)))) ∧
    ∀ (text : String) (configuration : Configuration),
      load text = .ok configuration →
      let machine := Machine.fresh configuration
      let pointer := (machine.registers.read Register.stackPointer).toInt
      machine.memory.size = configuration.memory.sizeBytes ∧
        pointer = (configuration.memory.initialStackPointer?.map
          Int32.toInt).getD configuration.memory.sizeBytes ∧
        0 ≤ pointer ∧ pointer ≤ machine.memory.size := by
  constructor
  · intro lawful configuration text fits spelled
    have found := spelled.ofText?_eq lawful fits
    refine ⟨fun usable => load_eq_ok_iff.mpr ⟨found, usable⟩,
      fun large => load_of_fault found (MemorySettings.validate_of_large large),
      fun small unusable => ?_⟩
    obtain ⟨pointer, set, outside⟩ :
        ∃ pointer ∈ configuration.memory.initialStackPointer?,
          ¬(0 ≤ pointer.toInt ∧
            pointer.toInt ≤ configuration.memory.sizeBytes) := by
      by_contra! inside
      exact unusable ⟨small, inside⟩
    have refused := MemorySettings.validate_of_outside small set outside
    exact ⟨pointer, set, load_of_fault found refused⟩
  · intro text configuration loaded machine pointer
    obtain ⟨_, usable⟩ := load_eq_ok_iff.mp loaded
    have size : machine.memory.size = configuration.memory.sizeBytes :=
      Memory.size_zeroed _
    have same : pointer = configuration.memory.stackPointer.toInt :=
      congrArg Int32.toInt (Machine.stackPointer_fresh configuration)
    rw [size, same]
    exact ⟨rfl, usable.toInt_stackPointer, usable.stackPointer_mem⟩

end

/-- With documents as trees: settings of the memory with an escaped key, another
member and the fields in the other order; a memory that is too large; and a
stack pointer behind the standard memory. -/
theorem load_spelled_out_memory :
    let text := " \x7b\"\\u006demory\": \x7b\"initial_sp\":4092," ++
      "\"note\":[1e2,\"\\ud800\"],\n\"size_bytes\" :4096\x7d\x7d"
    let large := "\x7b\"memory\":\x7b\"size_bytes\":2147483648\x7d\x7d"
    let outside := "\x7b\"memory\":\x7b\"initial_sp\":65537\x7d\x7d"
    let configuration : Configuration := ⟨⟨false, none⟩, ⟨4096, some 4092⟩⟩
    load text = .ok configuration ∧
      ((Machine.fresh configuration).registers.read
        Register.stackPointer).toInt = 4092 ∧
      load large = .error (.invalidConfiguration (.memoryTooLarge 2147483648)) ∧
      load outside = .error
        (.invalidConfiguration (.stackPointerOutOfRange 65537 65536)) := by
  intro text large outside configuration
  obtain ⟨accepts, starts⟩ := load_spelled_out
  have plain := fun name : String => TextPiece.Denotes.plain name.toList
  -- Each text holds the settings of the memory and nothing else.
  have answers := fun settings document key text fits
      (named : TextPiece.Denotes key "memory".toList)
      (spells : MemorySettings.Spells settings document)
      (shallow : (Document.object [(key, document)]).depth ≤ 127)
      (cut : Token.split? text.toList =
        some (Document.object [(key, document)]).tokens) =>
    accepts documentLibrary_lawful ⟨⟨false, none⟩, settings⟩ text ⟨nofun, fits⟩
      ⟨_, ⟨_, none, some document, rfl, .second named .nil, rfl, spells⟩,
        shallow, Token.spaced_of_split? cut⟩
  have loaded : load text = .ok configuration := by
    refine (answers ⟨4096, some 4092⟩
      (.object [("initial_sp".toList.map .character, .number (some 4092)),
        ("note".toList.map .character,
          .array [.number none, .string [.codeUnit 0xD800]]),
        ("size_bytes".toList.map .character, .number (some 4096))])
      (.codeUnit 'm'.toNat :: "emory".toList.map .character) text (by decide)
      (.unit 'm' (by decide) (plain "emory")) ?_ (by decide)
      (by decide +kernel)).1 ?_
    · exact ⟨_, some _, some _, rfl,
        .second (plain "initial_sp")
          (.other ⟨_, plain "note", by decide, by decide⟩
            (.first (plain "size_bytes") .nil)), rfl, rfl⟩
    · refine ⟨by decide, ?_⟩
      rintro _ ⟨⟩
      decide
  refine ⟨loaded, (starts text configuration loaded).2.1, ?_, ?_⟩
  · refine (answers ⟨2147483648, none⟩
      (.object [("size_bytes".toList.map .character,
        .number (some 2147483648))])
      ("memory".toList.map .character) large (by decide) (plain "memory") ?_
      (by decide) (by decide +kernel)).2.1 (by decide)
    exact ⟨_, some _, none, rfl, .first (plain "size_bytes") .nil, rfl, rfl⟩
  · obtain ⟨_, ⟨⟩, refused⟩ := (answers ⟨65536, some 65537⟩
      (.object [("initial_sp".toList.map .character, .number (some 65537))])
      ("memory".toList.map .character) outside (by decide) (plain "memory")
      ⟨_, none, some _, rfl, .second (plain "initial_sp") .nil, rfl, rfl⟩
      (by decide) (by decide +kernel)).2.2 (by decide)
      (fun usable => absurd (usable.stackPointer _ rfl) (by decide))
    exact refused

end Configuration

end MiniMips
