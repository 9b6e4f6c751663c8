import MiniMips.Configuration.Reading
import MiniMips.Proofs.Json.Library

/-!
Contract: documents that spell settings out.

Owns:
- values of fields, and fields that are left out because they have their
  standard value;
- the documents of settings, and that a lawful library decodes each of them into
  these settings.
-/

namespace MiniMips

namespace Json.Document

/-- Objects in which the two fields of a record are as they should be. -/
def SpellsRecord (first second : String)
    (isFirst isSecond : Option Document → Prop) (document : Document) : Prop :=
  ∃ members first? second?, document = .object members ∧
    Fields first second first? second? members ∧ isFirst first? ∧
    isSecond second?

variable {α : Type}

/-- A field that holds a value, and may be left out where this is the standard
one. -/
def SpellsField (spells : α → Document → Prop) (standard value : α) :
    Option Document → Prop
  | none => value = standard
  | some document => spells value document

/-- A value that may be missing. -/
def SpellsOptional (spells : α → Document → Prop) :
    Option α → Document → Prop
  | none, document => document = .null
  | some value, document => spells value document

def SpellsBoolean (value : Bool) (document : Document) : Prop :=
  document = .boolean value

def SpellsNatural (value : Nat) (document : Document) : Prop :=
  document = .number (some value)

def SpellsWord (value : Int32) (document : Document) : Prop :=
  document = .number (some value.toInt)

end Json.Document

open Json (Decoder Document RecordField Library)
open Json.Document (SpellsRecord SpellsField SpellsOptional SpellsBoolean
  SpellsNatural SpellsWord)

def GeneralSettings.Spells (settings : GeneralSettings) :
    Document → Prop :=
  SpellsRecord "trace_instructions" "max_steps"
    (SpellsField SpellsBoolean standard.traceInstructions
      settings.traceInstructions)
    (SpellsField (SpellsOptional SpellsNatural) standard.maxSteps?
      settings.maxSteps?)

def MemorySettings.Spells (settings : MemorySettings) : Document → Prop :=
  SpellsRecord "size_bytes" "initial_sp"
    (SpellsField SpellsNatural standard.sizeBytes settings.sizeBytes)
    (SpellsField (SpellsOptional SpellsWord) standard.initialStackPointer?
      settings.initialStackPointer?)

/-- Whether a document spells a configuration out. -/
def Configuration.Spells (configuration : Configuration) : Document → Prop :=
  SpellsRecord "general" "memory"
    (SpellsField GeneralSettings.Spells standard.general configuration.general)
    (SpellsField MemorySettings.Spells standard.memory configuration.memory)

/-- The numbers of a configuration fit into sixty-four bits. -/
structure Configuration.Fits (configuration : Configuration) : Prop where
  maxSteps : ∀ limit ∈ configuration.general.maxSteps?, limit < 2 ^ 64
  sizeBytes : configuration.memory.sizeBytes < 2 ^ 64

/-! ## Values -/

theorem Json.Document.SpellsField.value?_eq {α : Type} {field : RecordField α}
    {spells : α → Document → Prop} {value : α} {given? : Option Document}
    (spelled : SpellsField spells field.standard value given?)
    (decodes : ∀ document, spells value document →
      field.decoder document = some value) :
    field.value? given? = some value := by
  cases given? with
  | none => exact congrArg some (Eq.symm spelled)
  | some document => exact decodes document spelled

variable [Library] {document : Document}

namespace Json.Library.Lawful

variable {α : Type} {spells : α → Document → Prop} {decoder : Decoder α}

theorem boolean_of_spells (lawful : Lawful) {value : Bool}
    (spells : SpellsBoolean value document) :
    Library.boolean document = some value := by
  obtain rfl : document = .boolean value := spells
  exact lawful.boolean value

theorem natural_of_spells (lawful : Lawful) {value : Nat}
    (spells : SpellsNatural value document) (fits : value < 2 ^ 64) :
    Library.natural document = some value := by
  obtain rfl : document = .number (some value) := spells
  exact lawful.natural value fits

theorem word_of_spells (lawful : Lawful) {value : Int32}
    (spells : SpellsWord value document) :
    Library.word document = some value := by
  obtain rfl : document = .number (some value.toInt) := spells
  exact lawful.word value

theorem optional_of_spells (lawful : Lawful) {value? : Option α}
    (optional : SpellsOptional spells value? document)
    (notNull : ∀ value, ¬spells value .null)
    (decodes : ∀ value ∈ value?, spells value document →
      decoder document = some value) :
    Library.optional decoder document = some value? := by
  cases value? with
  | none =>
      obtain rfl : document = .null := optional
      exact lawful.optional_null decoder
  | some value =>
      have given : document ≠ .null := by
        rintro rfl
        exact notNull value optional
      rw [lawful.optional_value decoder given, decodes value rfl optional]
      rfl

/-- A record is decoded from the objects that spell its two fields out. -/
theorem record_of_spells (lawful : Lawful) {β : Type} {first : RecordField α}
    {second : RecordField β} {firstValue : α} {secondValue : β}
    {isFirst isSecond : Option Document → Prop}
    (spells : SpellsRecord first.name second.name isFirst isSecond document)
    (apart : first.name ≠ second.name)
    (firstDecoded : ∀ first?, isFirst first? →
      first.value? first? = some firstValue)
    (secondDecoded : ∀ second?, isSecond second? →
      second.value? second? = some secondValue) :
    Library.record first second document = some (firstValue, secondValue) := by
  obtain ⟨members, first?, second?, rfl, fields, holdsFirst, holdsSecond⟩ :=
    spells
  exact lawful.record_eq fields apart (firstDecoded first? holdsFirst)
    (secondDecoded second? holdsSecond)

end Json.Library.Lawful

/-! ## Settings -/

theorem GeneralSettings.decoder_of_spells (lawful : Library.Lawful)
    {settings : GeneralSettings} (spells : settings.Spells document)
    (fits : ∀ limit ∈ settings.maxSteps?, limit < 2 ^ 64) :
    decoder document = some settings := by
  have fields : Library.record traceInstructionsField maxStepsField document =
      some (settings.traceInstructions, settings.maxSteps?) := by
    have apart : "trace_instructions" ≠ "max_steps" := by decide
    refine lawful.record_of_spells spells apart ?_ ?_
    · exact fun _ spelled => spelled.value?_eq
        (fun _ holds => lawful.boolean_of_spells holds)
    · exact fun _ spelled => spelled.value?_eq
        (fun _ holds => lawful.optional_of_spells holds nofun
          (fun limit member value =>
            lawful.natural_of_spells value (fits limit member)))
  rw [decoder, fields]
  rfl

theorem MemorySettings.decoder_of_spells (lawful : Library.Lawful)
    {settings : MemorySettings} (spells : settings.Spells document)
    (fits : settings.sizeBytes < 2 ^ 64) :
    decoder document = some settings := by
  have fields : Library.record sizeBytesField initialStackPointerField
      document = some (settings.sizeBytes, settings.initialStackPointer?) := by
    have apart : "size_bytes" ≠ "initial_sp" := by decide
    refine lawful.record_of_spells spells apart ?_ ?_
    · exact fun _ spelled => spelled.value?_eq
        (fun _ holds => lawful.natural_of_spells holds fits)
    · exact fun _ spelled => spelled.value?_eq
        (fun _ holds => lawful.optional_of_spells holds nofun
          (fun _ _ value => lawful.word_of_spells value))
  rw [decoder, fields]
  rfl

/-- **Settings.**  A lawful library decodes each document that spells a
configuration out into this configuration. -/
theorem Configuration.decoder_of_spells (lawful : Library.Lawful)
    {configuration : Configuration} (fits : configuration.Fits)
    (spells : configuration.Spells document) :
    decoder document = some configuration := by
  have fields : Library.record generalField memoryField document =
      some (configuration.general, configuration.memory) := by
    have apart : "general" ≠ "memory" := by decide
    refine lawful.record_of_spells spells apart ?_ ?_
    · exact fun _ spelled => spelled.value?_eq
        (fun _ holds => GeneralSettings.decoder_of_spells lawful holds
          fits.maxSteps)
    · exact fun _ spelled => spelled.value?_eq
        (fun _ holds => MemorySettings.decoder_of_spells lawful holds
          fits.sizeBytes)
  rw [decoder, fields]
  rfl

end MiniMips
