import MiniMips.Proofs.Simulator.Answers

/-!
Contract: where the source of a simulator comes from, and which file name it
keeps.

Owns:
- what a history says about the source: the text that it was replaced by last,
  and the file of that text, if it came from one;
- that a simulator keeps the name of the file that was loaded last, also where
  its source has been set to another text since.
-/

namespace MiniMips

/-- A text, and the file that it was read from, if it was. -/
structure Provenance where
  text : String
  path? : Option String
deriving DecidableEq

namespace Call

/-- What a call replaces the source by, if it replaces it. -/
def replacement? : Call → Option Provenance
  | .setSource source => some ⟨source, none⟩
  | .loadFile files path =>
      match files path with
      | none => none
      | some text => some ⟨text, some path⟩
  | .reset | .preProcess | .run _ | .step | .clearLog => none

/-- The file that a call loads, if it loads one. -/
def loaded? (call : Call) : Option String :=
  call.replacement?.bind (·.path?)

end Call

namespace Simulator

/-- Where the source comes from after calls on a new simulator. -/
def provenance (source : String) (calls : List Call) : Provenance :=
  (calls.reverse.findSome? Call.replacement?).getD ⟨source, none⟩

/-- The file that was loaded last by calls, if one was loaded. -/
def lastLoaded? (calls : List Call) : Option String :=
  calls.reverse.findSome? Call.loaded?

variable {configuration : Configuration} {simulator : Simulator} {call : Call}
  {response : Response} {source : String} {calls : List Call}

@[simp] theorem provenance_append (source : String) (calls : List Call)
    (call : Call) :
    provenance source (calls ++ [call]) =
      call.replacement?.getD (provenance source calls) := by
  unfold provenance
  rw [List.reverse_append, List.findSome?_append]
  cases replaced : call.replacement? with
  | none => simp [replaced]
  | some replacement => simp [replaced]

@[simp] theorem lastLoaded?_append (calls : List Call) (call : Call) :
    lastLoaded? (calls ++ [call]) = call.loaded?.or (lastLoaded? calls) := by
  unfold lastLoaded?
  rw [List.reverse_append, List.findSome?_append]
  cases loaded : call.loaded? with
  | none => simp [loaded]
  | some path => simp [loaded]

theorem Answered.source_and_fileName
    (answered : Answered simulator call response) :
    response.simulator.source =
        (call.replacement?.map (·.text)).getD simulator.source ∧
      response.simulator.fileName? =
        call.loaded?.or simulator.fileName? := by
  cases answered with
  | sourceSet text => exact ⟨rfl, rfl⟩
  | fileLoaded found =>
      simp only [Call.loaded?, Call.replacement?, found]
      exact ⟨rfl, rfl⟩
  | fileMissing missing =>
      simp only [Call.loaded?, Call.replacement?, missing]
      exact ⟨rfl, rfl⟩
  | reset => exact ⟨rfl, rfl⟩
  | installed assembles => exact ⟨rfl, rfl⟩
  | notInstalled refused => exact ⟨rfl, rfl⟩
  | ran assembles ends => exact ⟨rfl, rfl⟩
  | notRun refused => exact ⟨rfl, rfl⟩
  | pastEnd prepared past =>
      rw [prepared.frame]
      exact ⟨rfl, rfl⟩
  | faulted prepared inside faults =>
      rw [prepared.frame]
      exact ⟨rfl, rfl⟩
  | stepped prepared inside executed =>
      rw [prepared.frame]
      exact ⟨rfl, rfl⟩
  | notStepped resting refused => exact ⟨rfl, rfl⟩
  | logCleared => exact ⟨rfl, rfl⟩

theorem source_and_fileName_of_after?
    (history : (new source configuration).after? calls = some simulator) :
    simulator.source = (provenance source calls).text ∧
      simulator.fileName? = lastLoaded? calls := by
  apply after?_induction (motive := fun past reached =>
    reached.source = (provenance source past).text ∧
      reached.fileName? = lastLoaded? past) _ _ history
  · exact ⟨rfl, rfl⟩
  · rintro past before call response ⟨sameSource, sameFile⟩ answered
    obtain ⟨nextSource, nextFile⟩ := answered.source_and_fileName
    rw [nextSource, nextFile, provenance_append, lastLoaded?_append,
      sameSource, sameFile]
    refine ⟨?_, rfl⟩
    cases call.replacement? <;> rfl

theorem lastLoaded?_of_provenance {path : String}
    (fromFile : (provenance source calls).path? = some path) :
    lastLoaded? calls = some path := by
  unfold provenance at fromFile
  unfold lastLoaded?
  -- The induction goes back from the latest call, as both searches do.
  generalize calls.reverse = latestFirst at fromFile ⊢
  induction latestFirst with
  | nil => contradiction
  | cons latest earlier inductionHypothesis =>
      rw [List.findSome?_cons] at fromFile ⊢
      unfold Call.loaded?
      cases replaced : latest.replacement? with
      | none =>
          rw [replaced] at fromFile
          exact inductionHypothesis fromFile
      | some replacement =>
          rw [replaced] at fromFile
          have loaded : replacement.path? = some path := fromFile
          simp only [Option.bind_some, loaded]

/-- **File names.**  A simulator keeps the name of the file that was loaded
last.  This is where its source comes from, except where the source has been
set to a text since. -/
theorem fileName_eq_lastLoaded (configuration : Configuration)
    (source : String) (calls : List Call) (simulator : Simulator)
    (history : (new source configuration).after? calls = some simulator) :
    simulator.source = (provenance source calls).text ∧
    simulator.fileName? = lastLoaded? calls ∧
    (simulator.fileName? = (provenance source calls).path? ↔
      ¬((provenance source calls).path? = none ∧
        (lastLoaded? calls).isSome)) := by
  obtain ⟨sameSource, sameFile⟩ := source_and_fileName_of_after? history
  refine ⟨sameSource, sameFile, ?_⟩
  rw [sameFile]
  cases fromFile : (provenance source calls).path? with
  | none => cases lastLoaded? calls <;> simp
  | some path => simp [lastLoaded?_of_provenance fromFile]

theorem fileName_eq_lastLoaded_stepped :
    ∃ simulator,
      (new "" { Configuration.standard with memory := ⟨8, none⟩ }).after?
        [.setSource "break", .loadFile (fun _ => some "nop\n") "a.s",
          .step] = some simulator ∧
      simulator.source = "nop\n" ∧
      simulator.fileName? = some "a.s" := by
  have answered : ((new "" { Configuration.standard with
      memory := ⟨8, none⟩ }).after?
        [.setSource "break", .loadFile (fun _ => some "nop\n") "a.s",
          .step]).isSome := by
    decide +kernel
  obtain ⟨simulator, history⟩ := Option.isSome_iff_exists.mp answered
  obtain ⟨sameSource, sameFile, _⟩ :=
    fileName_eq_lastLoaded _ _ _ simulator history
  exact ⟨simulator, history, sameSource, sameFile⟩

/-- The file name is not always the one of the source: setting the source does
not clear it. -/
theorem fileName_ne_provenance :
    ¬∀ (configuration : Configuration) (source : String) (calls : List Call)
      (simulator : Simulator),
      (new source configuration).after? calls = some simulator →
        simulator.fileName? = (provenance source calls).path? := by
  intro law
  have kept := law Configuration.standard ""
    [.loadFile (fun _ => some "nop\n") "a.s", .setSource "nop"] _ rfl
  contradiction

end Simulator

end MiniMips
