import MiniMips.Proofs.Assembly.ListingLines
import MiniMips.Proofs.Simulator.Consistency

/-!
Contract: the listings of a simulator.

Owns:
- the lines of the listings, which are a heading and one line for each token or
  instruction;
- that listings tell the tokens and the instructions that were assembled.

The two listings are cut apart at the heading of the second, which is not the
line of any token.
-/

namespace MiniMips.Simulator

variable {simulator other : Simulator}

theorem upToDate_of_preProcess
    (accepted : simulator.preProcess.result = .ok ()) :
    simulator.preProcess.simulator.UpToDate := by
  unfold preProcess at accepted ⊢
  cases assembles : assemble simulator.source with
  | error assemblyError =>
      rw [assembles] at accepted
      contradiction
  | ok assembled => exact upToDate_install assembles

/-! ## Lines -/

/-- Lines of the tokens. -/
def tokenLines (simulator : Simulator) : List (List Char) :=
  simulator.tokens.map (·.listingText.toList)

/-- Lines of the instructions. -/
def instructionLines (simulator : Simulator) : List (List Char) :=
  simulator.program.listingLines

/-- Lines of a listing of tokens. -/
def tokenListingLines (simulator : Simulator) : List (List Char) :=
  "TOKENS".toList :: simulator.tokenLines

/-- Lines of a listing of instructions. -/
def instructionListingLines (simulator : Simulator) : List (List Char) :=
  "INSTRUCTIONS".toList :: simulator.instructionLines

theorem toList_tokenListing (simulator : Simulator) :
    simulator.tokenListing.toList =
      simulator.tokenListingLines.flatMap (· ++ ['\n']) := by
  simp [tokenListing, tokenListingLines, tokenLines, List.flatMap_map]

theorem toList_instructionListing (simulator : Simulator) :
    simulator.instructionListing.toList =
      simulator.instructionListingLines.flatMap (· ++ ['\n']) := by
  rw [instructionListing, String.toList_append, Program.toList_listing]
  rfl

theorem toList_listing (simulator : Simulator) :
    simulator.listing.toList =
      (simulator.tokenListingLines ++
        simulator.instructionListingLines).flatMap (· ++ ['\n']) := by
  rw [listing, String.toList_append, toList_tokenListing,
    toList_instructionListing, List.flatMap_append]

theorem UpToDate.unbroken_tokenListing (upToDate : simulator.UpToDate) :
    ∀ line ∈ simulator.tokenListingLines, '\n' ∉ line := by
  obtain ⟨reads, _⟩ := assemble_eq_ok_iff.mp upToDate
  refine List.forall_mem_cons.mpr ⟨by decide, ?_⟩
  refine List.forall_mem_map.mpr fun token member => ?_
  exact Token.newline_not_mem_listingText reads member

theorem UpToDate.unbroken_instructionListing (upToDate : simulator.UpToDate) :
    ∀ line ∈ simulator.instructionListingLines, '\n' ∉ line :=
  List.forall_mem_cons.mpr
    ⟨by decide, Program.newline_not_mem_listingLines upToDate⟩

theorem UpToDate.linesOfText_tokenListing (upToDate : simulator.UpToDate) :
    linesOfText simulator.tokenListing.toList =
      simulator.tokenListingLines ++ [[]] := by
  rw [toList_tokenListing,
    linesOfText_flatMap_newline upToDate.unbroken_tokenListing]

theorem UpToDate.linesOfText_instructionListing
    (upToDate : simulator.UpToDate) :
    linesOfText simulator.instructionListing.toList =
      simulator.instructionListingLines ++ [[]] := by
  rw [toList_instructionListing,
    linesOfText_flatMap_newline upToDate.unbroken_instructionListing]

theorem UpToDate.linesOfText_listing (upToDate : simulator.UpToDate) :
    linesOfText simulator.listing.toList =
      simulator.tokenListingLines ++ simulator.instructionListingLines ++
        [[]] := by
  rw [toList_listing, linesOfText_flatMap_newline]
  exact List.forall_mem_append.mpr
    ⟨upToDate.unbroken_tokenListing, upToDate.unbroken_instructionListing⟩

/-- The heading of the instructions is not the line of a token, which is cut
into columns by blanks. -/
theorem heading_not_mem_tokenListingLines (simulator : Simulator) :
    "INSTRUCTIONS".toList ∉ simulator.tokenListingLines := by
  intro member
  rcases List.mem_cons.mp member with isHeading | among
  · exact absurd isHeading (by decide)
  · obtain ⟨token, _, line⟩ := List.mem_map.mp among
    have blank : ' ' ∈ token.listingText.toList := by
      rw [Token.toList_listingText]
      simp
    rw [line] at blank
    exact absurd blank (by decide)

/-! ## What listings tell -/

theorem UpToDate.tokens_eq (upToDate : simulator.UpToDate)
    (otherUpToDate : other.UpToDate)
    (same : simulator.tokenListingLines = other.tokenListingLines) :
    simulator.tokens = other.tokens := by
  obtain ⟨reads, _⟩ := assemble_eq_ok_iff.mp upToDate
  obtain ⟨otherReads, _⟩ := assemble_eq_ok_iff.mp otherUpToDate
  exact Token.eq_of_map_listingText_eq reads otherReads (List.cons.inj same).2

theorem UpToDate.instructions_eq (upToDate : simulator.UpToDate)
    (otherUpToDate : other.UpToDate)
    (same : simulator.instructionListingLines =
      other.instructionListingLines) :
    simulator.program.instructions = other.program.instructions :=
  Program.instructions_eq_of_listingLines_eq upToDate otherUpToDate
    (List.cons.inj same).2

/-- A listing is cut into its two parts at the heading of the second. -/
theorem UpToDate.listingLines_eq (upToDate : simulator.UpToDate)
    (otherUpToDate : other.UpToDate)
    (same : simulator.listing = other.listing) :
    simulator.tokenListingLines = other.tokenListingLines ∧
      simulator.instructionListingLines = other.instructionListingLines := by
  have lines := congrArg (fun text => linesOfText text.toList) same
  rw [upToDate.linesOfText_listing, otherUpToDate.linesOfText_listing] at lines
  obtain ⟨sameTokens, sameInstructions⟩ :=
    append_cons_inj simulator.heading_not_mem_tokenListingLines
      other.heading_not_mem_tokenListingLines (List.append_cancel_right lines)
  refine ⟨sameTokens, ?_⟩
  unfold instructionListingLines
  rw [sameInstructions]

/-- **Listings.**  The listing of tokens tells the tokens of a source, the
listing of instructions tells its instructions, and both together tell both.
Below its heading, each has one line for each token or instruction. -/
theorem listings_are_lossless (first second : Simulator)
    (accepted : first.preProcess.result = .ok ())
    (otherAccepted : second.preProcess.result = .ok ()) :
    let one := first.preProcess.simulator
    let other := second.preProcess.simulator
    (one.listing = other.listing →
      one.tokens = other.tokens ∧
        one.program.instructions = other.program.instructions) ∧
    (one.tokenListing = other.tokenListing → one.tokens = other.tokens) ∧
    (one.instructionListing = other.instructionListing →
      one.program.instructions = other.program.instructions) ∧
    (linesOfText one.tokenListing.toList =
        "TOKENS".toList :: (one.tokenLines ++ [[]]) ∧
      one.tokenLines.length = one.tokens.length) ∧
    linesOfText one.instructionListing.toList =
        "INSTRUCTIONS".toList :: (one.instructionLines ++ [[]]) ∧
      one.instructionLines.length = one.program.size := by
  intro one other
  have upToDate : one.UpToDate := upToDate_of_preProcess accepted
  have otherUpToDate : other.UpToDate := upToDate_of_preProcess otherAccepted
  refine ⟨fun same => ?_, fun same => ?_, fun same => ?_,
    ⟨upToDate.linesOfText_tokenListing, List.length_map _⟩,
    upToDate.linesOfText_instructionListing, List.length_mapIdx⟩
  · obtain ⟨sameTokens, sameInstructions⟩ :=
      upToDate.listingLines_eq otherUpToDate same
    exact ⟨upToDate.tokens_eq otherUpToDate sameTokens,
      upToDate.instructions_eq otherUpToDate sameInstructions⟩
  · have lines := congrArg (fun text => linesOfText text.toList) same
    rw [upToDate.linesOfText_tokenListing,
      otherUpToDate.linesOfText_tokenListing] at lines
    exact upToDate.tokens_eq otherUpToDate (List.append_cancel_right lines)
  · have lines := congrArg (fun text => linesOfText text.toList) same
    rw [upToDate.linesOfText_instructionListing,
      otherUpToDate.linesOfText_instructionListing] at lines
    exact upToDate.instructions_eq otherUpToDate
      (List.append_cancel_right lines)

/-- Two sources with other separators and comments, whose listing is the same.
The label is wider than its column. -/
theorem listings_are_lossless_spacing :
    let configuration : Configuration :=
      { Configuration.standard with memory := ⟨8, none⟩ }
    let first := new "loopThatNeverEnds:\nj 0" configuration
    let second := new "loopThatNeverEnds: # here\n\tj, 0" configuration
    let one := first.preProcess.simulator
    let other := second.preProcess.simulator
    one.tokens = other.tokens ∧
      one.program.instructions = other.program.instructions ∧
      one.tokenLines.length = 3 ∧ one.instructionLines.length = 1 := by
  intro configuration first second one other
  have same : one.listing = other.listing := by
    decide +kernel
  have counts : one.tokens.length = 3 ∧ one.program.size = 1 := by
    decide +kernel
  obtain ⟨told, _, _, ⟨_, tokenCount⟩, _, instructionCount⟩ :=
    listings_are_lossless first second (by decide +kernel) (by decide +kernel)
  obtain ⟨sameTokens, sameInstructions⟩ := told same
  exact ⟨sameTokens, sameInstructions, tokenCount.trans counts.1,
    instructionCount.trans counts.2⟩

end MiniMips.Simulator
