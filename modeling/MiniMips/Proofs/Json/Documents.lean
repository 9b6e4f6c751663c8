import MiniMips.Json.Reading
import MiniMips.Proofs.Json.Grammar
import MiniMips.Proofs.Json.Spelling

/-!
Contract: reading JSON documents.

Owns:
- induction on documents, through the items of arrays and the members of
  objects;
- that reading the tokens of a document gives the document back;
- the tokens that a reader has taken, which it remembers;
- that a document is read from each of its texts and from no other text.
-/

namespace MiniMips.Json

namespace Document

/-- What holds of the parts of every document holds of every document. -/
theorem induct {motive : Document → Prop} (null : motive .null)
    (boolean : ∀ value, motive (.boolean value))
    (number : ∀ denoted?, motive (.number denoted?))
    (string : ∀ pieces, motive (.string pieces))
    (array : ∀ items, (∀ item ∈ items, motive item) → motive (.array items))
    (object : ∀ members, (∀ member ∈ members, motive member.2) →
      motive (.object members)) (document : Document) : motive document :=
  -- The motives for rows of items, rows of members, and a member.
  @Document.rec motive (fun items => ∀ item ∈ items, motive item)
    (fun members => ∀ member ∈ members, motive member.2)
    (fun member => motive member.2)
    null boolean number string array object
    (by simp) (fun _ _ first others => List.forall_mem_cons.mpr ⟨first, others⟩)
    (by simp) (fun _ _ first others => List.forall_mem_cons.mpr ⟨first, others⟩)
    (fun _ _ holds => holds) document

/-- The tokens of a member of an object. -/
def keyedTokens (member : List TextPiece × Document) : List Token :=
  .string member.1 :: .colon :: member.2.tokens

theorem rows_eq (items : List Document) : rows items = items.map tokens := by
  induction items with
  | nil => rfl
  | cons item items inductionHypothesis =>
      rw [rows, inductionHypothesis, List.map_cons]

theorem keyedRows_eq (members : List (List TextPiece × Document)) :
    keyedRows members = members.map keyedTokens := by
  induction members with
  | nil => rfl
  | cons member members inductionHypothesis =>
      rw [keyedRows, inductionHypothesis, List.map_cons, keyedTokens]

/-! ## Numbers stand apart -/

theorem apart_append_mark {mark : Token} (isMark : ¬Token.IsNumber mark)
    {left right : List Token} :
    Token.Apart (left ++ mark :: right) ↔
      Token.Apart left ∧ Token.Apart right := by
  rw [Token.Apart, List.isChain_append, List.isChain_cons]
  constructor
  · rintro ⟨apartLeft, ⟨_, apartRight⟩, _⟩
    exact ⟨apartLeft, apartRight⟩
  · rintro ⟨apartLeft, apartRight⟩
    refine ⟨apartLeft, ⟨fun _ _ both => isMark both.1, apartRight⟩, ?_⟩
    rintro _ _ _ ⟨⟩ both
    exact isMark both.2

theorem apart_separated {parts : List (List Token)}
    (apart : ∀ part ∈ parts, Token.Apart part) :
    Token.Apart (separated parts) := by
  cases parts with
  | nil => exact .nil
  | cons first others =>
      rw [separated]
      induction others generalizing first with
      | nil => simpa using apart
      | cons next others inductionHypothesis =>
          obtain ⟨apartFirst, apartOthers⟩ := List.forall_mem_cons.mp apart
          exact (apart_append_mark id).mpr
            ⟨apartFirst, inductionHypothesis next apartOthers⟩

theorem apart_cons_mark {mark : Token} (isMark : ¬Token.IsNumber mark)
    {right : List Token} (apart : Token.Apart right) :
    Token.Apart (mark :: right) :=
  List.isChain_cons.mpr ⟨fun _ _ both => isMark both.1, apart⟩

theorem apart_enclosed {first last : Token} {parts : List (List Token)}
    (isFirst : ¬Token.IsNumber first) (isLast : ¬Token.IsNumber last)
    (apart : ∀ part ∈ parts, Token.Apart part) :
    Token.Apart (first :: (separated parts ++ [last])) :=
  apart_cons_mark isFirst
    ((apart_append_mark isLast).mpr ⟨apart_separated apart, .nil⟩)

/-- In the tokens of a document no two numbers stand side by side. -/
theorem apart_tokens (document : Document) : Token.Apart document.tokens := by
  induction document using induct with
  | null | boolean | number | string => exact .singleton _
  | array items inductionHypothesis =>
      rw [tokens, rows_eq]
      exact apart_enclosed id id (List.forall_mem_map.mpr inductionHypothesis)
  | object members inductionHypothesis =>
      rw [tokens, keyedRows_eq]
      refine apart_enclosed id id (List.forall_mem_map.mpr ?_)
      intro member among
      exact apart_cons_mark id
        (apart_cons_mark id (inductionHypothesis member among))

/-! ## Reading tokens -/

/-- A document begins with a token that may begin a value. -/
theorem exists_head_tokens (document : Document) :
    ∃ first others, document.tokens = first :: others ∧
      first ≠ .closeBracket := by
  cases document <;> exact ⟨_, _, rfl, by simp⟩

theorem read_firstItem (document : Document) (frames : List Frame)
    (rest : List Token) :
    (document.tokens ++ rest).foldlM Reading.take? (.itemOrClose frames) =
      (document.tokens ++ rest).foldlM Reading.take?
        (.value (.array [] :: frames)) := by
  obtain ⟨first, others, same, opens⟩ := exists_head_tokens document
  rw [same, List.cons_append, List.foldlM_cons, List.foldlM_cons,
    Reading.take?, Reading.take?]
  exact opens

/-- Whether the tokens of a document, wherever a value may stand, are read as
this document. -/
def IsRead (document : Document) : Prop :=
  ∀ (frames : List Frame) (rest : List Token),
    (document.tokens ++ rest).foldlM Reading.take? (.value frames) =
      rest.foldlM Reading.take? (.after document frames)

/-- A row is read behind its first part if each further part is read behind the
part before it. -/
theorem read_row {Part : Type} {parts : List Part}
    {tokensOf : Part → List Token} {state : List Part → Part → Reading}
    {close : Token} {closed : List Part → Reading}
    (reads : ∀ part ∈ parts, ∀ (before : List Part) (last : Part)
      (rest : List Token),
      (Token.comma :: (tokensOf part ++ rest)).foldlM Reading.take?
          (state before last) =
        rest.foldlM Reading.take? (state (last :: before) part))
    (closes : ∀ (before : List Part) (last : Part),
      (state before last).take? close = some (closed (last :: before).reverse))
    (before : List Part) (last : Part) (rest : List Token) :
    ((parts.map tokensOf).flatMap (Token.comma :: ·) ++
        close :: rest).foldlM Reading.take? (state before last) =
      rest.foldlM Reading.take? (closed (before.reverse ++ last :: parts)) := by
  induction parts generalizing before last with
  | nil =>
      rw [List.map_nil, List.flatMap_nil, List.nil_append, List.foldlM_cons,
        closes, List.reverse_cons]
      rfl
  | cons part parts inductionHypothesis =>
      obtain ⟨readsPart, readsOthers⟩ := List.forall_mem_cons.mp reads
      have others := inductionHypothesis readsOthers (last :: before) part
      rw [List.reverse_cons, List.append_assoc, List.singleton_append] at others
      rw [← others, ← readsPart, List.map_cons, List.flatMap_cons,
        List.append_assoc, List.cons_append]

/-- The items of an array behind its first one. -/
theorem read_items {items : List Document}
    (areRead : ∀ item ∈ items, IsRead item) (first : Document)
    (frames : List Frame) (rest : List Token) :
    ((items.map tokens).flatMap (Token.comma :: ·) ++
        .closeBracket :: rest).foldlM Reading.take?
          (.after first (.array [] :: frames)) =
      rest.foldlM Reading.take? (.after (.array (first :: items)) frames) :=
  @read_row Document items tokens
    (fun before last => .after last (.array before :: frames)) .closeBracket
    (fun all => .after (.array all) frames)
    (fun item among _ _ rest => areRead item among _ rest) (fun _ _ => rfl)
    [] first rest

/-- The members of an object behind its first one. -/
theorem read_members {members : List (List TextPiece × Document)}
    (areRead : ∀ member ∈ members, IsRead member.2)
    (first : List TextPiece × Document) (frames : List Frame)
    (rest : List Token) :
    ((members.map keyedTokens).flatMap (Token.comma :: ·) ++
        .closeBrace :: rest).foldlM Reading.take?
          (.after first.2 (.object [] first.1 :: frames)) =
      rest.foldlM Reading.take? (.after (.object (first :: members)) frames) :=
  @read_row (List TextPiece × Document) members keyedTokens
    (fun before last => .after last.2 (.object before last.1 :: frames))
    .closeBrace (fun all => .after (.object all) frames)
    (fun member among _ _ rest => areRead member among _ rest) (fun _ _ => rfl)
    [] first rest

/-- The tokens of a document are read as this document, wherever a value may
stand. -/
theorem isRead (document : Document) : IsRead document := by
  induction document using induct with
  | null | boolean | number | string => exact fun _ _ => rfl
  | array items inductionHypothesis =>
      intro frames rest
      rw [tokens, rows_eq]
      cases items with
      | nil => rfl
      | cons item items =>
          obtain ⟨first, others⟩ := List.forall_mem_cons.mp inductionHypothesis
          rw [← read_items others, ← first, ← read_firstItem, List.map_cons,
            separated, List.cons_append, List.append_assoc, List.append_assoc]
          rfl
  | object members inductionHypothesis =>
      intro frames rest
      rw [tokens, keyedRows_eq]
      cases members with
      | nil => rfl
      | cons member members =>
          obtain ⟨first, others⟩ := List.forall_mem_cons.mp inductionHypothesis
          rw [← read_members others, ← first, List.map_cons, separated,
            List.cons_append, List.append_assoc, List.append_assoc]
          rfl

theorem ofTokens?_tokens (document : Document) :
    ofTokens? document.tokens = some document := by
  have read := isRead document [] []
  rw [List.append_nil] at read
  rw [ofTokens?, read]
  rfl

/-! ## Tokens that have been read -/

/-- Rows of tokens with a comma behind each of them. -/
def continued (parts : List (List Token)) : List Token :=
  parts.flatMap (fun part => part ++ [.comma])

theorem separated_append_singleton (parts : List (List Token))
    (last : List Token) :
    separated (parts ++ [last]) = continued parts ++ last := by
  cases parts with
  | nil => simp [separated, continued]
  | cons first others =>
      induction others generalizing first with
      | nil => simp [separated, continued]
      | cons next others inductionHypothesis =>
          have behind := inductionHypothesis next
          simp only [separated, continued, List.cons_append,
            List.flatMap_cons, List.append_assoc] at behind ⊢
          rw [← behind]
          rfl

end Document

namespace Reading

open Document (continued keyedTokens)

/-- The tokens of arrays and objects that are still open, each up to the value
that is being read in it. -/
def opened : List Frame → List Token
  | [] => []
  | .array items :: frames =>
      opened frames ++ .openBracket ::
        continued (items.reverse.map Document.tokens)
  | .object members name :: frames =>
      opened frames ++ .openBrace ::
        (continued (members.reverse.map keyedTokens) ++ [.string name, .colon])

/-- The tokens that have been read, as far as they are remembered. -/
def tokens : Reading → List Token
  | .value frames => opened frames
  | .itemOrClose frames => opened frames ++ [.openBracket]
  | .keyOrClose frames => opened frames ++ [.openBrace]
  | .key members frames =>
      opened frames ++ .openBrace :: continued (members.reverse.map keyedTokens)
  | .colon members name frames =>
      opened frames ++ .openBrace ::
        (continued (members.reverse.map keyedTokens) ++ [.string name])
  | .after document frames => opened frames ++ document.tokens

variable {reading next : Reading} {frames : List Frame} {token : Token}

theorem tokens_takeValue? (taken : takeValue? frames token = some next) :
    next.tokens = opened frames ++ [token] := by
  unfold takeValue? at taken
  split at taken <;> cases taken <;> simp only [tokens, Document.tokens]

theorem tokens_takeAfter? {document : Document}
    (taken : takeAfter? document frames token = some next) :
    next.tokens = opened frames ++ (document.tokens ++ [token]) := by
  unfold takeAfter? at taken
  split at taken <;> cases taken <;>
    simp [tokens, opened, Document.tokens, Document.rows_eq,
      Document.keyedRows_eq, Document.separated_append_singleton, continued,
      keyedTokens]

/-- Every token that is taken is remembered. -/
theorem tokens_take? (taken : reading.take? token = some next) :
    next.tokens = reading.tokens ++ [token] := by
  unfold take? at taken
  split at taken
  · exact tokens_takeValue? taken
  · cases taken
    simp [tokens, Document.tokens, Document.rows, Document.separated]
  · simpa [tokens, opened, continued] using tokens_takeValue? taken
  · cases taken
    simp [tokens, Document.tokens, Document.keyedRows, Document.separated]
  · cases taken
    simp [tokens, continued]
  · contradiction
  · cases taken
    simp [tokens]
  · contradiction
  · cases taken
    simp [tokens, opened]
  · contradiction
  · simpa [tokens] using tokens_takeAfter? taken

theorem tokens_foldlM {taken : List Token}
    (read : taken.foldlM take? reading = some next) :
    next.tokens = reading.tokens ++ taken := by
  induction taken generalizing reading with
  | nil =>
      cases read
      exact (List.append_nil _).symm
  | cons token taken inductionHypothesis =>
      rw [List.foldlM_cons] at read
      obtain ⟨middle, first, others⟩ := Option.bind_eq_some_iff.mp read
      rw [inductionHypothesis others, tokens_take? first, List.append_assoc,
        List.singleton_append]

end Reading

namespace Document

/-- **Documents.**  What is read as a document is its tokens. -/
theorem ofTokens?_eq_some_iff {taken : List Token} {document : Document} :
    ofTokens? taken = some document ↔ taken = document.tokens := by
  constructor
  · intro found
    obtain ⟨reading, read, complete⟩ := Option.bind_eq_some_iff.mp found
    unfold Reading.document? at complete
    split at complete
    · cases complete
      exact (Reading.tokens_foldlM read).symm
    · contradiction
  · rintro rfl
    exact ofTokens?_tokens document

/-- **Texts.**  A text is read as a document exactly if it is a text of this
document, whatever blanks there are between its tokens and however they are
spelled. -/
theorem ofText?_eq_some_iff {document : Document} {text : String} :
    ofText? text = some document ↔
      Token.Spaced document.tokens text.toList := by
  rw [← Token.split?_eq_some_iff (apart_tokens document), ofText?,
    Option.bind_eq_some_iff]
  simp only [ofTokens?_eq_some_iff, exists_eq_right]

end Document

end MiniMips.Json
