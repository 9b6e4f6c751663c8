import MiniMips.Proofs.Assembly.Labels

/-!
Contract: label tables with a map from names to positions.

Owns:
- tables that hold their entries in a row and beside it the position of every
  name, and that may fail when a position is looked up;
- what it means that the map fits the entries, and that declaring keeps it;
- that such a table does what the table of its entries alone does;
- sequences of declarations on an empty table, with the answer to each.
-/

namespace MiniMips

/-- Labels with the positions of their names.  The two parts are changed one
after the other. -/
structure LabelIndex where
  entries : Array LabelEntry
  positions : Std.HashMap String Nat

/-- A name is mapped to a position at which there is no entry. -/
structure StalePosition where
  position : Nat
deriving DecidableEq, Repr

theorem LabelTable.mem_and_name_of_find? {table : LabelTable} {name : String}
    {entry : LabelEntry} (found : table.find? name = some entry) :
    entry ∈ table.entries ∧ entry.name = name := by
  unfold find? at found
  have named := List.find?_some found
  exact ⟨List.mem_of_find?_eq_some found, of_decide_eq_true named⟩

namespace LabelIndex

def empty : LabelIndex where
  entries := #[]
  positions := ∅

def entryAt (labels : LabelIndex) (position : Nat) :
    Except StalePosition LabelEntry :=
  match labels.entries[position]? with
  | some entry => .ok entry
  | none => .error ⟨position⟩

/-- Map a name to the position that the next entry will have. -/
def mark (labels : LabelIndex) (name : String) : LabelIndex :=
  { labels with positions := labels.positions.insert name labels.entries.size }

def append (labels : LabelIndex) (entry : LabelEntry) : LabelIndex :=
  { labels with entries := labels.entries.push entry }

/-- Bind a name to an instruction index: the answer, and the table behind it.
The name is marked before the entry is there. -/
def declare (labels : LabelIndex) (name : String) (index line : Nat) :
    Except StalePosition (Except ParseError Unit × LabelIndex) :=
  match labels.positions[name]? with
  | some position =>
      match labels.entryAt position with
      | .error stale => .error stale
      | .ok first =>
          .ok (.error ⟨line, .duplicateLabel name first.line⟩, labels)
  | none => .ok (.ok (), (labels.mark name).append ⟨name, index, line⟩)

def resolve? (labels : LabelIndex) (name : String) :
    Except StalePosition (Option Nat) :=
  match labels.positions[name]? with
  | none => .ok none
  | some position =>
      match labels.entryAt position with
      | .error stale => .error stale
      | .ok entry => .ok (some entry.index)

def nameAt? (labels : LabelIndex) (index : Nat) : Option String :=
  (labels.entries.find? (fun entry => decide (entry.index = index))).map
    LabelEntry.name

/-- The table of the entries alone. -/
def table (labels : LabelIndex) : LabelTable where
  entries := labels.entries.toList

/-- The map fits the entries: a name is mapped to a position exactly where the
entry there has this name. -/
def Consistent (labels : LabelIndex) : Prop :=
  ∀ (name : String) (position : Nat),
    labels.positions[name]? = some position ↔
      ∃ entry, labels.entries[position]? = some entry ∧ entry.name = name

variable {labels : LabelIndex} {name : String} {index line : Nat}

/-! ## The map and the entries -/

theorem consistent_empty : empty.Consistent := by
  intro name position
  simp [empty]

theorem getElem?_table (labels : LabelIndex) (position : Nat) :
    labels.table.entries[position]? = labels.entries[position]? :=
  Array.getElem?_toList

theorem Consistent.position_eq (consistent : labels.Consistent)
    {position : Nat} {entry : LabelEntry}
    (present : labels.table.entries[position]? = some entry) :
    labels.positions[entry.name]? = some position := by
  rw [getElem?_table] at present
  exact (consistent entry.name position).mpr ⟨entry, present, rfl⟩

theorem Consistent.distinct (consistent : labels.Consistent) :
    labels.table.Distinct := by
  refine List.nodup_iff_pairwise_ne.mpr
    (List.pairwise_map.mpr (List.pairwise_iff_getElem.mpr ?_))
  intro position other bound otherBound before same
  have first := consistent.position_eq (List.getElem?_eq_getElem bound)
  have second := consistent.position_eq (List.getElem?_eq_getElem otherBound)
  rw [same, second] at first
  exact absurd (Option.some.inj first) (Nat.ne_of_gt before)

theorem Consistent.positions_eq_none (consistent : labels.Consistent)
    (absent : name ∉ labels.table.entries.map LabelEntry.name) :
    labels.positions[name]? = none := by
  refine Option.eq_none_iff_forall_ne_some.mpr (fun position mapped => ?_)
  obtain ⟨entry, present, rfl⟩ := (consistent name position).mp mapped
  rw [← getElem?_table] at present
  exact absent (List.mem_map_of_mem (List.mem_of_getElem? present))

/-- The entry of a name is the one at the position that the name is mapped
to. -/
theorem Consistent.find?_eq (consistent : labels.Consistent) (name : String) :
    labels.table.find? name =
      labels.positions[name]?.bind (labels.entries[·]?) := by
  cases found : labels.table.find? name with
  | some first =>
      obtain ⟨among, rfl⟩ := LabelTable.mem_and_name_of_find? found
      obtain ⟨position, present⟩ := List.mem_iff_getElem?.mp among
      rw [consistent.position_eq present, Option.bind_some, ← getElem?_table,
        present]
  | none =>
      rw [consistent.positions_eq_none (LabelTable.find?_eq_none_iff.mp found)]
      rfl

/-- A name that is not mapped may be marked and appended. -/
theorem Consistent.appended (consistent : labels.Consistent)
    (fresh : labels.positions[name]? = none) :
    ((labels.mark name).append ⟨name, index, line⟩).Consistent := by
  intro other position
  have before := consistent other position
  simp only [append, mark, Std.HashMap.getElem?_insert, beq_iff_eq,
    Array.getElem?_push]
  by_cases last : position = labels.entries.size
  · -- The new entry stands where the entries ended.
    subst last
    simp only [Array.getElem?_size, reduceCtorEq, false_and, exists_false,
      iff_false] at before
    by_cases same : name = other <;> simp [same, before]
  · by_cases same : name = other
    · subst same
      simp only [fresh, reduceCtorEq, false_iff] at before
      simp [last, before, Ne.symm last]
    · simp [same, last, before]

/-! ## Doing what the table does -/

theorem table_append_mark (labels : LabelIndex) (entry : LabelEntry) :
    ((labels.mark entry.name).append entry).table =
      ⟨labels.table.entries ++ [entry]⟩ := by
  simp [table, mark, append]

/-- **Label tables with positions.**  Declaring looks no position up in vain.
It answers as the table of the entries does; a refused name changes nothing, and
otherwise the entries become those of the extended table. -/
theorem Consistent.declare_eq (consistent : labels.Consistent)
    (name : String) (index line : Nat) :
    labels.declare name index line =
      match labels.table.declare name index line with
      | .error parseError => .ok (.error parseError, labels)
      | .ok _ =>
          .ok (.ok (), (labels.mark name).append ⟨name, index, line⟩) := by
  have found := consistent.find?_eq name
  rw [declare, LabelTable.declare, found]
  cases mapped : labels.positions[name]? with
  | none => rfl
  | some position =>
      obtain ⟨entry, present, _⟩ := (consistent name position).mp mapped
      simp only [Option.bind_some, present, entryAt]

theorem Consistent.resolve?_eq (consistent : labels.Consistent)
    (name : String) :
    labels.resolve? name = .ok (labels.table.resolve? name) := by
  have found := consistent.find?_eq name
  rw [resolve?, LabelTable.resolve?, found]
  cases mapped : labels.positions[name]? with
  | none => rfl
  | some position =>
      obtain ⟨entry, present, _⟩ := (consistent name position).mp mapped
      simp only [Option.bind_some, present, entryAt, Option.map_some]

theorem nameAt?_eq (labels : LabelIndex) (index : Nat) :
    labels.nameAt? index = labels.table.nameAt? index := by
  rw [nameAt?, LabelTable.nameAt?, table, Array.find?_toList]

theorem Consistent.position?_eq (consistent : labels.Consistent)
    (name : String) :
    labels.table.position? name = labels.positions[name]? := by
  refine Option.ext (fun position => ?_)
  rw [LabelTable.position?, List.findIdx?_eq_some_iff_getElem]
  constructor
  · rintro ⟨bound, named, _⟩
    rw [← of_decide_eq_true named]
    exact consistent.position_eq (List.getElem?_eq_getElem bound)
  · intro mapped
    obtain ⟨entry, present, named⟩ := (consistent name position).mp mapped
    rw [← getElem?_table] at present
    obtain ⟨bound, rfl⟩ := List.getElem?_eq_some_iff.mp present
    refine ⟨bound, decide_eq_true named, ?_⟩
    intro earlier before earlierNamed
    have mappedEarlier := consistent.position_eq
      (List.getElem?_eq_getElem (Nat.lt_trans before bound))
    rw [of_decide_eq_true earlierNamed, mapped] at mappedEarlier
    exact absurd (Option.some.inj mappedEarlier) (Nat.ne_of_gt before)

end LabelIndex

/-! ## Declarations one after the other -/

/-- Declare labels one after the other: the answer to each, and the table in
the end. -/
def LabelTable.declareAll (table : LabelTable) :
    List LabelEntry → List (Except ParseError Unit) × LabelTable
  | [] => ([], table)
  | call :: calls =>
      match table.declare call.name call.index call.line with
      | .error parseError =>
          let later := table.declareAll calls
          (.error parseError :: later.1, later.2)
      | .ok extended =>
          let later := extended.declareAll calls
          (.ok () :: later.1, later.2)

def LabelIndex.declareAll (labels : LabelIndex) :
    List LabelEntry →
      Except StalePosition (List (Except ParseError Unit) × LabelIndex)
  | [] => .ok ([], labels)
  | call :: calls =>
      match labels.declare call.name call.index call.line with
      | .error stale => .error stale
      | .ok (answer, next) =>
          match next.declareAll calls with
          | .error stale => .error stale
          | .ok (answers, last) => .ok (answer :: answers, last)

namespace LabelEntry

/-- The first declaration of a name. -/
def firstOf (calls : List LabelEntry) (name : String) : Option LabelEntry :=
  calls.find? (fun call => decide (call.name = name))

/-- What a declaration is answered behind earlier ones. -/
def answer (earlier : List LabelEntry) (call : LabelEntry) :
    Except ParseError Unit :=
  match firstOf earlier call.name with
  | some first => .error ⟨call.line, .duplicateLabel call.name first.line⟩
  | none => .ok ()

/-- The declarations that are not refused. -/
def accepted (calls : List LabelEntry)
    (answers : List (Except ParseError Unit)) : List LabelEntry :=
  ((calls.zip answers).filter (fun exchange => exchange.2.isOk)).map Prod.fst

end LabelEntry

variable {calls earlier before after : List LabelEntry} {call : LabelEntry}
  {name : String}

/-- Every step of a table with positions is one of its entries. -/
theorem LabelIndex.Consistent.declareAll_eq {labels : LabelIndex}
    (consistent : labels.Consistent) (calls : List LabelEntry) :
    ∃ last, labels.declareAll calls =
        .ok ((labels.table.declareAll calls).1, last) ∧
      last.Consistent ∧ last.table = (labels.table.declareAll calls).2 := by
  induction calls generalizing labels with
  | nil => exact ⟨labels, rfl, consistent, rfl⟩
  | cons call calls inductionHypothesis =>
      simp only [declareAll, LabelTable.declareAll, consistent.declare_eq]
      cases declared : labels.table.declare call.name call.index call.line with
      | error parseError =>
          obtain ⟨last, same, rest⟩ := inductionHypothesis consistent
          exact ⟨last, by simp only [same], rest⟩
      | ok extended =>
          obtain ⟨absent, rfl⟩ := LabelTable.declare_eq_ok_iff.mp declared
          obtain ⟨last, same, rest⟩ := inductionHypothesis
            (consistent.appended (consistent.positions_eq_none absent))
          rw [table_append_mark] at same rest
          exact ⟨last, by simp only [same], rest⟩

namespace LabelTable

variable {table : LabelTable}

/-- Whether a table finds for every name the first declaration of it. -/
def Follows (table : LabelTable) (earlier : List LabelEntry) : Prop :=
  ∀ name, table.find? name = LabelEntry.firstOf earlier name

theorem follows_empty : empty.Follows [] :=
  fun _ => rfl

theorem Follows.declare_of_some (follows : table.Follows earlier)
    {first : LabelEntry}
    (known : LabelEntry.firstOf earlier call.name = some first) :
    table.declare call.name call.index call.line =
      .error ⟨call.line, .duplicateLabel call.name first.line⟩ := by
  rw [declare, follows, known]

theorem Follows.declare_of_none (follows : table.Follows earlier)
    (fresh : LabelEntry.firstOf earlier call.name = none) :
    table.declare call.name call.index call.line =
      .ok ⟨table.entries ++ [call]⟩ := by
  rw [declare, follows, fresh]

/-- A refused declaration is not the first one of its name. -/
theorem Follows.refused (follows : table.Follows earlier) {first : LabelEntry}
    (known : LabelEntry.firstOf earlier call.name = some first) :
    table.Follows (earlier ++ [call]) := by
  intro name
  rw [follows, LabelEntry.firstOf, LabelEntry.firstOf, List.find?_append]
  by_cases same : call.name = name
  · subst same
    rw [LabelEntry.firstOf] at known
    rw [known, Option.some_or]
  · simp [same]

theorem Follows.extended (follows : table.Follows earlier) :
    Follows ⟨table.entries ++ [call]⟩ (earlier ++ [call]) := by
  intro name
  have found := follows name
  rw [find?, LabelEntry.firstOf] at found ⊢
  rw [List.find?_append, List.find?_append, found]

/-- One declaration: its answer, and the table that the others go to. -/
theorem Follows.exists_next (follows : table.Follows earlier)
    (call : LabelEntry) :
    ∃ next : LabelTable, next.Follows (earlier ++ [call]) ∧
      ∀ calls, table.declareAll (call :: calls) =
        (LabelEntry.answer earlier call :: (next.declareAll calls).1,
          (next.declareAll calls).2) := by
  cases known : LabelEntry.firstOf earlier call.name with
  | some first =>
      refine ⟨table, follows.refused known, fun calls => ?_⟩
      simp only [declareAll, follows.declare_of_some known, LabelEntry.answer,
        known]
  | none =>
      refine ⟨⟨table.entries ++ [call]⟩, follows.extended, fun calls => ?_⟩
      simp only [declareAll, follows.declare_of_none known, LabelEntry.answer,
        known]

theorem Follows.after_declareAll (follows : table.Follows earlier)
    (calls : List LabelEntry) :
    (table.declareAll calls).2.Follows (earlier ++ calls) := by
  induction calls generalizing table earlier with
  | nil => simpa [declareAll] using follows
  | cons call calls inductionHypothesis =>
      obtain ⟨next, followsNext, steps⟩ := follows.exists_next call
      have rest := inductionHypothesis followsNext
      rw [List.append_assoc, List.singleton_append] at rest
      rw [steps]
      exact rest

/-- Every declaration is answered by the ones before it. -/
theorem Follows.getElem?_answers (follows : table.Follows earlier) :
    (table.declareAll (before ++ call :: after)).1[before.length]? =
      some (LabelEntry.answer (earlier ++ before) call) := by
  induction before generalizing table earlier with
  | nil =>
      obtain ⟨next, _, steps⟩ := follows.exists_next call
      simp [steps]
  | cons head before inductionHypothesis =>
      obtain ⟨next, followsNext, steps⟩ := follows.exists_next head
      have rest := inductionHypothesis followsNext
      rw [List.append_assoc, List.singleton_append] at rest
      rw [List.cons_append, steps]
      exact rest

/-- The declarations that are not refused are appended in their order. -/
theorem entries_declareAll (table : LabelTable) (calls : List LabelEntry) :
    (table.declareAll calls).2.entries =
      table.entries ++
        LabelEntry.accepted calls (table.declareAll calls).1 := by
  induction calls generalizing table with
  | nil => simp [declareAll, LabelEntry.accepted]
  | cons call calls inductionHypothesis =>
      rw [declareAll]
      cases declared : table.declare call.name call.index call.line with
      | error parseError =>
          simp only [inductionHypothesis]
          rfl
      | ok extended =>
          obtain ⟨_, rfl⟩ := declare_eq_ok_iff.mp declared
          simp only [inductionHypothesis, List.append_assoc]
          rfl

end LabelTable

/-- **Label tables as declared.**  However labels are declared on an empty
table, no position is looked up in vain, and the table with positions answers
and ends as the one without them.  Its map and its entries describe the same
names, which are distinct; the entries are the declarations that were accepted,
in their order.  A declaration is refused exactly where its name was declared
before, with the line of the first declaration, and then changes nothing.  A
name is resolved to the index of its first declaration, and the name of an index
is that of the first accepted declaration with it. -/
theorem LabelIndex.represents_declarations (calls : List LabelEntry) :
    ∃ answers labels, empty.declareAll calls = .ok (answers, labels) ∧
      LabelTable.empty.declareAll calls = (answers, labels.table) ∧
      (∀ (name : String) (position : Nat),
        labels.positions[name]? = some position ↔
          ∃ entry, labels.entries[position]? = some entry ∧
            entry.name = name) ∧
      (∀ name : String,
        labels.table.position? name = labels.positions[name]?) ∧
      (labels.entries.toList.map LabelEntry.name).Nodup ∧
      labels.entries.toList = LabelEntry.accepted calls answers ∧
      (∀ before call after, calls = before ++ call :: after →
        answers[before.length]? = some (LabelEntry.answer before call)) ∧
      (∀ name, labels.resolve? name = .ok (labels.table.resolve? name) ∧
        labels.table.resolve? name =
          (LabelEntry.firstOf calls name).map LabelEntry.index) ∧
      (∀ index, labels.nameAt? index = labels.table.nameAt? index ∧
        labels.table.nameAt? index =
          ((LabelEntry.accepted calls answers).find? (fun entry =>
            decide (entry.index = index))).map LabelEntry.name) ∧
      (∀ call first : LabelEntry,
        LabelEntry.firstOf calls call.name = some first →
        let refusal : ParseError :=
          ⟨call.line, .duplicateLabel call.name first.line⟩
        labels.declare call.name call.index call.line =
            .ok (.error refusal, labels) ∧
          labels.table.declare call.name call.index call.line =
            .error refusal) ∧
      (∀ call : LabelEntry, LabelEntry.firstOf calls call.name = none →
        ∃ extended, labels.declare call.name call.index call.line =
            .ok (.ok (), extended) ∧
          labels.table.declare call.name call.index call.line =
            .ok extended.table) := by
  have start : empty.table = LabelTable.empty := rfl
  obtain ⟨labels, run, consistent, same⟩ := consistent_empty.declareAll_eq calls
  rw [start] at run same
  have follows := LabelTable.follows_empty.after_declareAll calls
  have entries := LabelTable.entries_declareAll LabelTable.empty calls
  rw [List.nil_append, ← same] at follows
  rw [← same] at entries
  refine ⟨_, labels, run, Prod.ext rfl same.symm, consistent,
    consistent.position?_eq, consistent.distinct, entries, ?_, ?_, ?_, ?_, ?_⟩
  · rintro before call after rfl
    exact LabelTable.follows_empty.getElem?_answers
  · intro name
    refine ⟨consistent.resolve?_eq name, ?_⟩
    rw [LabelTable.resolve?, follows]
  · intro index
    refine ⟨labels.nameAt?_eq index, ?_⟩
    rw [LabelTable.nameAt?, entries]
    rfl
  · intro call first known refusal
    have refused := follows.declare_of_some known
    refine ⟨?_, refused⟩
    rw [consistent.declare_eq, refused]
  · intro call fresh
    have extended := follows.declare_of_none fresh
    refine ⟨(labels.mark call.name).append call, ?_, ?_⟩
    · rw [consistent.declare_eq, extended]
    · rw [extended, table_append_mark]

/-- A repeated name, which is refused with the line of its first declaration,
and an index with two names. -/
theorem LabelIndex.represents_declarations_repeated :
    let calls : List LabelEntry :=
      [⟨"x", 4, 2⟩, ⟨"x", 0, 9⟩, ⟨"y", 4, 10⟩]
    ∃ labels, empty.declareAll calls =
        .ok ([.ok (), .error ⟨9, .duplicateLabel "x" 2⟩, .ok ()], labels) ∧
      labels.resolve? "x" = .ok (some 4) ∧ labels.nameAt? 0 = none ∧
      labels.nameAt? 4 = some "x" := by
  intro calls
  obtain ⟨answers, labels, run, plain, _, _, _, _, _, resolved, named, _⟩ :=
    represents_declarations calls
  obtain rfl : answers = [.ok (), .error ⟨9, .duplicateLabel "x" 2⟩, .ok ()] :=
    (congrArg Prod.fst plain).symm
  refine ⟨labels, run, ?_, ?_, ?_⟩
  · rw [(resolved "x").1, (resolved "x").2]
    rfl
  · rw [(named 0).1, (named 0).2]
    rfl
  · rw [(named 4).1, (named 4).2]
    rfl

end MiniMips
