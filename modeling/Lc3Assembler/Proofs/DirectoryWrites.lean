import Lc3Assembler.Proofs.Outcome

/-!
# Writing into a directory

A file that is written is held where its path leads, every other place keeps its
entry, and every path leads where it led before.  `Directory.Receives` is a list of
such writes, one after the other.
-/

namespace Lc3Assembler

namespace Directory

section

variable {location other : Location} {entry : Entry}

theorem lookup_insertInto_same (entries : List (Location × Entry)) :
    (insertInto location entry entries).lookup location = some entry := by
  induction entries with
  | nil => simp [insertInto]
  | cons head tail induction =>
      rw [insertInto]
      split
      · simp
      · rename_i apart
        rw [List.lookup_cons, beq_false_of_ne (Ne.symm apart)]
        exact induction

theorem lookup_insertInto_other (apart : other ≠ location)
    (entries : List (Location × Entry)) :
    (insertInto location entry entries).lookup other = entries.lookup other := by
  induction entries with
  | nil => simp [insertInto, List.lookup_cons, beq_false_of_ne apart]
  | cons head tail induction =>
      rw [insertInto]
      split
      · rename_i same
        rw [← same] at apart
        rw [List.lookup_cons, List.lookup_cons, beq_false_of_ne apart, ← same,
          beq_false_of_ne apart]
      · rw [List.lookup_cons, List.lookup_cons, induction]

theorem entry?_insert_same (directory : Directory) (named : location.names ≠ []) :
    Directory.entry? (directory.insert location entry) location = some entry := by
  unfold Directory.entry?
  rw [if_neg (by simpa using named)]
  exact lookup_insertInto_same directory.entries

theorem entry?_insert_other (directory : Directory) (apart : other ≠ location) :
    Directory.entry? (directory.insert location entry) other = directory.entry? other := by
  unfold Directory.entry?
  split
  · rfl
  · exact lookup_insertInto_other apart directory.entries

/-- An anchor is a directory, so what is none has a name. -/
theorem names_ne_nil {directory : Directory}
    (vacant : directory.entry? location ≠ some .directory) : location.names ≠ [] := by
  intro unnamed
  apply vacant
  unfold Directory.entry?
  rw [if_pos (by simp [unnamed])]

end

/-- A path leads to a file with some content. -/
def Holds (directory : Directory) (path : Path) (content : List UInt8) : Prop :=
  ∃ location, directory.locate path = .ok location ∧
    directory.entry? location = some (.file content)

section

variable {directory next : Directory} {path : Path} {content : List UInt8}

theorem write_eq_ok_iff :
    directory.write path content = .ok next ↔
      ∃ location, directory.locate path = .ok location ∧
        directory.access .writing location = .ok () ∧
        directory.entry? location ≠ some .directory ∧
        next = directory.insert location (.file content) := by
  simp only [write, bind_eq_ok_iff]
  constructor
  · rintro ⟨location, located, _, opened, written⟩
    refine ⟨location, located, opened, ?_⟩
    split at written
    · cases written
    · rename_i vacant
      cases written
      exact ⟨vacant, rfl⟩
  · rintro ⟨location, located, opened, vacant, rfl⟩
    refine ⟨location, located, (), opened, ?_⟩
    split
    · rename_i taken
      exact absurd taken vacant
    · rfl

/-- A new file stands in no way that leads through directories. -/
theorem walk_insert {location : Location}
    (vacant : directory.entry? location ≠ some .directory) (start : Location)
    (parts : List String) {last : Location} :
    (directory.insert location (.file content)).walk start parts = .ok last ↔
      directory.walk start parts = .ok last := by
  induction parts generalizing start with
  | nil => rfl
  | cons part parts induction =>
      by_cases here : start = location
      · subst here
        have filled : Directory.entry? (directory.insert start (.file content)) start =
            some (.file content) :=
          directory.entry?_insert_same (names_ne_nil vacant)
        rw [walk, walk, filled]
        constructor
        · intro impossible
          cases impossible
        · intro walked
          split at walked
          · rename_i taken
            exact absurd taken vacant
          · cases walked
          · cases walked
      · rw [walk, walk, directory.entry?_insert_other here]
        split
        · split
          · rfl
          · exact induction (start.step part)
        · rfl
        · rfl

/-- Every path that leads somewhere leads there still. -/
theorem locate_write (written : directory.write path content = .ok next) (other : Path)
    (location : Location) :
    next.locate other = .ok location ↔ directory.locate other = .ok location := by
  obtain ⟨target, _, _, vacant, rfl⟩ := write_eq_ok_iff.mp written
  have walked :
      (directory.insert target (.file content)).walk (.start other) other.parts =
          .ok location ↔
        directory.walk (.start other) other.parts = .ok location :=
    walk_insert vacant (.start other) other.parts
  unfold locate
  split
  · rfl
  · split
    · rfl
    · cases after : (directory.insert target (.file content)).walk (.start other) other.parts <;>
        cases before : directory.walk (.start other) other.parts <;>
        simp_all

theorem holds_write (written : directory.write path content = .ok next) :
    next.Holds path content := by
  obtain ⟨location, located, _, vacant, result⟩ := write_eq_ok_iff.mp written
  refine ⟨location, (locate_write written path location).mpr located, ?_⟩
  rw [result]
  exact directory.entry?_insert_same (names_ne_nil vacant)

theorem entry?_write_other (written : directory.write path content = .ok next)
    {location : Location} (elsewhere : directory.locate path ≠ .ok location) :
    next.entry? location = directory.entry? location := by
  obtain ⟨target, located, _, _, rfl⟩ := write_eq_ok_iff.mp written
  apply directory.entry?_insert_other
  rintro rfl
  exact elsewhere located

variable {failure : Failure}

/-- A system refuses a path that it can be handed. -/
theorem refused_of_locate (nameable : '\x00' ∉ path.text.toList)
    (fails : directory.locate path = .error failure) : ∃ refusal, failure = .refused refusal := by
  rw [locate, if_neg (by simpa using nameable)] at fails
  split at fails
  · cases fails
    exact ⟨_, rfl⟩
  · split at fails
    · cases fails
    · cases fails
      exact ⟨_, rfl⟩

theorem refused_of_access {purpose : Access} {location : Location}
    (fails : directory.access purpose location = .error failure) :
    ∃ refusal, failure = .refused refusal := by
  rw [access] at fails
  split at fails
  · cases fails
    exact ⟨_, rfl⟩
  · cases fails

/-- Whatever is done with a file begins with finding and opening it. -/
theorem refused_of_opening {purpose : Access} {α : Type} {rest : Location → Except Failure α}
    (nameable : '\x00' ∉ path.text.toList)
    (refuses : ∀ location, rest location = .error failure → ∃ refusal, failure = .refused refusal)
    (fails : (do
      let location ← directory.locate path
      directory.access purpose location
      rest location) = .error failure) :
    ∃ refusal, failure = .refused refusal := by
  rw [bind_eq_error_iff] at fails
  rcases fails with unlocated | ⟨location, _, fails⟩
  · exact refused_of_locate nameable unlocated
  · rw [bind_eq_error_iff] at fails
    rcases fails with closed | ⟨_, _, fails⟩
    · exact refused_of_access closed
    · exact refuses location fails

theorem refused_of_write (nameable : '\x00' ∉ path.text.toList)
    (fails : directory.write path content = .error failure) :
    ∃ refusal, failure = .refused refusal := by
  refine refused_of_opening nameable ?_ fails
  intro location stored
  split at stored
  · cases stored
    exact ⟨_, rfl⟩
  · cases stored

theorem refused_of_read (nameable : '\x00' ∉ path.text.toList)
    (fails : directory.read path = .error failure) : ∃ refusal, failure = .refused refusal := by
  refine refused_of_opening nameable ?_ fails
  intro location loaded
  split at loaded
  · cases loaded
  · cases loaded
    exact ⟨_, rfl⟩
  · cases loaded
    exact ⟨_, rfl⟩

end

/-- Two paths do not lead to one place. -/
def Apart (directory : Directory) (first second : Path) : Prop :=
  ∀ location, directory.locate first = .ok location → directory.locate second ≠ .ok location

/-- Files, given by their paths and texts, are written one after the other. -/
inductive Receives : Directory → List (Path × String) → Directory → Prop where
  | nothing {directory : Directory} : Receives directory [] directory
  | file {directory next after : Directory} {path : Path} {text : String}
      {files : List (Path × String)}
      (written : directory.write path (Text.Utf8.encode text.toList) = .ok next)
      (others : Receives next files after) :
      Receives directory ((path, text) :: files) after

namespace Receives

variable {before after : Directory} {files : List (Path × String)}

theorem locate (received : before.Receives files after) (path : Path) (location : Location) :
    after.locate path = .ok location ↔ before.locate path = .ok location := by
  induction received with
  | nothing => rfl
  | file written _ induction => exact induction.trans (locate_write written path location)

/-- A place to which no path of the files leads keeps its entry. -/
theorem entry?_other (received : before.Receives files after) {location : Location}
    (elsewhere : ∀ file ∈ files, before.locate file.1 ≠ .ok location) :
    after.entry? location = before.entry? location := by
  induction received with
  | nothing => rfl
  | @file directory next _ path text files written _ induction =>
      obtain ⟨apart, others⟩ := List.forall_mem_cons.mp elsewhere
      rw [induction, entry?_write_other written apart]
      intro file member
      rw [Ne, locate_write written]
      exact others file member

/-- Files at different places are all held in the end. -/
theorem holds (received : before.Receives files after)
    (apart : files.Pairwise fun first second => before.Apart first.1 second.1) :
    ∀ file ∈ files, after.Holds file.1 (Text.Utf8.encode file.2.toList) := by
  induction received with
  | nothing => simp
  | @file directory next after path text files written received induction =>
      obtain ⟨head, tail⟩ := List.pairwise_cons.mp apart
      rw [List.forall_mem_cons]
      constructor
      · obtain ⟨location, located, held⟩ := holds_write written
        refine ⟨location, (received.locate path location).mpr located, ?_⟩
        rw [received.entry?_other, held]
        intro file member
        rw [Ne, locate_write written]
        exact head file member location ((locate_write written path location).mp located)
      · apply induction
        refine tail.imp ?_
        intro first second distinct location
        rw [Ne, locate_write written, locate_write written]
        exact distinct location

end Receives

end Directory

end Lc3Assembler
