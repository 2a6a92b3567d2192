import Lc3Assembler.CommandLine.Run
import Lc3Assembler.Proofs.Columns
import Lc3Assembler.Proofs.Outcome

/-!
# Paths that a command line names

A system ends the words it hands over at a null character, so none stands in them.
The values of switches are ends of these words, and the paths of a run are made from
words, values and suffixes, so every one of them can be handed to the system again.
-/

namespace Lc3Assembler

namespace Path

theorem mem_of_mem_segments {text segment : List Char} (isSegment : segment ∈ segments text) :
    ∀ c ∈ segment, c ∈ text := by
  induction text generalizing segment with
  | nil =>
      rw [segments, List.mem_singleton] at isSegment
      simp [isSegment]
  | cons lead rest induction =>
      rw [segments] at isSegment
      intro c inside
      split at isSegment
      · rcases List.mem_cons.mp isSegment with rfl | later
        · cases inside
        · exact List.mem_cons_of_mem _ (induction later c inside)
      · split at isSegment
        · rw [List.mem_singleton] at isSegment
          rw [isSegment, List.mem_singleton] at inside
          exact inside ▸ List.mem_cons_self
        · rename_i first others cut
          rcases List.mem_cons.mp isSegment with rfl | later
          · rcases List.mem_cons.mp inside with rfl | within
            · exact List.mem_cons_self
            · exact List.mem_cons_of_mem _ (induction (by simp [cut]) c within)
          · exact List.mem_cons_of_mem _ (induction (by simp [cut, later]) c inside)

/-- No null character stands in a component. -/
def Nameable (path : Path) : Prop :=
  ∀ part ∈ path.parts, '\x00' ∉ part.toList

theorem nameable_ofString {text : String} (handed : '\x00' ∉ text.toList) :
    (ofString text).Nameable := by
  intro part member
  simp only [ofString, List.mem_filter, List.mem_map] at member
  obtain ⟨⟨segment, isSegment, rfl⟩, _⟩ := member
  rw [String.toList_ofList]
  exact fun null => handed (mem_of_mem_segments isSegment _ null)

theorem mem_of_mem_stem {name : List Char} : ∀ c ∈ stem name, c ∈ name := by
  intro c member
  unfold stem at member
  simp only at member
  split at member
  · exact member
  · exact List.mem_of_mem_take member

namespace Nameable

variable {path : Path}

theorem withSuffix (nameable : path.Nameable) {suffix : String}
    (plain : '\x00' ∉ suffix.toList) : (path.withSuffix suffix).Nameable := by
  unfold Path.withSuffix
  split
  · exact nameable
  · rename_i name last
    intro part member
    rcases List.mem_append.mp member with kept | replaced
    · exact nameable part (List.dropLast_subset _ kept)
    · rw [List.mem_singleton.mp replaced, String.toList_append, String.toList_ofList,
        List.mem_append]
      rintro (inStem | inSuffix)
      · exact nameable name (List.mem_of_getLast? last) (mem_of_mem_stem _ inStem)
      · exact plain inSuffix

theorem text (nameable : path.Nameable) : '\x00' ∉ path.text.toList := by
  have rooted : '\x00' ∉ path.root.text.toList := by
    cases path.root <;> decide
  unfold Path.text
  split
  · decide
  · rw [String.toList_append, List.mem_append, String.toList_intercalate]
    rintro (inRoot | null)
    · exact rooted inRoot
    · rcases Text.mem_intercalate null with slash | ⟨piece, isPiece, inside⟩
      · exact absurd slash (by decide)
      · obtain ⟨part, member, rfl⟩ := List.mem_map.mp isPiece
        exact nameable part member inside

end Nameable

end Path

namespace CommandLine

namespace Arguments

/-- The value of a letter is the end of the run of letters. -/
theorem suffix_of_readLetters {letters : List Char} {given : List Given}
    {pending : Option Pending} (read : readLetters letters = .ok (given, pending)) :
    ∀ entry ∈ given, entry.value.toList <:+ letters := by
  induction letters generalizing given pending with
  | nil =>
      cases read
      simp
  | cons letter rest induction =>
      rw [readLetters] at read
      split at read
      · cases read
      · split at read
        · split at read
          · cases read
            simp
          · cases read
            simp only [List.mem_singleton]
            rintro _ rfl
            rw [String.toList_ofList]
            exact List.suffix_cons letter rest
        · split at read
          · rename_i others _ further
            cases read
            rw [List.forall_mem_cons]
            refine ⟨List.nil_suffix, ?_⟩
            intro entry member
            exact (induction further entry member).trans (List.suffix_cons letter rest)
          · cases read

theorem suffix_of_splitValue {word front value : List Char}
    (split : splitValue word = (front, some value)) : value <:+ word := by
  unfold splitValue at split
  simp only at split
  split at split
  · cases split
  · rename_i mark behind rest
    cases split
    have kept := List.dropWhile_suffix (l := word) (· != '=')
    rw [rest] at kept
    exact (List.suffix_cons _ _).trans kept

theorem suffix_of_readSwitches {word : String} {given : List Given} {pending : Option Pending}
    (read : readSwitches word = .ok (given, pending)) :
    ∀ entry ∈ given, entry.value.toList <:+ word.toList := by
  unfold readSwitches at read
  cases cut : splitValue word.toList with
  | mk front value =>
      rw [cut] at read
      simp only at read
      split at read
      · split at read
        · cases read
          simp only [List.mem_singleton]
          rintro _ rfl
          rw [String.toList_ofList]
          exact suffix_of_splitValue cut
        · cases read
          simp
        · cases read
        · cases read
          simp only [List.mem_singleton]
          rintro _ rfl
          exact List.nil_suffix
      · split at read
        · cases read
        · intro entry member
          exact (suffix_of_readLetters read entry member).trans (List.tail_suffix _)

/-- Every value is the end of a word, and the words that are left are words. -/
theorem suffix_of_scan {pending : Option Pending} {words : List String} {arguments : Arguments}
    (scanned : scan pending words = .ok arguments) :
    (∀ entry ∈ arguments.given, ∃ word ∈ words, entry.value.toList <:+ word.toList) ∧
      ∀ word ∈ arguments.words, word ∈ words := by
  induction words generalizing pending arguments with
  | nil =>
      cases pending with
      | none =>
          cases scanned
          simp
      | some _ => cases scanned
  | cons word rest induction =>
      -- What is read behind this word, with the switches of this word in front.
      have front {given : List Given} {next : Option Pending}
          (own : ∀ entry ∈ given, entry.value.toList <:+ word.toList)
          (taken : (scan next rest).map (withGiven given) = .ok arguments) :
          (∀ entry ∈ arguments.given, ∃ other ∈ word :: rest,
              entry.value.toList <:+ other.toList) ∧
            ∀ other ∈ arguments.words, other ∈ word :: rest := by
        cases further : scan next rest with
        | error error =>
            rw [further] at taken
            cases taken
        | ok others =>
            rw [further] at taken
            cases taken
            obtain ⟨values, words⟩ := induction further
            constructor
            · intro entry member
              rcases List.mem_append.mp member with here | later
              · exact ⟨word, List.mem_cons_self, own entry here⟩
              · obtain ⟨other, isWord, ends⟩ := values entry later
                exact ⟨other, List.mem_cons_of_mem _ isWord, ends⟩
            · intro other member
              exact List.mem_cons_of_mem _ (words other member)
      cases pending with
      | some waiting =>
          rw [scan] at scanned
          exact front (by simp) scanned
      | none =>
          rw [scan] at scanned
          split at scanned
          · cases scanned
            exact ⟨by simp, fun other member => List.mem_cons_of_mem _ member⟩
          · split at scanned
            · split at scanned
              · cases scanned
              · rename_i switches
                exact front (suffix_of_readSwitches switches) scanned
            · cases further : scan none rest with
              | error error =>
                  rw [further] at scanned
                  cases scanned
              | ok others =>
                  rw [further] at scanned
                  cases scanned
                  obtain ⟨values, words⟩ := induction further
                  constructor
                  · intro entry member
                    obtain ⟨other, isWord, ends⟩ := values entry member
                    exact ⟨other, List.mem_cons_of_mem _ isWord, ends⟩
                  · intro other member
                    rcases List.mem_cons.mp member with rfl | later
                    · exact List.mem_cons_self
                    · exact List.mem_cons_of_mem _ (words other later)

theorem exists_given_of_mem_settled {given : List Given} {entry : Given}
    (member : entry ∈ settled given) : ∃ other ∈ given, other.value = entry.value := by
  simp only [settled, List.mem_filterMap, Option.map_eq_some_iff] at member
  obtain ⟨switch, _, value, last, rfl⟩ := member
  obtain ⟨other, final, rfl⟩ := Option.map_eq_some_iff.mp last
  exact ⟨other, (List.mem_filter.mp (List.mem_of_getLast? final)).1, rfl⟩

end Arguments

theorem givenFile_eq_ok {directory : Directory} {text : String} {path : Path}
    (outcome : givenFile directory text = .ok path) : path = .ofString text := by
  unfold givenFile at outcome
  split at outcome
  · cases outcome
    rfl
  · cases outcome

namespace Settings

/-- The paths of files to be written that were given. -/
def paths (settings : Settings) : List Path :=
  settings.output.toList ++ settings.listing.toList

theorem outputPath_eq_ok {directory : Directory} {text : String} {path : Path}
    (outcome : outputPath directory text = .ok path) : path = .ofString text := by
  unfold outputPath at outcome
  split at outcome
  · cases outcome
  · exact givenFile_eq_ok outcome
  · cases outcome
    rfl

theorem paths_of_apply {directory : Directory} {settings next : Settings} {entry : Given}
    (applied : settings.apply directory entry = .ok next) :
    ∀ path ∈ next.paths, path ∈ settings.paths ∨ path = .ofString entry.value := by
  unfold apply at applied
  cases switch : entry.switch with
  | output =>
      rw [switch] at applied
      cases read : outputPath directory entry.value with
      | error fault =>
          simp only [read] at applied
          cases applied
      | ok given =>
          simp only [read] at applied
          cases applied
          simp only [paths, Option.toList_some, List.singleton_append, List.mem_cons,
            List.mem_append]
          rintro path (rfl | kept)
          · exact .inr (outputPath_eq_ok read)
          · exact .inl (.inr kept)
  | listing =>
      rw [switch] at applied
      cases read : outputPath directory entry.value with
      | error fault =>
          simp only [read] at applied
          cases applied
      | ok given =>
          simp only [read] at applied
          cases applied
          simp only [paths, Option.toList_some, List.mem_append, List.mem_singleton]
          rintro path (kept | rfl)
          · exact .inl (.inl kept)
          · exact .inr (outputPath_eq_ok read)
  | maxRecords | maxSymbols | maxLiterals =>
      rw [switch] at applied
      cases read : capacity entry.value with
      | error fault =>
          simp only [read] at applied
          cases applied
      | ok value =>
          simp only [read] at applied
          cases applied
          exact fun path member => .inl member
  | dump | verbose | version | help =>
      rw [switch] at applied
      cases applied
      exact fun path member => .inl member

theorem paths_of_applyAll {directory : Directory} {settings next : Settings} {given : List Given}
    (applied : settings.applyAll directory given = .ok next) :
    ∀ path ∈ next.paths, path ∈ settings.paths ∨
      ∃ entry ∈ given, path = .ofString entry.value := by
  induction given generalizing settings with
  | nil =>
      cases applied
      exact fun path member => .inl member
  | cons entry rest induction =>
      rw [applyAll] at applied
      split at applied
      · cases applied
      · rename_i middle first
        intro path member
        rcases induction applied path member with earlier | ⟨other, later, same⟩
        · rcases paths_of_apply first path earlier with start | here
          · exact .inl start
          · exact .inr ⟨entry, List.mem_cons_self, here⟩
        · exact .inr ⟨other, List.mem_cons_of_mem _ later, same⟩

end Settings

namespace Request

theorem inputPath_eq_ok {directory : Directory} {text : String} {path : Path}
    (outcome : inputPath directory text = .ok path) : path = .ofString text := by
  unfold inputPath at outcome
  split at outcome
  · cases outcome
  · cases outcome
  · exact givenFile_eq_ok outcome

/-- An assembly is asked for with a word, and its settings come from the values. -/
theorem assembly_of_ofWords {directory : Directory} {words : List String} {input : Path}
    {settings : Settings} (request : ofWords directory words = .ok (.assembly input settings)) :
    ∃ arguments word, Arguments.read words = .ok arguments ∧ word ∈ arguments.words ∧
      inputPath directory word = .ok input ∧
      Settings.applyAll directory {} (Arguments.settled arguments.given) = .ok settings := by
  unfold ofWords at request
  split at request
  · cases request
  · rename_i arguments scanned
    split at request
    · -- What is answered at once is no assembly.
      rename_i answer immediate
      unfold immediate? at immediate
      split at immediate <;> cases immediate <;> cases request
    · unfold assemblyOf at request
      split at request
      · cases request
      · rename_i applied
        split at request
        · cases request
        · rename_i word others left
          split at request
          · cases request
          · rename_i path found
            split at request
            · cases request
              exact ⟨arguments, word, scanned, by simp [left], found, applied⟩
            · cases request

end Request

/-- The input of a run and every file that it writes have paths that can be handed over. -/
theorem nameable_of_ofWords {directory : Directory} {words : List String} {input : Path}
    {settings : Settings} (handed : ∀ word ∈ words, '\x00' ∉ word.toList)
    (request : Request.ofWords directory words = .ok (.assembly input settings)) :
    input.Nameable ∧ ∀ target ∈ targets input settings, target.2.Nameable := by
  obtain ⟨arguments, word, scanned, isWord, found, applied⟩ :=
    Request.assembly_of_ofWords request
  obtain ⟨values, left⟩ := Arguments.suffix_of_scan scanned
  rw [Request.inputPath_eq_ok found]
  refine ⟨Path.nameable_ofString (handed word (left word isWord)), ?_⟩
  have own {suffix : String} (plain : '\x00' ∉ suffix.toList) :
      ((Path.ofString word).withSuffix suffix).Nameable :=
    (Path.nameable_ofString (handed word (left word isWord))).withSuffix plain
  have given : ∀ path ∈ settings.paths, path.Nameable := by
    intro path member
    rcases Settings.paths_of_applyAll applied path member with default | ⟨entry, settled, rfl⟩
    · cases default
    · obtain ⟨other, isGiven, same⟩ := Arguments.exists_given_of_mem_settled settled
      obtain ⟨holder, isHanded, ends⟩ := values other isGiven
      rw [← same]
      exact Path.nameable_ofString fun null => handed holder isHanded (ends.subset null)
  have chosen {path? : Option Path} {suffix : String}
      (among : ∀ path ∈ path?, path ∈ settings.paths) (plain : '\x00' ∉ suffix.toList) :
      (path?.getD ((Path.ofString word).withSuffix suffix)).Nameable := by
    cases path? with
    | none => exact own plain
    | some path => exact given path (among path rfl)
  have object : (settings.output.getD ((Path.ofString word).withSuffix ".obj")).Nameable :=
    chosen (by simp +contextual [Settings.paths]) (by decide)
  have listing : (settings.listing.getD ((Path.ofString word).withSuffix ".lst")).Nameable :=
    chosen (by simp +contextual [Settings.paths]) (by decide)
  have dump : ((Path.ofString word).withSuffix ".dump").Nameable := own (by decide)
  unfold targets
  split <;> simp [object, listing, dump]

end CommandLine

end Lc3Assembler
