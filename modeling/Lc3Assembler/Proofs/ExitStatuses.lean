import Lc3Assembler.Proofs.Rejections
import Lc3Assembler.Proofs.WrittenFiles

/-!
# Runs that end with an internal error

A source is rejected or assembled, unless it is found not to be UTF-8 when a block is decoded
that its reader still asks for, or its reader gets to an operand that is nested too deep.
These two are no error of the source and no refusal by the system, so they alone end a run as
something that was not foreseen.
-/

namespace Lc3Assembler

/-- The bytes are not UTF-8, and the lines that were handed over before this was found were
all taken in: none of them is rejected, ends the segment or meets the record ceiling. -/
structure Undecoded (limits : Limits) (content : List UInt8) : Prop where
  faulty : (Text.Utf8.decode content).fault.isSome = true
  taken : ∃ events draft,
    Draft.Reads limits (Text.finishedFileLines (Text.Utf8.decode content).text) events draft

theorem undecoded_iff {limits : Limits} {content : List UInt8} :
    Undecoded limits content ↔
      ∃ fault, (Program.read limits (.ofBytes content)).outcome =
        .error (.undecodable fault) := by
  simp only [Program.read_undecodable_iff]
  cases found : (Text.Utf8.decode content).fault with
  | none =>
      have decoded : (Source.ofBytes content).ending = .complete := by
        simp only [Source.ofBytes, found, Source.ofLines]
      constructor
      · rintro ⟨faulty, _⟩
        rw [found] at faulty
        cases faulty
      · rintro ⟨fault, ending, _⟩
        rw [decoded] at ending
        cases ending
  | some fault =>
      have source : Source.ofBytes content =
          { lines := Text.finishedFileLines (Text.Utf8.decode content).text
            ending := .undecodable fault } := by
        simp only [Source.ofBytes, found]
      rw [source]
      constructor
      · rintro ⟨_, taken⟩
        exact ⟨fault, rfl, taken⟩
      · rintro ⟨_, _, taken⟩
        exact ⟨by rw [found]; rfl, taken⟩

/-- What nobody has foreseen of the content of a file: that it is not UTF-8 where lines are
still asked for, or that an operand is nested too deep in a line that is got to. -/
def Unforeseen (limits : Limits) (content : List UInt8) : Prop :=
  Undecoded limits content ∨ (Source.ofBytes content).GetsTooDeep limits

namespace Session

theorem start_eq_ok_iff {limits : Limits} {session : Session} :
    start limits = .ok session ↔ limits.Positive ∧ session = { limits := limits } := by
  rw [← Limits.validate_eq_ok_iff]
  unfold start
  cases limits.validate with
  | ok _ => simp [eq_comm]
  | error rule => simp

variable {session : Session} {directory : Directory} {path : Path} {content : List UInt8}

theorem outcome_assembleFile (stored : directory.read path = .ok content) :
    (session.assembleFile directory path).2.outcome =
      Prod.snd <$> (assemble session.limits (.ofBytes content)).outcome := by
  rw [assembleFile, stored]
  exact session.outcome_assembleSource (.ofBytes content)

/-- A file that can be read ends its assembly as something unforeseen exactly if its content
is that. -/
theorem assembleFile_unforeseen_iff (stored : directory.read path = .ok content) :
    (∃ failure, (session.assembleFile directory path).2.outcome = .error failure ∧
        (CommandLine.Trouble.ofFailure failure).status = .internalError) ↔
      Unforeseen session.limits content := by
  rw [outcome_assembleFile stored]
  constructor
  · rintro ⟨failure, fails, internal⟩
    cases assembled : (assemble session.limits (.ofBytes content)).outcome with
    | ok result =>
        rw [assembled] at fails
        cases fails
    | error other =>
        rw [assembled] at fails
        cases fails
        rcases assemble_failure assembled with ⟨error, rfl⟩ | ⟨fault, rfl, read⟩ | ⟨rfl, deep⟩
        · cases internal
        · exact .inl (undecoded_iff.mpr ⟨fault, read⟩)
        · exact .inr deep
  · rintro (undecoded | deep)
    · obtain ⟨fault, read⟩ := undecoded_iff.mp undecoded
      refine ⟨.undecodable fault, ?_, rfl⟩
      rw [outcome_assemble, read]
      rfl
    · refine ⟨.tooDeep, ?_, rfl⟩
      rw [outcome_assemble, Program.read_tooDeep_iff.mpr deep]
      rfl

end Session

namespace CommandLine

/-- A run whose source was assembled ends well or fails to write a file. -/
theorem Delivers.status {before : Directory} {written left : List (Path × String)}
    {outcome : Outcome} (delivers : Delivers before written left outcome) :
    outcome.status = .success ∨ outcome.status = .buildError := by
  cases left with
  | nil => exact .inl (delivers.success_iff.mpr rfl)
  | cons file others => exact .inr (delivers.broken file.1 file.2 others rfl).1

theorem runAssembly_internalError_iff {directory : Directory}
    {environment : Limits.Environment} {input : Path} {settings : Settings}
    (given : input.Nameable) (nameable : ∀ target ∈ targets input settings, target.2.Nameable) :
    (runAssembly directory environment input settings).status = .internalError ↔
      (settings.limits (Limits.ofEnvironment environment).1).Positive ∧
        ∃ content, directory.read input = .ok content ∧
          Unforeseen (settings.limits (Limits.ofEnvironment environment).1) content := by
  generalize limited : settings.limits (Limits.ofEnvironment environment).1 = limits
  simp only [runAssembly, limited]
  cases started : Session.start limits with
  | error rule =>
      constructor
      · intro impossible
        cases impossible
      · rintro ⟨positive, _⟩
        rw [Session.start_eq_ok_iff.mpr ⟨positive, rfl⟩] at started
        cases started
  | ok session =>
      obtain ⟨positive, rfl⟩ := Session.start_eq_ok_iff.mp started
      have unforeseen_iff {content : List UInt8} (stored : directory.read input = .ok content) :=
        @Session.assembleFile_unforeseen_iff { limits } _ _ _ stored
      cases outcome : (Session.assembleFile { limits } directory input).2.outcome with
      | error failure =>
          simp only [outcome, stopped]
          constructor
          · intro internal
            cases stored : directory.read input with
            | error unread =>
                obtain ⟨refusal, rfl⟩ := Directory.refused_of_read given.text stored
                rw [Session.assembleFile, stored] at outcome
                cases outcome
                exact absurd internal (Trouble.status_refused_ne_internalError refusal)
            | ok content =>
                exact ⟨positive, content, rfl,
                  (unforeseen_iff stored).mp ⟨failure, outcome, internal⟩⟩
          · rintro ⟨_, content, stored, unforeseen⟩
            obtain ⟨other, fails, internal⟩ := (unforeseen_iff stored).mpr unforeseen
            rw [outcome] at fails
            cases fails
            exact internal
      | ok output =>
          simp only [outcome]
          obtain ⟨program, assembled, texts⟩ := Session.productText_of_assembleFile outcome
          obtain ⟨_, _, _, delivers⟩ :=
            finish_delivers assembled texts nameable _ _ directory
          constructor
          · intro internal
            rcases delivers.status with success | failed
            · rw [internal] at success
              cases success
            · rw [internal] at failed
              cases failed
          · rintro ⟨_, content, stored, unforeseen⟩
            obtain ⟨_, fails, _⟩ := (unforeseen_iff stored).mpr unforeseen
            rw [outcome] at fails
            cases fails

/-- A run ends with an internal error exactly if it gets to its source and this is unforeseen:
it is not UTF-8 where its reader still asks for lines, or its reader gets to an operand that is
nested too deep. -/
theorem run_internalError_iff {parse : OptionParser} {directory : Directory}
    {environment : Limits.Environment} {words : List String}
    (nameable : ∀ input settings, parse directory words = .ok (.assembly input settings) →
      input.Nameable ∧ ∀ target ∈ targets input settings, target.2.Nameable) :
    (run parse directory environment words).status = .internalError ↔
      ∃ input settings content,
        parse directory words = .ok (.assembly input settings) ∧
        (settings.limits (Limits.ofEnvironment environment).1).Positive ∧
        directory.read input = .ok content ∧
        Unforeseen (settings.limits (Limits.ofEnvironment environment).1) content := by
  unfold run
  cases request : parse directory words with
  | error error => simp
  | ok answer =>
      cases answer with
      | version => simp
      | help => simp
      | assembly input settings =>
          obtain ⟨given, targets⟩ := nameable input settings request
          simp only [runAssembly_internalError_iff given targets]
          constructor
          · rintro ⟨positive, content, stored, unforeseen⟩
            exact ⟨input, settings, content, rfl, positive, stored, unforeseen⟩
          · rintro ⟨_, _, content, same, positive, stored, unforeseen⟩
            cases same
            exact ⟨positive, content, stored, unforeseen⟩

/-- A directory with a source that breaks off at a byte which starts no character. -/
def faultyDirectory : Directory :=
  Directory.addFile {} "p.asm"
    (Text.Utf8.encode "S        .ORIG   x3000\n".toList ++ [0xFF])

/-- An environment with room for five records. -/
def narrowEnvironment : Limits.Environment :=
  { assigned := [("LC3ASM_MAX_RECORDS", "5")] }

theorem faultyRun_unforeseen :
    (run Request.ofWords faultyDirectory narrowEnvironment ["-d", "p.asm"]).status =
        .internalError ∧
      ∃ input settings content,
        Request.ofWords faultyDirectory ["-d", "p.asm"] = .ok (.assembly input settings) ∧
        (settings.limits (Limits.ofEnvironment narrowEnvironment).1).Positive ∧
        faultyDirectory.read input = .ok content ∧
        Unforeseen (settings.limits (Limits.ofEnvironment narrowEnvironment).1) content := by
  have internal :
      (run Request.ofWords faultyDirectory narrowEnvironment ["-d", "p.asm"]).status =
        .internalError := by
    decide +kernel
  refine ⟨internal, (run_internalError_iff ?_).mp internal⟩
  exact fun _ _ => nameable_of_ofWords (by decide +kernel)

/-- One such byte alone, under valid options and limits, is an internal error. -/
theorem strayByte_internalError :
    Request.ofWords (Directory.addFile {} "h.asm" [0xFF]) ["h.asm"] =
        .ok (.assembly (.ofString "h.asm") {}) ∧
      (Limits.ofEnvironment {}).1.Positive ∧
      (run Request.ofWords (Directory.addFile {} "h.asm" [0xFF]) {} ["h.asm"]).status =
        .internalError ∧
      (run Request.ofWords (Directory.addFile {} "h.asm" [0xFF]) {} ["h.asm"]).complaints =
        ["Internal error: 'utf-8' codec can't decode byte 0xff in position 0: "
          ++ "invalid start byte"] := by
  refine ⟨by decide +kernel, ?_, by decide +kernel, by decide +kernel⟩
  rw [← Limits.validate_eq_ok_iff]
  rfl

end CommandLine

end Lc3Assembler
