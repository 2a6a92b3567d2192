import Lc3Assembler.Proofs.DirectoryWrites
import Lc3Assembler.Proofs.HandedPaths
import Lc3Assembler.Proofs.SessionRuns
import Mathlib.Data.List.Basic

/-!
# The files that a run writes

A rejected source leaves the directory as it is.  Otherwise the files of the assembly
are written in order, up to the first that the system refuses, and this refusal fails
the run.  Nothing besides the files that were written changes.
-/

namespace Lc3Assembler

namespace Session

variable {session : Session} {directory : Directory} {path : Path}

/-- The text of a file of an assembly. -/
def fileText (program : Program) (output : Output) : Product → String
  | .object => output.objectText
  | .listing => output.listingText
  | .dump => program.dump

/-- An assembly that succeeds keeps its program and its output. -/
theorem productText_of_assembleFile {output : Output}
    (succeeds : (session.assembleFile directory path).2.outcome = .ok output) :
    ∃ program, (session.assembleFile directory path).1.program = some program ∧
      ∀ product, (session.assembleFile directory path).1.productText product =
        .ok (fileText program output product) := by
  rw [assembleFile] at succeeds ⊢
  split at succeeds
  · cases succeeds
  · rename_i content read
    have left := session.assembleSource_leftBy (.ofBytes content)
    simp only at succeeds ⊢
    cases outcome : (assemble session.limits (.ofBytes content)).outcome with
    | error failure =>
        rw [left.outcome, outcome] at succeeds
        cases succeeds
    | ok result =>
        have program := left.program
        have kept := left.output
        rw [outcome] at program
        rw [succeeds] at kept
        refine ⟨result.1, program, ?_⟩
        intro product
        simp only [productText, requireProgram, requireOutput, program, kept]
        cases product <;> rfl

/-- A file whose text is known is written with it. -/
theorem write_of_productText {product : Product} {shown text : String}
    (known : session.productText product = .ok text) :
    session.write directory product path shown =
      writeText directory product path shown text := by
  unfold Session.write
  rw [known]

end Session

namespace CommandLine

/-- The files that an assembly asks for, in the order in which they are written. -/
def requestedFiles (input : Path) (settings : Settings) (program : Program) (output : Output) :
    List (Path × String) :=
  [(settings.output.getD (input.withSuffix ".obj"), output.objectText),
   (settings.listing.getD (input.withSuffix ".lst"), output.listingText)]
    ++ (if settings.dump then [(input.withSuffix ".dump", program.dump)] else [])

theorem requestedFiles_eq_map (input : Path) (settings : Settings) (program : Program)
    (output : Output) :
    requestedFiles input settings program output =
      (targets input settings).map fun target =>
        (target.2, Session.fileText program output target.1) := by
  unfold requestedFiles targets
  split <;> rfl

/-- How the writing of files ended that are still left. -/
inductive Writing.Ended (writing : Writing) : List (Path × String) → Prop where
  | complete (smooth : writing.trouble = none) : Ended writing []
  | refused {kind text : String} {path : Path} {refusal : Refusal} (others : List (Path × String))
      (fails : writing.directory.write path (Text.Utf8.encode text.toList) =
        .error (.refused refusal))
      (met : writing.trouble = some (.unwritten kind path.text refusal)) :
      Ended writing ((path, text) :: others)

/-- Files are received in order, up to the first that is refused. -/
theorem writeAll_cut {session : Session} {program : Program} {output : Output}
    (texts : ∀ product, session.productText product =
      .ok (Session.fileText program output product))
    {files : List (Product × Path)} (nameable : ∀ target ∈ files, target.2.Nameable)
    (directory : Directory) :
    ∃ written left,
      (files.map fun target => (target.2, Session.fileText program output target.1)) =
        written ++ left ∧
      directory.Receives written (writeAll session directory files).directory ∧
      (writeAll session directory files).Ended left := by
  induction files generalizing directory with
  | nil => exact ⟨[], [], rfl, .nothing, .complete rfl⟩
  | cons target others induction =>
      obtain ⟨product, path⟩ := target
      obtain ⟨here, later⟩ := List.forall_mem_cons.mp nameable
      rw [writeAll, Session.write_of_productText (texts product), Session.writeText]
      cases stored : directory.write path
          (Text.Utf8.encode (Session.fileText program output product).toList) with
      | error failure =>
          obtain ⟨refusal, rfl⟩ := Directory.refused_of_write here.text stored
          exact ⟨[], _, rfl, .nothing, .refused _ stored rfl⟩
      | ok next =>
          obtain ⟨written, left, cut, received, ended⟩ := induction later next
          refine ⟨_ :: written, left, congrArg _ cut, .file stored received, ?_⟩
          cases ended with
          | complete smooth => exact .complete smooth
          | refused others fails met => exact .refused others fails met

/-- What a run leaves that wrote some files and met those that are left. -/
structure Delivers (before : Directory) (written left : List (Path × String))
    (outcome : Outcome) : Prop where
  received : before.Receives written outcome.directory
  success_iff : outcome.status = .success ↔ left = []
  /-- The first file that was not written is refused still. -/
  broken : ∀ path text others, left = (path, text) :: others →
    outcome.status = .buildError ∧
      ∃ refusal, outcome.directory.write path (Text.Utf8.encode text.toList) =
        .error (.refused refusal)
  held : (written.Pairwise fun first second => before.Apart first.1 second.1) →
    ∀ file ∈ written, outcome.directory.Holds file.1 (Text.Utf8.encode file.2.toList)
  untouched : ∀ location, (∀ file ∈ written, before.locate file.1 ≠ .ok location) →
    outcome.directory.entry? location = before.entry? location

theorem delivers_of_received {before : Directory} {written left : List (Path × String)}
    {outcome : Outcome} (received : before.Receives written outcome.directory)
    (success_iff : outcome.status = .success ↔ left = [])
    (broken : ∀ path text others, left = (path, text) :: others →
      outcome.status = .buildError ∧
        ∃ refusal, outcome.directory.write path (Text.Utf8.encode text.toList) =
          .error (.refused refusal)) :
    Delivers before written left outcome :=
  { received, success_iff, broken
    held := received.holds
    untouched := fun _ elsewhere => received.entry?_other elsewhere }

/-- The close of a run whose source was assembled. -/
theorem finish_delivers {session : Session} {program : Program} {output : Output}
    (assembled : session.program = some program)
    (texts : ∀ product, session.productText product =
      .ok (Session.fileText program output product))
    {input : Path} {settings : Settings}
    (nameable : ∀ target ∈ targets input settings, target.2.Nameable)
    (printed complaints : List String) (directory : Directory) :
    ∃ written left,
      requestedFiles input settings program output = written ++ left ∧
      Delivers directory written left
        (finish session input settings printed complaints directory) := by
  obtain ⟨written, left, cut, received, ended⟩ := writeAll_cut texts nameable directory
  refine ⟨written, left, by rw [requestedFiles_eq_map, cut], ?_⟩
  unfold finish
  cases ended with
  | complete smooth =>
      simp only [smooth, assembled]
      exact delivers_of_received received (by simp) (by simp)
  | refused others fails met =>
      simp only [met]
      refine delivers_of_received received ?_ ?_
      · simp [stopped, Trouble.status]
      · rintro path text others ⟨⟩
        exact ⟨rfl, _, fails⟩

/-- A run that gets to its source changes nothing if this is rejected, and otherwise writes
the object file, the listing and, where it is asked for, the dump, in this order and as far
as the system lets it. -/
theorem run_writes_files {parse : OptionParser} {directory : Directory}
    {environment : Limits.Environment} {words : List String} {input : Path}
    {settings : Settings} {session : Session}
    (request : parse directory words = .ok (.assembly input settings))
    (nameable : ∀ target ∈ targets input settings, target.2.Nameable)
    (started : Session.start (settings.limits (Limits.ofEnvironment environment).1) =
      .ok session) :
    (∀ failure, (session.assembleFile directory input).2.outcome = .error failure →
      (run parse directory environment words).directory = directory ∧
        (run parse directory environment words).status ≠ .success) ∧
    ∀ output, (session.assembleFile directory input).2.outcome = .ok output →
      ∃ program, (session.assembleFile directory input).1.program = some program ∧
        ∃ written left,
          requestedFiles input settings program output = written ++ left ∧
          Delivers directory written left (run parse directory environment words) := by
  simp only [run, request, runAssembly, started]
  constructor
  · intro failure fails
    simp only [fails]
    exact ⟨rfl, Trouble.status_ne_success _⟩
  · intro output succeeds
    simp only [succeeds]
    obtain ⟨program, assembled, texts⟩ := Session.productText_of_assembleFile succeeds
    exact ⟨program, assembled,
      finish_delivers assembled texts nameable _ _ directory⟩

/-- A directory with a source, and without one for listings. -/
def unlistedDirectory : Directory :=
  Directory.addFile {} "p.asm"
    (Text.Utf8.encode "S        .ORIG   x3000\n         RET\n         .END\n".toList)

/-- A run that is to write a listing there. -/
def unlistedRun : Outcome :=
  run Request.ofWords unlistedDirectory {} ["-d", "-l", "lists/p.lst", "p.asm"]

/-- The object file is written, the listing is refused, and the dump is left. -/
theorem unlistedRun_writes_object :
    unlistedRun.status = .buildError ∧
      unlistedRun.directory.read (.ofString "p.obj") =
        .ok (Text.Utf8.encode "HS     30000001\nT3000D000\nE3000\n".toList) ∧
      ∀ output,
        (Session.assembleFile { limits := {} } unlistedDirectory
            (.ofString "p.asm")).2.outcome = .ok output →
          ∃ program,
            (Session.assembleFile { limits := {} } unlistedDirectory
              (.ofString "p.asm")).1.program = some program ∧
            ∃ written left,
              requestedFiles (.ofString "p.asm")
                  { listing := some (.ofString "lists/p.lst"), dump := true } program output =
                written ++ left ∧
              Delivers unlistedDirectory written left unlistedRun := by
  have request : Request.ofWords unlistedDirectory ["-d", "-l", "lists/p.lst", "p.asm"] =
      .ok (.assembly (.ofString "p.asm")
        { listing := some (.ofString "lists/p.lst"), dump := true }) := by
    decide +kernel
  refine ⟨by decide +kernel, by decide +kernel, ?_⟩
  exact (run_writes_files request (nameable_of_ofWords (by decide +kernel) request).2 rfl).2

end CommandLine

end Lc3Assembler
