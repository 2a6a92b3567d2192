import Lc3Assembler.Diagnosis.Report
import Lc3Assembler.Failure
import Lc3Assembler.Limits

/-!
# Traces

A run notes what happens on its way: progress, log entries and warnings.
`Traced` pairs the events of a computation with its outcome, so that what was
noted before a failure is not lost.
-/

namespace Lc3Assembler

/-- The files a run writes. -/
inductive Product where
  | object
  | listing
  | dump
  deriving DecidableEq, Repr

/-- What a run notes. -/
inductive Event where
  | readingText
  | readingFile (path : String)
  | segmentOpened (segment : String) (address : Int) (relocatable : Bool)
  | symbolDefined (line : Int) (name : String) (value : Int)
  | literalPooled (line : Int) (text : String)
  | segmentClosed (segment : String) (length : Int) (literals : Nat) (pool exec : Int)
  | warned (diagnostic : Diagnostic)
  | parsed (records symbols literals : Nat)
  | generated (objectRecords listingRows : Nat) (segment : String)
  | encoded (objectRecords : Nat)
  | failed (error : AssemblyError)
  | wrote (product : Product) (path : String)
  | ignored (setting : Limits.IgnoredSetting)
  deriving DecidableEq, Repr

def Event.warning? : Event → Option Diagnostic
  | .warned diagnostic => some diagnostic
  | _ => none

/-- The warnings among some events, in order. -/
def warningsOf (events : List Event) : List Diagnostic :=
  events.filterMap Event.warning?

/-- The events of a computation and its outcome. -/
structure Traced (α : Type) where
  events : List Event
  outcome : Except Failure α

namespace Traced

def fail (failure : Failure) : Traced α :=
  { events := [], outcome := .error failure }

def note (event : Event) : Traced Unit :=
  { events := [event], outcome := .ok () }

/-- A computation that notes nothing. -/
def lift (outcome : Except Failure α) : Traced α :=
  { events := [], outcome }

/-- A computation behind events that were noted before. -/
def after (earlier : List Event) (run : Traced α) : Traced α :=
  { run with events := earlier ++ run.events }

/-- Go on with a result; a failure keeps the events up to it. -/
def andThen (first : Traced α) (next : α → Traced β) : Traced β :=
  match first.outcome with
  | .ok value =>
      let second := next value
      { events := first.events ++ second.events, outcome := second.outcome }
  | .error failure => { events := first.events, outcome := .error failure }

instance : Monad Traced where
  pure value := { events := [], outcome := .ok value }
  bind := andThen

@[simp] theorem outcome_pure (value : α) : (pure value : Traced α).outcome = .ok value := rfl

@[simp] theorem outcome_note_bind (event : Event) (next : Unit → Traced β) :
    (note event >>= next).outcome = (next ()).outcome := rfl

@[simp] theorem lift_ok_bind (value : α) (next : α → Traced β) :
    (lift (.ok value) >>= next) = next value := rfl

@[simp] theorem lift_error_bind (failure : Failure) (next : α → Traced β) :
    (lift (.error failure) >>= next) = fail failure := rfl

end Traced

end Lc3Assembler
