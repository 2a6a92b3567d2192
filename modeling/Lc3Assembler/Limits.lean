import Lc3Assembler.Failure
import Lc3Assembler.Text.Integer

/-!
# Limits

The tables of an assembly are bounded.  The limits are soft: an entry that a
full table does not take is dropped with a warning, and the record ceiling ends
the segment.  These three can be set in the environment.  A fourth limit comes from
the host: how many calls may nest where an operand is classified.
-/

namespace Lc3Assembler

/-- The capacities of one assembly, and the calls that its host has to spare. -/
structure Limits where
  maxSymbols : Int := 100
  maxLiterals : Int := 50
  maxRecords : Int := 2000
  spareCalls : Nat := defaultSpareCalls
  deriving DecidableEq, Repr

namespace Limits

/-- The limits that a user sets, by name, in the order in which they are checked. -/
def named (limits : Limits) : List (String × Int) :=
  [("max_symbols", limits.maxSymbols), ("max_literals", limits.maxLiterals),
   ("max_records", limits.maxRecords)]

/-- Each of them has to be positive; the first that is not is to blame. -/
def validate (limits : Limits) : Except Misuse Unit :=
  match limits.named.find? fun limit => limit.2 ≤ 0 with
  | some (name, value) => .error (.limit name value)
  | none => .ok ()

/-- The limits that a user sets are positive. -/
def Positive (limits : Limits) : Prop :=
  0 < limits.maxSymbols ∧ 0 < limits.maxLiterals ∧ 0 < limits.maxRecords

theorem validate_eq_ok_iff (limits : Limits) : limits.validate = .ok () ↔ limits.Positive := by
  simp only [validate, named, Positive, List.find?_cons, List.find?_nil]
  by_cases symbols : limits.maxSymbols ≤ 0 <;>
    by_cases literals : limits.maxLiterals ≤ 0 <;>
      by_cases records : limits.maxRecords ≤ 0 <;>
        simp [symbols, literals, records, Int.not_lt.mpr, Int.lt_of_not_ge]

/-- What a run finds around it: the variables with their values, and the calls that the
host has to spare. -/
structure Environment where
  assigned : List (String × String) := []
  spareCalls : Nat := defaultSpareCalls
  deriving DecidableEq, Repr

/-- A variable whose value is no integer. -/
structure IgnoredSetting where
  name : String
  value : String
  deriving DecidableEq, Repr

/-- The limit that a variable sets, or the value that was ignored.  A variable
that is missing or empty sets nothing. -/
def setting (environment : Environment) (name : String) (current : Int) :
    Int × List IgnoredSetting :=
  match environment.assigned.lookup name with
  | none => (current, [])
  | some value =>
      if value.isEmpty then (current, [])
      else
        match Text.readInteger? value with
        | some limit => (limit, [])
        | none => (current, [{ name := name, value := value }])

def symbolsVariable : String := "LC3ASM_MAX_SYMBOLS"

def literalsVariable : String := "LC3ASM_MAX_LITERALS"

def recordsVariable : String := "LC3ASM_MAX_RECORDS"

/-- The limits that an environment sets, and what was ignored. -/
def ofEnvironment (environment : Environment) : Limits × List IgnoredSetting :=
  let defaults : Limits := {}
  let symbols := setting environment symbolsVariable defaults.maxSymbols
  let literals := setting environment literalsVariable defaults.maxLiterals
  let records := setting environment recordsVariable defaults.maxRecords
  ({ maxSymbols := symbols.1
     maxLiterals := literals.1
     maxRecords := records.1
     spareCalls := environment.spareCalls },
    symbols.2 ++ literals.2 ++ records.2)

end Limits

end Lc3Assembler
