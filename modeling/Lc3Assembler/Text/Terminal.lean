/-!
# Terminal control sequences

What is shown to the user is plain text: control sequences of a terminal are
left out of it.  A control sequence is an escape character and an opening
bracket, then parameter characters, then intermediate characters, and one final
character.  Anything else that starts with an escape character is kept.
-/

namespace Lc3Assembler.Text

def escapeCharacter : Char := '\x1b'

/-- A character of the parameters: digits, colon, semicolon and four more. -/
def isParameter (c : Char) : Bool :=
  0x30 ≤ c.toNat && c.toNat ≤ 0x3F

/-- A character between the parameters and the end. -/
def isIntermediate (c : Char) : Bool :=
  0x20 ≤ c.toNat && c.toNat ≤ 0x2F

/-- The character that ends a control sequence. -/
def isFinal (c : Char) : Bool :=
  0x40 ≤ c.toNat && c.toNat ≤ 0x7E

/-- How many characters behind the opening bracket belong to the sequence, if it
is complete. -/
def controlBody? (text : List Char) : Option Nat :=
  let parameters := text.takeWhile isParameter
  let behind := text.drop parameters.length
  let intermediates := behind.takeWhile isIntermediate
  match (behind.drop intermediates.length).head? with
  | some last =>
      if isFinal last then some (parameters.length + intermediates.length + 1) else none
  | none => none

/-- How many characters behind its first one belong to the control sequence that
a text starts with. -/
def controlRest? : List Char → Option Nat
  | first :: bracket :: body =>
      if first = escapeCharacter ∧ bracket = '[' then (controlBody? body).map (· + 1) else none
  | _ => none

/-- The text after its first `skip` characters, without control sequences. -/
def plainAfter : Nat → List Char → List Char
  | _, [] => []
  | skip + 1, _ :: rest => plainAfter skip rest
  | 0, c :: rest =>
      match controlRest? (c :: rest) with
      | some skip => plainAfter skip rest
      | none => c :: plainAfter 0 rest

/-- A text without control sequences. -/
def plain (text : String) : String :=
  String.ofList (plainAfter 0 text.toList)

/-- A character that starts no control sequence is kept. -/
theorem plainAfter_zero_cons {c : Char} (kept : c ≠ escapeCharacter) (rest : List Char) :
    plainAfter 0 (c :: rest) = c :: plainAfter 0 rest := by
  have noControl : controlRest? (c :: rest) = none := by
    cases rest with
    | nil => rfl
    | cons next rest => simp [controlRest?, kept]
  rw [plainAfter, noControl]

/-- A text without escape characters is shown as it is. -/
theorem plainAfter_zero_of_forall_ne {text : List Char}
    (clean : ∀ c ∈ text, c ≠ escapeCharacter) : plainAfter 0 text = text := by
  induction text with
  | nil => rfl
  | cons head tail induction =>
      have tailClean : ∀ c ∈ tail, c ≠ escapeCharacter := by
        intro c member
        exact clean c (by simp [member])
      rw [plainAfter_zero_cons (clean head (by simp)), induction tailClean]

theorem plain_of_forall_ne {text : String}
    (clean : ∀ c ∈ text.toList, c ≠ escapeCharacter) : plain text = text := by
  rw [plain, plainAfter_zero_of_forall_ne clean, String.ofList_toList]

end Lc3Assembler.Text
