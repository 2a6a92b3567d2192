import Lc3Assembler.Program.Store

/-!
# Listings

A listing shows every record with the address and the contents of the words it
produced.  A string continues on rows of its own, and the pooled literals come
last.
-/

namespace Lc3Assembler

/-- What a record put into memory, as far as its row shows it. -/
inductive Storage where
  | none
  | reserved (address : Int)
  | word (address : Int) (contents : Nat)
  deriving DecidableEq, Repr

/-- One row of a listing. -/
inductive ListingRow where
  | source (storage : Storage) (record : Record)
  | continuation (address : Int) (word : Nat)
  | literal (address : Int) (word : Nat)
  deriving DecidableEq, Repr

namespace Listing

/-- Width of the address and contents columns. -/
def storageWidth : Nat := 28

/-- Address, and contents in hexadecimal and binary. -/
def wordColumns (address : Int) (word : Nat) : String :=
  "(" ++ Text.hexUpper 4 address ++ ") " ++ Text.hexUpper 4 word ++ " " ++ Text.binary 16 word

def storageColumns : Storage → String
  | .none => Text.left storageWidth ""
  | .reserved address => Text.left storageWidth ("(" ++ Text.hexUpper 4 address ++ ")")
  | .word address contents => wordColumns address contents

/-- Line number, label, opcode and operands. -/
def sourceColumns (record : Record) : String :=
  " (" ++ Text.decimalRight 4 record.line ++ ") " ++ Text.left 8 record.labelText ++ " "
    ++ Text.left 5 record.operation.name ++ " " ++ Operand.joined record.operands

end Listing

def ListingRow.text : ListingRow → String
  | .source storage record =>
      String.ofList
        (Text.trimEnd (Listing.storageColumns storage ++ Listing.sourceColumns record).toList)
  | .continuation address word => Listing.wordColumns address word
  | .literal address word => Listing.wordColumns address word ++ " ( lit)"

end Lc3Assembler
