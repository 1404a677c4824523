import Mips32.Assembly
import Mips32.Console.Argument
import Mips32.Console.Command
import Mips32.Console.Invocation
import Mips32.Console.Session
import Mips32.Disassembly
import Mips32.Field
import Mips32.Format
import Mips32.Hint
import Mips32.Instruction
import Mips32.InstructionSet.Basic
import Mips32.InstructionSet.Standard
import Mips32.Literal
import Mips32.Main
import Mips32.Mnemonic.Address
import Mips32.Mnemonic.Agreement
import Mips32.Mnemonic.Legality
import Mips32.Mnemonic.SyntaxError
import Mips32.Mnemonic.Token
import Mips32.Operand
import Mips32.Operation
import Mips32.Proofs.Additions
import Mips32.Proofs.Addresses
import Mips32.Proofs.Agreement
import Mips32.Proofs.Assembly
import Mips32.Proofs.Encodings
import Mips32.Proofs.Fields
import Mips32.Proofs.Literals
import Mips32.Proofs.Operands
import Mips32.Proofs.Lookup
import Mips32.Proofs.OperandTexts
import Mips32.Proofs.Order
import Mips32.Proofs.Reassembly
import Mips32.Proofs.RoundTrip
import Mips32.Proofs.StandardSet
import Mips32.Proofs.Tables
import Mips32.Proofs.Tokens
import Mips32.Proofs.Words
import Mips32.Register
import Mips32.Report
import Mips32.Role
import Mips32.Shape
import Mips32.Text.Basic
import Mips32.Text.Extending
import Mips32.Text.Numeral
import Mips32.Text.Quoted
import Mips32.Text.Unprintable
import Mips32.Word.Range
import Mips32.Word.View
import Mips32.Proofs.CommaGroups
import Mips32.Proofs.ValidEncodings
import Mips32.Proofs.BareAddresses
import Mips32.Proofs.Spellings
import Mips32.Proofs.Checks
import Mips32.Proofs.Injectivity
import Mips32.Proofs.AssembledFields
import Mips32.Proofs.FieldValues
import Mips32.Proofs.Meanings
import Mips32.Proofs.Sessions
import Mips32.Proofs.Registers
import Mips32.Proofs.Layouts
import Mips32.Proofs.Numerals
import Mips32.Proofs.NormalForms
import Mips32.Proofs.AddressOperands
import Mips32.Proofs.Decompositions
import Mips32.Proofs.Ranges
