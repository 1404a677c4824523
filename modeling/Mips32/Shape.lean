import Mips32.Format
import Mips32.Mnemonic.Token
import Mips32.Role
import Mips32.Text.Quoted

namespace Mips32

inductive ShapeError
  | missingName (pattern : Text)
  | unknownRole (pattern role : Text)
  | roleNotInFormat (role : Role) (format : Format)
deriving DecidableEq, Repr

def ShapeError.message : ShapeError → String
  | .missingName pattern => s!"Pattern {Text.quoted pattern} does not start with iname"
  | .unknownRole pattern role =>
    s!"Unknown role {Text.quoted role} in pattern {Text.quoted pattern}"
  | .roleNotInFormat role format => s!"Role {role.name} has no field in the {format.name} format"

namespace Shape

def placeholder : Text := "iname".toList

def readRole (format : Format) (pattern word : Text) : Except ShapeError Role :=
  match Role.ofName? word with
  | none => .error (.unknownRole pattern word)
  | some role =>
    if role.fields.all format.has then .ok role else .error (.roleNotInFormat role format)

/-- The roles that a pattern such as `iname rt, address` lists. -/
def readRoles (format : Format) (pattern : Text) : Except ShapeError (List Role) :=
  match Mnemonic.tokens pattern with
  | [] => .error (.missingName pattern)
  | first :: rest =>
    if first = placeholder then rest.mapM (readRole format pattern)
    else .error (.missingName pattern)

end Shape

structure Shape where
  format : Format
  pattern : Text
  roles : List Role
  roles_read : Shape.readRoles format pattern = .ok roles
deriving DecidableEq

namespace Shape

def read (format : Format) (pattern : Text) : Except ShapeError Shape :=
  match h : readRoles format pattern with
  | .ok roles => .ok ⟨format, pattern, roles, h⟩
  | .error e => .error e

def argumentCount (shape : Shape) : Nat := shape.roles.length

def commaCount (shape : Shape) : Nat := shape.roles.length - 1

def writes (shape : Shape) (field : Field) : Bool := shape.roles.any fun r ↦ field ∈ r.fields

end Shape

end Mips32
