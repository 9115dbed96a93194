/-
# Defects of YAML documents

A text that is no YAML document is refused as a whole, without saying where.  A document
that is well formed can still hold a scalar that its tag cannot read; that is reported in
the words of the conversion that failed.
-/
import ImageTrust.Number.Literal
import ImageTrust.Text.Quoted
import ImageTrust.Yaml.Moment

namespace ImageTrust

namespace Yaml

/-- Why a text is no document. -/
inductive Defect where
  | malformed
  /-- An escape numbers no code point. -/
  | noCodePoint
  /-- An escape numbers no code point, and takes more than thirty-one bits. -/
  | noCodePointWord
  | longInteger (digits : Nat)
  | notInteger (base : Nat) (text : Text)
  | notFloat (text : Text)
  /-- A number has no digits at all. -/
  | emptyNumber
  /-- A place of a number in base sixty is past all doubles. -/
  | largePlace
  | notTruth (text : Text)
  | notMoment
  /-- A mapping stands where a moment is asked for. -/
  | mappingForMoment
  | noMoment (why : Moment.Flaw)
  | tooDeep
deriving DecidableEq

/-- The wording of a defect. -/
def Defect.message : Defect → Text
  | .malformed => "<cause>"
  | .noCodePoint => "chr() arg not in range(0x110000)"
  | .noCodePointWord => "Python int too large to convert to C int"
  | .longInteger digits => Number.tooLong digits
  | .notInteger base text =>
    Text.sentence ["invalid literal for int() with base ", Text.decimal base, ": ", text.quoted]
  | .notFloat text => Text.sentence ["could not convert string to float: ", text.quoted]
  | .emptyNumber => "string index out of range"
  | .largePlace => "int too large to convert to float"
  | .notTruth text => text.quoted
  | .notMoment => "'NoneType' object has no attribute 'groupdict'"
  | .mappingForMoment => "expected string or bytes-like object, got 'list'"
  | .noMoment why => why.message
  | .tooDeep => "maximum recursion depth exceeded"

end Yaml

end ImageTrust
