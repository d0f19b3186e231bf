import ArchDiagram.Decimal.Loose
import ArchDiagram.Text.CodePoints

/-!
What can be wrong with a YAML document. Nearly everything makes it malformed; the other faults lie
in numbers and characters that are spelled in the right form and do not exist.
-/

namespace ArchDiagram.Yaml

/-- Why a text is no YAML document, or has no value. What is malformed can be explained. -/
inductive Fault
  | malformed (explanation? : Option String := none)
  | endless
  | characterCode (code : Nat)
  | year
  | month
  | day
  | hour
  | minute
  | second
  | zone (seconds : Int)
  | notTimestamp
  | collectionAsTimestamp
  | notInteger (base : Nat) (text : Text.CodePoints)
  | integerTooLong (digits : Nat)
  | notFloat (text : Text.CodePoints)
  | floatTooLarge
  | notBoolean (text : Text.CodePoints)
  | emptyNumber
deriving DecidableEq, Repr

namespace Fault

def duration (seconds : Int) : String :=
  let days := Int.fdiv seconds 86400
  let rest := Int.fmod seconds 86400
  let shown := (if days = 0 then [] else ["days=" ++ toString days])
    ++ (if rest = 0 then [] else ["seconds=" ++ toString rest])
  "datetime.timedelta(" ++ (if shown.isEmpty then "0" else ", ".intercalate shown) ++ ")"

def message : Fault → String
  | malformed explanation? => explanation?.getD "malformed document"
  | endless => "maximum recursion depth exceeded"
  | characterCode code =>
    if code < 0x80000000 then "chr() arg not in range(0x110000)"
    else "Python int too large to convert to C int"
  | year => "year 0 is out of range"
  | month => "month must be in 1..12"
  | day => "day is out of range for month"
  | hour => "hour must be in 0..23"
  | minute => "minute must be in 0..59"
  | second => "second must be in 0..59"
  | zone seconds =>
    "offset must be a timedelta strictly between -timedelta(hours=24) and timedelta(hours=24), not "
      ++ duration seconds ++ "."
  | notTimestamp => "'NoneType' object has no attribute 'groupdict'"
  | collectionAsTimestamp => "expected string or bytes-like object, got 'list'"
  | notInteger base text => Decimal.malformedIntegerMessage base (Text.quotedCodes text)
  | integerTooLong digits => Decimal.tooLongMessage (some digits)
  | notFloat text => Decimal.malformedNumberMessage (Text.quotedCodes text)
  | floatTooLarge => "int too large to convert to float"
  | notBoolean text => Text.quotedCodes text
  | emptyNumber => "string index out of range"

end Fault

end ArchDiagram.Yaml
