import FleetLedger.Error
import FleetLedger.Json.Decoding
import FleetLedger.Json.Printer

/-!
# Stored values

What is kept in a document store is an object, and what is read from one has to have the form of the
value that was kept there.  Either failure names the culprit: the value that is no object, or the
place whose document cannot be decoded.
-/

namespace FleetLedger

/-- The document of a value that is an object. -/
def Document.ofJson : Json → Outcome Document
  | .object fields => .ok fields
  | other => .error (.internal ("Expected a JSON object, got " ++ other.text))

/-- Decodes the document kept at `key`. -/
def Document.decode {α : Type} (decoder : Decoding.Decoder α) (key : String) (d : Document) :
    Outcome α :=
  (decoder.run d).mapError fun fault => .corrupt key fault.message

end FleetLedger
