import MappingSweep.Json.Text
import MappingSweep.Number.Decimal

/-!
# Summaries

Which trials of a sweep finished and which failed, by name, and the document that says so.
-/

namespace MappingSweep

structure Summary where
  finished : List String := []
  failed : List String := []
deriving DecidableEq, Repr

namespace Summary

def namesText : List String → String
  | [] => "[]"
  | names => "[\n" ++ ",\n".intercalate (names.map fun n => "    " ++ Json.quoted n) ++ "\n  ]"

def document (s : Summary) (elapsed : Float) : String :=
  "\x7b\n  \"ok_list\": " ++ namesText s.finished ++
    ",\n  \"err_list\": " ++ namesText s.failed ++
    ",\n  \"elapsed_secs\": " ++ (Number.Binary64.ofFloat elapsed).toDocumentText ++ "\n\x7d"

end Summary
end MappingSweep
