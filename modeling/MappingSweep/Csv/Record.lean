/-!
# Comma-separated records

The written form of a record: fields between commas, a line feed at the end.  A field that holds a
comma, a quote or a line ending is put between quotes, with its own quotes doubled.  A record whose
only field is empty is written as a pair of quotes, since an empty line is no record.
-/

namespace MappingSweep
namespace Csv

def needsQuotes (field : List Char) : Bool :=
  field.any fun c => c == ',' || c == '"' || c == '\r' || c == '\n'

def doubleQuotes : List Char → List Char
  | [] => []
  | c :: rest => if c = '"' then '"' :: '"' :: doubleQuotes rest else c :: doubleQuotes rest

def encodeField (field : List Char) : List Char :=
  if needsQuotes field then '"' :: (doubleQuotes field ++ ['"']) else field

def encodeFields : List (List Char) → List Char
  | [] => []
  | [field] => encodeField field
  | field :: rest => encodeField field ++ ',' :: encodeFields rest

def encodeChars (record : List (List Char)) : List Char :=
  match encodeFields record with
  | [] => ['"', '"', '\n']
  | cs => cs ++ ['\n']

def encode (record : List String) : String :=
  String.ofList (encodeChars (record.map String.toList))

def encodeAll (records : List (List String)) : String :=
  String.join (records.map encode)

end Csv
end MappingSweep
