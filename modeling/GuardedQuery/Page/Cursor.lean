import GuardedQuery.Base64
import GuardedQuery.Json.Decode
import GuardedQuery.Json.Writer
import GuardedQuery.Order

/-!
# Page cursors

A cursor marks the place after a row: it holds the row's value for every sort key, and travels as the
base64 form of a small JSON document.

## Main definitions

* `Cursor`, `Cursor.ofRecord`: the cursor after a row.
* `Cursor.encode`, `Cursor.decode`: the text of a cursor.
* `Cursor.decodeFor`: decoding that insists on a value for every key.
-/

namespace GuardedQuery

/-- The place after a row. -/
structure Cursor where
  /-- The row's values by sort key. -/
  values : Record
  /-- A time stamp that clients may add. -/
  timestamp : Option Instant := none
deriving DecidableEq

/-- Why a cursor text is refused. -/
inductive CursorError where
  /-- It is not base64. -/
  | base64
  /-- Its bytes are not UTF-8. -/
  | utf8
  /-- Its text is not a cursor document. -/
  | json
  /-- It has no value for a sort key. -/
  | missingKey (field : String)
deriving DecidableEq, Repr

namespace CursorError

/-- The code of an error. -/
def code : CursorError → String
  | base64 => "AERO_CURSOR_BASE64"
  | utf8 => "AERO_CURSOR_UTF8"
  | json => "AERO_CURSOR_JSON"
  | missingKey _ => "AERO_CURSOR_MISSING_KEY"

/-- The message of an error. -/
def message : CursorError → String
  | base64 => "cursor is not valid base64"
  | utf8 => "cursor is not valid UTF-8"
  | json => "cursor payload is malformed"
  | missingKey field => s!"cursor is missing key '{field}'"

end CursorError

namespace Cursor

/-- The cursor after a row. -/
def ofRecord (keys : List SortKey) (record : Record) : Cursor where
  values := Dict.ofList (keys.map fun k => (k.field, Record.value record k.field))

/-- The text of a cursor's document; the values come first. -/
def documentText (c : Cursor) : String :=
  Value.textInOrder
    [("values", .object c.values), ("timestamp", .ofOption (c.timestamp.map fun i => .string i.toText))]

/-- The text of a cursor. -/
def encode (c : Cursor) : String := Base64.encodeText c.documentText

/-- Reads a time stamp. -/
def timestampDecoder : Decoder Instant
  | .string s =>
    match Instant.parseLoose? s with
    | some i => .ok i
    | none => .error .malformed
  | _ => .error .malformed

/-- Reads the document of a cursor. -/
def decoder : Decoder Cursor :=
  Decoder.ofFields
    [.mandatory "values" Decoder.record fun v c => { c with values := v },
     .optional "timestamp" (Decoder.option timestampDecoder) fun v c => { c with timestamp := v }]
    { values := [] }

/-- Reads a cursor. White space around it does not count. -/
def decode (text : String) : Except CursorError Cursor :=
  match Base64.decode? (Text.trimChars text.toList) with
  | none => .error .base64
  | some bytes =>
    match String.fromUTF8? { data := { toList := bytes } } with
    | none => .error .utf8
    | some document =>
      match Decoder.run decoder document with
      | .ok c => .ok c
      | .error _ => .error .json

/-- Reads a cursor that must have a value for every key. -/
def decodeFor (keys : List SortKey) (text : String) : Except CursorError Cursor := do
  let c ← decode text
  match keys.find? fun k => !Dict.contains c.values k.field with
  | some k => throw (.missingKey k.field)
  | none => return c

/-- The value for a sort key. -/
def value? (c : Cursor) (field : String) : Option Value := Dict.get? c.values field

end Cursor

end GuardedQuery
