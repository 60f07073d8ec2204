import ClassFormat.Archive.Directory
import ClassFormat.Checksum
import ClassFormat.Text.Utf8
import Std.Data.HashMap

/-!
# Members of archives

The files of a jar archive whose members are stored without compression. A record of the
directory holds the name of a member, its length and its offset; fields after the name may
give them again where the record is too narrow for them.

* `Archive.members?`: the names and the bytes of the members, in the order of the directory.

Bytes that look like an end record may occur in a comment, so the last end record whose
directory can be read is taken.
-/

namespace ClassFormat

namespace Archive

/-- A record of the directory. -/
structure Entry where
  name : String
  /-- The name as it is stored. -/
  nameBytes : Bytes
  comment : String
  /-- The number of bytes of the contents as they are stored. -/
  length : Nat
  /-- The number of bytes of the contents. -/
  fullLength : Nat
  /-- The stated offset of the record before the contents. -/
  offset : Nat

/-- The characters of the bytes from 128 on where text is not marked as UTF-8. -/
def upperCharacters : Array Char :=
  ("ÇüéâäàåçêëèïîìÄÅÉæÆôöòûùÿÖÜ¢£¥₧ƒáíóúñÑªº¿⌐¬½¼¡«»░▒▓│┤╡╢╖╕╣║╗╝╜╛┐" ++
    "└┴┬├─┼╞╟╚╔╩╦╠═╬╧╨╤╥╙╘╒╓╫╪┘┌█▄▌▐▀" ++
    "αßΓπΣσµτΦΘΩδ∞φε∩≡±≥≤⌠⌡÷≈°∙·√ⁿ²■\u00A0").toList.toArray

/-- The text of a record. -/
def text (utf8 : Bool) (bytes : Bytes) : String :=
  if utf8 then (Utf8.decodeLossy bytes).lossy
  else String.ofList (bytes.map fun b =>
    if b < 128 then Char.ofNat b.toNat else upperCharacters.getD (b.toNat - 128) '?')

/-- The bytes of a field that gives a text again in UTF-8, if it tells the checksum of the
    text that it stands for. -/
def replacement? (replaced field : Bytes) : Option Bytes := do
  guard (5 ≤ field.length && value ((field.drop 1).take 4) = (Checksum.ofBytes replaced).toNat)
  return field.drop 5

/-- The next wide number of a field, if the narrow one stands for it, and the rest of the
    field. -/
def wideOr? (always : Bool) (narrow : Nat) (field : Bytes) : Option (Nat × Bytes) :=
  if always || narrow = 0xFFFFFFFF then
    if 8 ≤ field.length then some (value (field.take 8), field.drop 8) else none
  else some (narrow, field)

/-- Takes in the lengths and the offset of a field with wide numbers. A field of three
    numbers holds all of them, a shorter one those that are too large for the record. -/
def Entry.widen? (e : Entry) (field : Bytes) : Option Entry := do
  let always := decide (24 ≤ field.length)
  let (fullLength, field) ← wideOr? always e.fullLength field
  let (length, field) ← wideOr? always e.length field
  let (offset, _) ← wideOr? always e.offset field
  return { e with fullLength, length, offset }

/-- Takes in a field of the given kind. Fields of most kinds say nothing here. -/
def Entry.addField? (e : Entry) (kind : Nat) (field : Bytes) : Option Entry := do
  match kind with
  | 0x0001 => e.widen? field
  | 0x7075 =>
    let nameBytes ← replacement? e.nameBytes field
    return { e with nameBytes, name := ← (← Utf8.decode? false nameBytes).toString? }
  | 0x6375 =>
    let comment ← replacement? (Utf8.encode (Text.ofString e.comment)) field
    return { e with comment := ← (← Utf8.decode? false comment).toString? }
  | _ => return e

/-- Takes in all fields. One that is cut off ends them. -/
def Entry.addFields? (e : Entry) (fields : Bytes) : Option Entry :=
  if 4 ≤ fields.length then
    let length := value ((fields.drop 2).take 2)
    let rest := fields.drop 4
    if length ≤ rest.length then
      match e.addField? (value (fields.take 2)) (rest.take length) with
      | some e => e.addFields? (rest.drop length)
      | none => none
    else some e
  else some e
  termination_by fields.length
  decreasing_by rw [List.length_drop, List.length_drop]; omega

/-- The record at an offset, and the offset of the next one. -/
def entry? (a : Archive) (offset : Nat) : Option (Entry × Nat) := do
  guard (a.holds directoryMark offset)
  -- One of the flags marks the texts as UTF-8.
  let utf8 := (← a.number? (offset + 8) 2).testBit 11
  let nameLength ← a.number? (offset + 28) 2
  let fieldsLength ← a.number? (offset + 30) 2
  let commentLength ← a.number? (offset + 32) 2
  let nameBytes ← a.slice? (offset + 46) nameLength
  let fields ← a.slice? (offset + 46 + nameLength) fieldsLength
  let comment ← a.slice? (offset + 46 + nameLength + fieldsLength) commentLength
  let e : Entry := {
    name := text utf8 nameBytes, nameBytes
    comment := text utf8 comment
    length := ← a.number? (offset + 20) 4
    fullLength := ← a.number? (offset + 24) 4
    offset := ← a.number? (offset + 42) 4 }
  return (← e.addFields? fields, offset + 46 + nameLength + fieldsLength + commentLength)

/-- The contents of the member of a record. Members come before the directory. -/
def contents? (a : Archive) (d : Directory) (e : Entry) : Option Bytes := do
  let offset := e.offset + d.base
  guard (offset < d.start && a.holds memberMark offset)
  let nameLength ← a.number? (offset + 26) 2
  let fieldsLength ← a.number? (offset + 28) 2
  let start := offset + 30 + nameLength + fieldsLength
  guard (start ≤ d.start)
  return (a.extract start (start + e.length)).toList

/-- The `left` members whose records are at an offset; `done` are the members so far, the
    last one first. -/
def readMembers (a : Archive) (d : Directory) (done : List (String × Bytes)) :
    (left offset : Nat) → Option (List (String × Bytes))
  | 0, _ => some done.reverse
  | left + 1, offset => do
    let (e, next) ← a.entry? offset
    let contents ← a.contents? d e
    readMembers a d ((e.name, contents) :: done) left next

/-- Each name of a list once; `latest` tells which names are still to come, and the contents
    of each. -/
def distinct (latest : Std.HashMap String Bytes) :
    List (String × Bytes) → List (String × Bytes)
  | [] => []
  | (name, _) :: rest =>
    match latest[name]? with
    | some contents => (name, contents) :: distinct (latest.erase name) rest
    | none => distinct latest rest

/-- The members in the directory of the end record at the offset `finish`. -/
def membersAt? (a : Archive) (finish : Nat) : Option (List (String × Bytes)) := do
  let d ← a.directory? finish
  a.readMembers d [] d.count d.start

/-- The names and the bytes of the members, in the order of the directory. A name that
    occurs again replaces the contents of the member that has it. -/
def members? (bytes : Bytes) : Option (List (String × Bytes)) := do
  let a : Archive := bytes.toArray
  let members ← lastSome a.membersAt? a.size
  return distinct (Std.HashMap.ofList members) members

end Archive

end ClassFormat
