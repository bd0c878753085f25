import ChainTable.Key
import ChainTable.Table.Basic
import ChainTable.Value

/-! # Tables as text

The slot-by-slot listing of a table (`dump`), its entries as a map, and the text of
a cursor.  The listing shows vacant slots and stored hashes; the map shows keys and
values only.
-/

namespace ChainTable

namespace Table

def slotText (hidden : Char → Bool) : Slot Key Value → List Char
  | some e =>
    "  key=".toList ++ e.key.print hidden ++ " value=".toList ++ e.value.print hidden ++
      " hash=".toList ++ Decimal.ofNat e.hash.toNat
  | none => []

def slotLine (hidden : Char → Bool) (i : Nat) (slot : Slot Key Value) : List Char :=
  "  entry ".toList ++ Decimal.padded 2 i ++ slotText hidden slot ++ ['\n']

def bucketLines (hidden : Char → Bool) (i : Nat) (bucket : Bucket Key Value) : List Char :=
  "bucket ".toList ++ Decimal.padded 4 i ++ ['\n'] ++
    bucket.zipIdx.flatMap fun (slot, j) => slotLine hidden j slot

/-- The listing of a table: both counts, then every bucket with every slot.  Texts are
quoted, with the `hidden` characters as escapes. -/
def dump (t : Table Key Value) (hidden : Char → Bool := Quoted.isControl) : List Char :=
  "entries: ".toList ++ Decimal.ofNat t.size ++ ['\n'] ++
    "buckets: ".toList ++ Decimal.ofNat t.capacity ++ ['\n'] ++
    t.directory.toList.zipIdx.flatMap fun (bucket, i) => bucketLines hidden i bucket

/-- What becomes of a listing written where there is room for some bytes only. -/
inductive Written where
  | whole (text : List Char)
  | cut (kept : List Char)

def Written.shortfall : String := "failed to write whole buffer"

def dumpWithin (limit : Nat) (t : Table Key Value) : Written :=
  let text := t.dump
  if Utf8.size text ≤ limit then .whole text else .cut (Utf8.clip limit text)

def mapItem (e : Entry Key Value) : List Char := e.key.print ++ ": ".toList ++ e.value.print

def mapText (t : Table Key Value) : List Char :=
  ['\x7b'] ++ ((t.directory.entries.map mapItem).intersperse ", ".toList).flatten ++ ['\x7d']

def mapLines (t : Table Key Value) : List Char :=
  match t.directory.entries with
  | [] => ['\x7b', '\x7d']
  | entries =>
    ['\x7b', '\n'] ++ entries.flatMap (fun e => "    ".toList ++ mapItem e ++ ",\n".toList) ++
      ['\x7d']

end Table

namespace Cursor

def placeText (c : Cursor) : List Char :=
  Decimal.ofNat c.place ++ ['v'] ++ Decimal.ofNat c.generation

def text (c : Cursor) : List Char :=
  "Cursor \x7b owner: ".toList ++ Decimal.ofNat c.owner ++ ", key: CursorKey(".toList ++
    c.placeText ++ ") \x7d".toList

def lines (c : Cursor) : List Char :=
  "Cursor \x7b\n    owner: ".toList ++ Decimal.ofNat c.owner ++
    ",\n    key: CursorKey(\n        ".toList ++ c.placeText ++ ",\n    ),\n\x7d".toList

end Cursor

end ChainTable
