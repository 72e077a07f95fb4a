import Highlight.PropertyList.Event
import Highlight.Text.Timestamp
import Highlight.Text.Utf16

/-! Binary property lists: objects that refer to each other by number, a table of their places, and a
trailer that describes the table. -/

namespace Highlight.PropertyList.Binary

def magic : Bytes := Bytes.ofString "bplist00"

def trailerSize : Nat := 32

def number (bytes : Array UInt8) (start count : Nat) : Nat :=
  (bytes.extract start (start + count)).foldl (fun n b => n * 256 + b.toNat) 0

def numbers (bytes : Array UInt8) (start size count : Nat) : List Nat :=
  (List.range count).map fun i => number bytes (start + i * size) size

structure Objects where
  bytes : Array UInt8
  stop : Nat
  referenceSize : Nat
  offsets : Array Nat
  root : Nat
  table : Nat

def isWordSize (n : Nat) : Bool := n == 1 || n == 2 || n == 4 || n == 8

def fault (cause : Cause) (place : Nat) : Fault := ⟨cause, some place⟩

def fits (stop place count size : Nat) : Bool := place + count * size ≤ stop

def Objects.ofBytes (document : Bytes) : Except Fault Objects :=
  let bytes := document.toArray
  if bytes.size < trailerSize then .error (fault .seekBeforeStart 0)
  else
    let stop := bytes.size - trailerSize
    let offsetSize := number bytes (stop + 6) 1
    let referenceSize := number bytes (stop + 7) 1
    let count := number bytes (stop + 8) 8
    let table := number bytes (stop + 24) 8
    if !isWordSize offsetSize then .error (fault .invalidTrailerOffsetSize stop)
    else if !isWordSize referenceSize then .error (fault .invalidTrailerReferenceSize stop)
    else if !fits stop table count offsetSize then .error (fault .objectOffsetTooLarge table)
    else
      .ok ⟨bytes, stop, referenceSize, (numbers bytes table offsetSize count).toArray,
        number bytes (stop + 16) 8, table⟩

inductive Object
  | leaf (e : Event)
  | array (items : List Nat)
  | dictionary (keysAndValues : List Nat)

namespace Objects

variable (o : Objects)

def length (low place : Nat) : Nat × Nat :=
  if low = 15 then
    let size := Nat.pow 2 (number o.bytes place 1 % 4)
    (number o.bytes (place + 1) size, place + 1 + size)
  else (low, place)

def sized (place start count size : Nat) : Except Fault (List Nat) :=
  if fits o.stop place count size then .ok (numbers o.bytes start size count)
  else .error (fault .objectOffsetTooLarge place)

def integer (place power : Nat) : Except Cause Int :=
  let n := number o.bytes (place + 1) (Nat.pow 2 power)
  match power with
  | 3 => .ok (if n < Digits.signedEnd then n else (n : Int) - Digits.wordEnd)
  | 4 => if n < Digits.wordEnd then .ok n else .error .integerOutOfRange
  | _ => .ok n

def real (place power : Nat) : Float :=
  let n := number o.bytes (place + 1) (Nat.pow 2 power)
  if power = 2 then (Float32.ofBits (UInt32.ofNat n)).toFloat else Float.ofBits (UInt64.ofNat n)

def object (place : Nat) : Except Fault Object := do
  let marker := number o.bytes place 1
  let low := marker % 16
  let refuse {α : Type} (c : Cause) : Except Fault α := .error (fault c place)
  let unknown {α : Type} : Except Fault α := refuse (.unknownObjectType marker)
  let (count, start) := o.length low (place + 1)
  match marker / 16 with
  | 0 =>
    if low = 0 then refuse .nullObject
    else if low = 8 then .ok (.leaf (.boolean false))
    else if low = 9 then .ok (.leaf (.boolean true))
    else if low = 15 then refuse .fillObject
    else unknown
  | 1 =>
    if low ≤ 4 then
      match o.integer place low with
      | .ok n => .ok (.leaf (.integer n))
      | .error c => refuse c
    else unknown
  | 2 => if low = 2 ∨ low = 3 then .ok (.leaf (.real (o.real place low))) else unknown
  | 3 =>
    if low = 3 then
      match Timestamp.ofFloat? (o.real place 3) with
      | some t => .ok (.leaf (.date t.text))
      | none => refuse .overflowOrNanDate
    else unknown
  | 4 =>
    let ns ← o.sized place start count 1
    .ok (.leaf (.data (ns.map UInt8.ofNat)))
  | 5 =>
    let ns ← o.sized place start count 1
    match Bytes.text? (ns.map UInt8.ofNat) with
    | some s => .ok (.leaf (.text s))
    | none => refuse .invalidUtf8String
  | 6 =>
    let ns ← o.sized place start count 2
    match Utf16.decode? ns with
    | some cs => .ok (.leaf (.text (String.ofList cs)))
    | none => refuse .invalidUtf16String
  | 8 => if low < 8 then .ok (.leaf (.uid (number o.bytes (place + 1) (low + 1)))) else unknown
  | 10 =>
    let refs ← o.sized place start count o.referenceSize
    .ok (.array refs)
  | 13 =>
    let keys ← o.sized place start count o.referenceSize
    let values ← o.sized place (start + count * o.referenceSize) count o.referenceSize
    if fits o.stop place (2 * count) o.referenceSize then
      .ok (.dictionary ((keys.zip values).flatMap fun kv => [kv.1, kv.2]))
    else refuse .objectOffsetTooLarge
  | _ => unknown

abbrev Reading := Trace × Nat

def sequence (read : Nat → Nat → Reading) : List Nat → Nat → Reading
  | [], place => (.complete, place)
  | r :: refs, place =>
    let (t, place) := read r place
    match t.fault with
    | some _ => (t, place)
    | none =>
      let (u, place) := sequence read refs place
      (⟨t.events ++ u.events, u.fault⟩, place)

def enclose (start : Event) (r : Reading) : Reading :=
  let (t, place) := r
  (⟨start :: (if t.fault.isNone then t.events ++ [.endCollection] else t.events), t.fault⟩, place)

def events (opened : List Nat) : (depth : Nat) → (ref place : Nat) → Reading
  | 0, _, place => (.fail (fault .recursiveObject place), place)
  | depth + 1, ref, place =>
    match o.offsets[ref]? with
    | none => (.fail (fault .objectReferenceTooLarge place), place)
    | some offset =>
      if o.stop ≤ offset then (.fail (fault .objectOffsetTooLarge place), place)
      else
        let nested (start : Event) (refs : List Nat) : Reading :=
          if opened.contains ref then (.fail (fault .recursiveObject offset), offset)
          else enclose start (sequence (events (ref :: opened) depth) refs offset)
        match o.object offset with
        | .error f => (.fail f, offset)
        | .ok (.leaf e) => (⟨[e], none⟩, offset)
        | .ok (.array refs) => nested .startArray refs
        | .ok (.dictionary refs) => nested .startDictionary refs

end Objects

def read (document : Bytes) : Trace :=
  match Objects.ofBytes document with
  | .error f => .fail f
  -- No object may be inside itself, so objects nest no deeper than there are objects.
  | .ok o => (o.events [] (o.offsets.size + 1) o.root o.table).1

end Highlight.PropertyList.Binary
