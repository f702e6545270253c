import CostTape.Script.Value

/-! Storage: where arrays keep their items.  An array that grows takes the free
places of its store, also if another array has taken them before. -/

namespace CostTape.Script

/-- Stores in the order in which they were made. -/
abbrev Storage := Array (Array Value)

namespace Storage

def empty : Storage :=
  #[]

def store (storage : Storage) (place : ArrayPlace) : Array Value :=
  storage.getD place.store #[]

def read (storage : Storage) (place : ArrayPlace) : List Value :=
  ((storage.store place).extract place.offset (place.offset + place.length)).toList

def capacity (storage : Storage) (place : ArrayPlace) : Nat :=
  (storage.store place).size - place.offset

def add (storage : Storage) (items : List Value) (capacity : Nat)
    (kind : Option ValueKind) : Value × Storage :=
  let free := Array.replicate (capacity - items.length) Value.nil
  (.array ⟨storage.size, 0, items.length, kind⟩ items,
    storage.push (items.toArray ++ free))

private def sizes : List Nat :=
  [16, 32, 48, 64, 80, 96, 112, 128, 144, 160, 176, 192, 208, 224, 240, 256, 288, 320,
    352, 384, 416, 448, 480, 512, 576, 640, 704, 768, 896, 1024, 1152, 1280, 1408, 1536,
    1792, 2048, 2304, 2688, 3072, 3200, 3456, 4096, 4864, 5120, 5376, 6144, 6528, 6784,
    6912, 8192, 9472, 9728, 10240, 10880, 12288, 13568, 14336, 16384, 18432, 19072,
    20480, 21760, 24576, 27264, 28672, 32768]

/-- The number of items that a store made for some number of them holds.  Each
takes sixteen bytes; a store over 512 bytes has a header of eight, and a large
one consists of whole pages. -/
private def rounded (count : Nat) : Nat :=
  let bytes := 16 * count
  let header := if 512 < bytes then 8 else 0
  if bytes ≤ 32760 then
    match sizes.find? fun size => bytes + header ≤ size with
    | some size => (size - header) / 16
    | none => count
  else
    (bytes + 8191) / 8192 * 8192 / 16

private def widened (needed : Nat) : Nat → Nat → Nat
  | 0, _ => needed
  | steps + 1, capacity =>
      let wider := capacity + (capacity + 768) / 4
      if needed ≤ wider then wider else widened needed steps wider

/-- The capacity of a store that takes the place of one that is too small. -/
def grown (capacity needed : Nat) : Nat :=
  rounded
    (if 2 * capacity < needed then needed
    else if capacity < 256 then 2 * capacity
    else widened needed needed capacity)

private def write (store : Array Value) : Nat → List Value → Array Value
  | _, [] => store
  | index, item :: items => write (store.setIfInBounds index item) (index + 1) items

/-- Puts items after those of an array: in its store if that has room, otherwise
in a new one. -/
def append (storage : Storage) (place : ArrayPlace) (items : List Value) :
    ArrayPlace × Storage :=
  let length := place.length + items.length
  let capacity := storage.capacity place
  if length ≤ capacity then
    ({ place with length },
      storage.modify place.store fun store =>
        write store (place.offset + place.length) items)
  else
    let all := storage.read place ++ items
    let free := Array.replicate (grown capacity length - length) Value.nil
    ({ place with store := storage.size, offset := 0, length },
      storage.push (all.toArray ++ free))

def deepest : Nat :=
  10000

private def settleTo (storage : Storage) : Nat → Value → Value
  | depth + 1, .array place _ =>
      .array place ((storage.read place).map (settleTo storage depth))
  | depth + 1, .list head tail =>
      .list (settleTo storage depth head) (tail.map (settleTo storage depth))
  | _, value => value

def settle (storage : Storage) (value : Value) : Value :=
  settleTo storage deepest value

@[simp] theorem settle_literal (storage : Storage) (value : Literal) :
    storage.settle (.literal value) = .literal value := by
  unfold settle
  cases deepest <;> rfl

@[simp] theorem settle_handle (storage : Storage) (scalar : Handle) :
    storage.settle (.handle scalar) = .handle scalar := by
  unfold settle
  cases deepest <;> rfl

@[simp] theorem settle_dual (storage : Storage) (number : Dual) :
    storage.settle (.dual number) = .dual number := by
  unfold settle
  cases deepest <;> rfl

end Storage

end CostTape.Script
