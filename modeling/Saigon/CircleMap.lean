/-
The bounded keyed ring `circle_map` of `concurrent_circle_map.ixx`, one
definition for each member function.  `mData` is subscripted without a bounds
check in the source, so a subscript outside the vector is undefined behaviour
and the operation returns `none`.
-/
import Mathlib.Logic.Function.Basic

namespace Saigon

/-- The item type: its value initialisation `T{}` and its contextual
conversion to `bool`. -/
class MappedType (T : Type) where
  valueInit : T
  truthy : T → Bool

export MappedType (truthy)

/-- The constant member `EMPTY_ITEM`. -/
def emptyItem {T : Type} [MappedType T] : T := MappedType.valueInit

/-- The template argument `N`, with what the requires clause and the two
static assertions demand of it. -/
structure Capacity where
  N : UInt32
  positive : 0 < N
  ltMax : N < 4294967295
deriving DecidableEq

/-- The constant member `INVALID_INDEX`, the tombstone stored in `mKeys`. -/
def Capacity.invalidIndex (cap : Capacity) : UInt32 := cap.N + 1

/-- The members of the class, the atomics read as plain values. -/
structure CircleMap (KEY T : Type) (cap : Capacity) where
  mEmpty : Bool
  mPushIndex : UInt32
  mPopIndex : UInt32
  mData : List T
  mKeys : KEY → Option UInt32

namespace CircleMap

variable {KEY T : Type} {cap : Capacity}

/-- Default construction: `mData` starts with `N` value-initialised items. -/
def fresh [MappedType T] : CircleMap KEY T cap where
  mEmpty := true
  mPushIndex := 0
  mPopIndex := 0
  mData := List.replicate cap.N.toNat emptyItem
  mKeys := fun _ => none

/-- Copy construction takes every member of `other`. -/
def copyConstruct (other : CircleMap KEY T cap) : CircleMap KEY T cap where
  mEmpty := other.mEmpty
  mPushIndex := other.mPushIndex
  mPopIndex := other.mPopIndex
  mData := other.mData
  mKeys := other.mKeys

/-- What a move leaves in `other`: the exchanged containers `con_vec{}` and
`con_map{}` hold nothing, and the three atomics are stored back. -/
def movedFrom : CircleMap KEY T cap where
  mEmpty := true
  mPushIndex := 0
  mPopIndex := 0
  mData := []
  mKeys := fun _ => none

/-- Move construction, as the pair of `*this` and `other` afterwards. -/
def moveConstruct (other : CircleMap KEY T cap) :
    CircleMap KEY T cap × CircleMap KEY T cap :=
  ({ mEmpty := other.mEmpty
     mPushIndex := other.mPushIndex
     mPopIndex := other.mPopIndex
     mData := other.mData
     mKeys := other.mKeys }, movedFrom)

/-- Move assignment between two of the objects in memory. -/
def moveAssign {Address : Type} [DecidableEq Address]
    (memory : Address → CircleMap KEY T cap) (this other : Address) :
    Address → CircleMap KEY T cap :=
  if this ≠ other then
    Function.update (Function.update memory this
      (memory other).moveConstruct.1) other (memory other).moveConstruct.2
  else memory

/-- What copy assignment makes of `*this`: a temporary copy of `other` is moved
into it. -/
def copyAssign (other : CircleMap KEY T cap) : CircleMap KEY T cap :=
  other.copyConstruct.moveConstruct.1

def empty (m : CircleMap KEY T cap) : Bool := m.mEmpty

/-- `updateEmpty`, whose exchange loop ends with `val` stored. -/
def updateEmpty (m : CircleMap KEY T cap) (val : Bool) :
    CircleMap KEY T cap :=
  { m with mEmpty := val }

/-- The expression `mData[pos]` read as a value. -/
def item? (m : CircleMap KEY T cap) (pos : UInt32) : Option T :=
  m.mData[pos.toNat]?

/-- An assignment through the reference `mData[pos]`. -/
def assign (m : CircleMap KEY T cap) (pos : UInt32) (value : T) :
    Option (CircleMap KEY T cap) :=
  if pos.toNat < m.mData.length then
    some { m with mData := m.mData.set pos.toNat value }
  else none

def findInternal (m : CircleMap KEY T cap) (key : KEY) : UInt32 :=
  if m.empty then cap.invalidIndex
  else
    match m.mKeys key with
    | none => cap.invalidIndex
    | some index =>
        if index = cap.invalidIndex then cap.invalidIndex else index

/-- `next_push_index`: the counter is reduced when read, not when stored. -/
def nextPushIndex (m : CircleMap KEY T cap) :
    UInt32 × CircleMap KEY T cap :=
  (m.mPushIndex % cap.N, { m with mPushIndex := m.mPushIndex + 1 })

def getPopIndex (m : CircleMap KEY T cap) : UInt32 := m.mPopIndex % cap.N

def find [MappedType T] (m : CircleMap KEY T cap) (key : KEY) : Option T :=
  let pos := m.findInternal key
  if cap.invalidIndex ≠ pos then m.item? pos else some emptyItem

/-- The reference `operator[]` returns names a slot of `mData`; forming it
outside the vector is undefined. -/
def slotReference (m : CircleMap KEY T cap) (pos : UInt32) :
    Option (UInt32 × CircleMap KEY T cap) :=
  if pos.toNat < m.mData.length then some (pos, m) else none

/-- `operator[]`: the emptiness flag is cleared before the lookup, and a key
that is not found is mapped to the next slot of the ring. -/
def subscript [DecidableEq KEY] (m : CircleMap KEY T cap) (key : KEY) :
    Option (UInt32 × CircleMap KEY T cap) :=
  let m := m.updateEmpty false
  let pos := m.findInternal key
  if cap.invalidIndex ≠ pos then m.slotReference pos
  else
    let (curIndex, m) := m.nextPushIndex
    let m := { m with mKeys := Function.update m.mKeys key (some curIndex) }
    m.slotReference curIndex

/-- The statement `m[key] = value`. -/
def put [DecidableEq KEY] (m : CircleMap KEY T cap) (key : KEY) (value : T) :
    Option (CircleMap KEY T cap) := do
  let (slot, m) ← m.subscript key
  m.assign slot value

def erase [DecidableEq KEY] [MappedType T] (m : CircleMap KEY T cap)
    (key : KEY) : Option (CircleMap KEY T cap) :=
  match m.mKeys key with
  | none => some m
  | some index =>
      if index = cap.invalidIndex then some m
      else do
        let m ← m.assign index emptyItem
        some { m with
          mKeys := Function.update m.mKeys key (some cap.invalidIndex) }

def front (m : CircleMap KEY T cap) : Option T := m.item? m.getPopIndex

/-- The circular search of `next_available_item`, with the rounds left. -/
def scanNext [MappedType T] (m : CircleMap KEY T cap) :
    Nat → UInt32 → Option UInt32
  | 0, next => some next
  | rounds + 1, next => do
      let next := (next + 1) % cap.N
      let item ← m.item? next
      if truthy item then some next else scanNext m rounds next

/-- `next_available_item`, whose exchange loop ends with `next` stored. -/
def nextAvailableItem [MappedType T] (m : CircleMap KEY T cap) :
    Option (UInt32 × CircleMap KEY T cap) :=
  if m.empty then some (m.mPopIndex, m)
  else do
    let old := m.mPopIndex
    let next ← m.scanNext cap.N.toNat old
    if next = old then
      -- nothing but the item already processed: mark the map empty, step past
      let next := (old + 1) % cap.N
      some (next, { m.updateEmpty true with mPopIndex := next })
    else some (next, { m with mPopIndex := next })

/-- The loop of `find_if`: the index it breaks at, if it does. -/
def findIfLoop [MappedType T] (m : CircleMap KEY T cap) (pre : T → Bool)
    (pos : UInt32) : Nat → UInt32 → Option (Option UInt32)
  | 0, _ => some none
  | rounds + 1, i => do
      let idx := (pos + i) % cap.N
      let item ← m.item? idx
      if truthy item && pre item then some (some idx)
      else findIfLoop m pre pos rounds (i + 1)

def findIf [MappedType T] (m : CircleMap KEY T cap) (pre : T → Bool) :
    Option T :=
  if m.empty then some emptyItem
  else do
    match ← m.findIfLoop pre m.mPopIndex cap.N.toNat 0 with
    | some pos => m.item? pos
    | none => some emptyItem

/-- The loop of `rfind_if`: the cursor is decremented before the read and set
back to `N` after a miss at slot zero. -/
def rfindIfLoop [MappedType T] (m : CircleMap KEY T cap) (pre : T → Bool) :
    Nat → UInt32 → Option (Option UInt32)
  | 0, _ => some none
  | rounds + 1, pos => do
      let pos := pos - 1
      let item ← m.item? pos
      if truthy item && pre item then some (some pos)
      else rfindIfLoop m pre rounds (if pos = 0 then cap.N else pos)

def rfindIf [MappedType T] (m : CircleMap KEY T cap) (pre : T → Bool) :
    Option T :=
  if m.empty then some emptyItem
  else do
    match ← m.rfindIfLoop pre cap.N.toNat (m.mPopIndex + 1) with
    | some pos => m.item? pos
    | none => some emptyItem

/-- The loop of `loop_all`, threading what the callback accumulates. -/
def loopAllLoop {R : Type} [MappedType T] (m : CircleMap KEY T cap)
    (invoke : R → T → R) (pos : UInt32) : Nat → UInt32 → R → Option R
  | 0, _, acc => some acc
  | rounds + 1, i, acc => do
      let idx := (pos + i) % cap.N
      let item ← m.item? idx
      loopAllLoop m invoke pos rounds (i + 1)
        (if truthy item then invoke acc item else acc)

def loopAll {R : Type} [MappedType T] (m : CircleMap KEY T cap)
    (invoke : R → T → R) (acc : R) : Option R :=
  if m.empty then some acc
  else m.loopAllLoop invoke m.mPopIndex cap.N.toNat 0 acc

/-- The loop of `rloop_all`. -/
def rloopAllLoop {R : Type} [MappedType T] (m : CircleMap KEY T cap)
    (invoke : R → T → R) : Nat → UInt32 → R → Option R
  | 0, _, acc => some acc
  | rounds + 1, pos, acc => do
      let pos := pos - 1
      let item ← m.item? pos
      rloopAllLoop m invoke rounds (if pos = 0 then cap.N else pos)
        (if truthy item then invoke acc item else acc)

def rloopAll {R : Type} [MappedType T] (m : CircleMap KEY T cap)
    (invoke : R → T → R) (acc : R) : Option R :=
  if m.empty then some acc
  else m.rloopAllLoop invoke cap.N.toNat (m.mPopIndex + 1) acc

/-- The items `rloop_all` hands to its callback, in call order. -/
def rloopItems [MappedType T] (m : CircleMap KEY T cap) : Option (List T) :=
  m.rloopAll (fun seen item => seen ++ [item]) []

/-- The items `loop_all` hands to its callback, in call order. -/
def loopItems [MappedType T] (m : CircleMap KEY T cap) : Option (List T) :=
  m.loopAll (fun seen item => seen ++ [item]) []

end CircleMap

/-- The item type of the unit tests, `true` unless its value is zero. -/
structure DataType where
  mValue : Int
deriving DecidableEq

instance : MappedType DataType where
  valueInit := ⟨0⟩
  truthy item := item.mValue ≠ 0

/-- The two smallest admitted capacities. -/
def oneSlot : Capacity := ⟨1, by decide, by decide⟩

def twoSlots : Capacity := ⟨2, by decide, by decide⟩

end Saigon
