/-
The `circle_map` that several threads use at once.  A thread takes one access
to a shared member at a time, in the order of the source, and the threads take
turns in any order.  A call is undefined, and its thread stuck, where it
subscripts `mData` outside the vector.
-/
import Saigon.Session
import Saigon.Support.Threads

namespace Saigon

/-- What a thread may call.  An assignment through the reference that
`operator[]` returns is part of the call, and so is the reading of an item that
is returned by reference. -/
inductive MapCall (KEY T : Type) where
  | put (key : KEY) (value : T)
  | find (key : KEY)
  | erase (key : KEY)
  | front
  | nextAvailableItem
  | findIf (pre : T → Bool)
  | rfindIf (pre : T → Bool)
  | loopAll
  | rloopAll
  | empty

/-- What `updateEmpty` does next. -/
inductive UpdatePoint where
  | load
  | exchange (old : Bool)
deriving DecidableEq

/-- What `find_internal` does next: the two tests of its condition read the
iterator and the index it points to. -/
inductive FindInternalPoint where
  | empty
  | find
  | test
  | read
deriving DecidableEq

/-- What `operator[]` and the assignment through its result do next. -/
inductive PutPoint where
  | updateEmpty (point : UpdatePoint)
  | findInternal (point : FindInternalPoint)
  | pushIndex
  | insert (curIndex : UInt32)
  | store (curIndex : UInt32)
  | assign (slot : UInt32)
deriving DecidableEq

inductive FindPoint where
  | findInternal (point : FindInternalPoint)
  | read (slot : UInt32)
deriving DecidableEq

inductive ErasePoint where
  | find
  | test
  | subscript
  | reset (slot : UInt32)
  | invalidate
deriving DecidableEq

inductive FrontPoint where
  | load
  | read (slot : UInt32)
deriving DecidableEq

/-- What `next_available_item` does next; `scan` has some rounds left. -/
inductive NextPoint where
  | empty
  | last
  | load
  | scan (old next : UInt32) (rounds : Nat)
  | compare (old next : UInt32)
  | updateEmpty (old : UInt32) (point : UpdatePoint)
  | exchange (old next : UInt32)
deriving DecidableEq

/-- The loops over `mData`: which way they go, and what they search for, if
they do not call back for each item. -/
structure MapWalk (T : Type) where
  backward : Bool
  pre : Option (T → Bool)

/-- What a loop over `mData` does next; `item` has the items its callback was
invoked with, and some rounds left. -/
inductive WalkPoint (T : Type) where
  | empty
  | cursor
  | item (pos i : UInt32) (rounds : Nat) (visited : List T)
  | result (pos : UInt32)

/-- What a thread is doing. -/
inductive Activity (KEY T : Type) where
  | idle
  | putting (key : KEY) (value : T) (point : PutPoint)
  | finding (key : KEY) (point : FindPoint)
  | erasing (key : KEY) (point : ErasePoint)
  | fronting (point : FrontPoint)
  | advancing (point : NextPoint)
  | walking (walk : MapWalk T) (point : WalkPoint T)
  | testing
  | returning (result : Result T)

/-- A turn of a thread: it begins a call, takes a step of it, in which an
exchange may fail for no reason, or returns from it. -/
inductive MapTurn (KEY T : Type) where
  | call (call : MapCall KEY T)
  | proceed (spurious : Bool)
  | finish

variable {KEY T : Type} {cap : Capacity}

/-- The first step of a call. -/
def MapCall.begin : MapCall KEY T → Activity KEY T
  | .put key value => .putting key value (.updateEmpty .load)
  | .find key => .finding key (.findInternal .empty)
  | .erase key => .erasing key .find
  | .front => .fronting .load
  | .nextAvailableItem => .advancing .empty
  | .findIf pre => .walking ⟨false, some pre⟩ .empty
  | .rfindIf pre => .walking ⟨true, some pre⟩ .empty
  | .loopAll => .walking ⟨false, none⟩ .empty
  | .rloopAll => .walking ⟨true, none⟩ .empty
  | .empty => .testing

/-- What a loop returns that found nothing: `EMPTY_ITEM`, or what its callback
was invoked with. -/
def MapWalk.nothing [MappedType T] (walk : MapWalk T) (visited : List T) : Result T :=
  match walk.pre with
  | some _ => .item emptyItem
  | none => .visited visited

namespace CircleMap

/-- A step of `updateEmpty(val)`; without a next point it returns. -/
def updateEmptyStep (m : CircleMap KEY T cap) (val spurious : Bool) :
    UpdatePoint → CircleMap KEY T cap × Option UpdatePoint
  | .load => (m, some (.exchange m.mEmpty))
  | .exchange old =>
      if m.mEmpty = old ∧ spurious = false then (m.updateEmpty val, none)
      else (m, some (.exchange m.mEmpty))

/-- A step of `find_internal`, to its next point or its result. -/
def findInternalStep (m : CircleMap KEY T cap) (key : KEY) :
    FindInternalPoint → Option (FindInternalPoint ⊕ UInt32)
  | .empty => some (if m.empty then .inr cap.invalidIndex else .inl .find)
  | .find =>
      match m.mKeys key with
      | none => some (.inr cap.invalidIndex)
      | some _ => some (.inl .test)
  | .test => do
      let index ← m.mKeys key
      if index = cap.invalidIndex then some (.inr cap.invalidIndex)
      else some (.inl .read)
  | .read => do
      let index ← m.mKeys key
      some (.inr index)

section Keyed

variable [DecidableEq KEY]

/-- `mKeys[key]`, which inserts the index zero for a key that is absent. -/
def insertKey (m : CircleMap KEY T cap) (key : KEY) : CircleMap KEY T cap :=
  { m with
    mKeys := Function.update m.mKeys key (some ((m.mKeys key).getD 0)) }

/-- The index of a key that is present is overwritten. -/
def storeIndex (m : CircleMap KEY T cap) (key : KEY) (index : UInt32) :
    CircleMap KEY T cap :=
  { m with mKeys := Function.update m.mKeys key (some index) }

@[simp] theorem insertKey_mKeys (m : CircleMap KEY T cap) (key : KEY) :
    (m.insertKey key).mKeys =
      Function.update m.mKeys key (some ((m.mKeys key).getD 0)) := rfl

@[simp] theorem storeIndex_mKeys (m : CircleMap KEY T cap) (key : KEY)
    (index : UInt32) : (m.storeIndex key index).mKeys =
      Function.update m.mKeys key (some index) := rfl

/-- A step of `m[key] = value`. -/
def putStep (m : CircleMap KEY T cap) (key : KEY) (value : T)
    (spurious : Bool) :
    PutPoint → Option (CircleMap KEY T cap × Activity KEY T)
  | .updateEmpty point =>
      match m.updateEmptyStep false spurious point with
      | (m, some point) => some (m, .putting key value (.updateEmpty point))
      | (m, none) => some (m, .putting key value (.findInternal .empty))
  | .findInternal point => do
      match ← m.findInternalStep key point with
      | .inl point => some (m, .putting key value (.findInternal point))
      | .inr pos =>
          if cap.invalidIndex ≠ pos then
            some (m, .putting key value (.assign pos))
          else some (m, .putting key value .pushIndex)
  | .pushIndex =>
      let (curIndex, m) := m.nextPushIndex
      some (m, .putting key value (.insert curIndex))
  | .insert curIndex =>
      some (m.insertKey key, .putting key value (.store curIndex))
  | .store curIndex =>
      some (m.storeIndex key curIndex, .putting key value (.assign curIndex))
  | .assign slot => do
      let m ← m.assign slot value
      some (m, .returning .done)

variable [MappedType T]

omit [DecidableEq KEY] in
/-- A step of `find`. -/
def findStep (m : CircleMap KEY T cap) (key : KEY) :
    FindPoint → Option (CircleMap KEY T cap × Activity KEY T)
  | .findInternal point => do
      match ← m.findInternalStep key point with
      | .inl point => some (m, .finding key (.findInternal point))
      | .inr pos =>
          if cap.invalidIndex ≠ pos then some (m, .finding key (.read pos))
          else some (m, .returning (.item emptyItem))
  | .read slot => do
      let item ← m.item? slot
      some (m, .returning (.item item))

/-- A step of `erase`, which reads the index again after it has tested it. -/
def eraseStep (m : CircleMap KEY T cap) (key : KEY) :
    ErasePoint → Option (CircleMap KEY T cap × Activity KEY T)
  | .find =>
      match m.mKeys key with
      | none => some (m, .returning .done)
      | some _ => some (m, .erasing key .test)
  | .test => do
      let index ← m.mKeys key
      if index = cap.invalidIndex then some (m, .returning .done)
      else some (m, .erasing key .subscript)
  | .subscript => do
      let index ← m.mKeys key
      some (m, .erasing key (.reset index))
  | .reset slot => do
      let m ← m.assign slot emptyItem
      some (m, .erasing key .invalidate)
  | .invalidate =>
      some (m.storeIndex key cap.invalidIndex, .returning .done)

end Keyed

variable [MappedType T]

/-- A step of `front`. -/
def frontStep (m : CircleMap KEY T cap) :
    FrontPoint → Option (CircleMap KEY T cap × Activity KEY T)
  | .load => some (m, .fronting (.read m.getPopIndex))
  | .read slot => do
      let item ← m.item? slot
      some (m, .returning (.item item))

/-- A step of `next_available_item`.  When the exchange of the cursor fails,
`old` is read again and `next` is not. -/
def nextStep (m : CircleMap KEY T cap) (spurious : Bool) :
    NextPoint → Option (CircleMap KEY T cap × Activity KEY T)
  | .empty => some (m, .advancing (if m.empty then .last else .load))
  | .last => some (m, .returning (.index m.mPopIndex))
  | .load =>
      some (m, .advancing (.scan m.mPopIndex m.mPopIndex cap.N.toNat))
  | .scan old next 0 => some (m, .advancing (.compare old next))
  | .scan old next (rounds + 1) => do
      let next := (next + 1) % cap.N
      let item ← m.item? next
      if truthy item then some (m, .advancing (.compare old next))
      else some (m, .advancing (.scan old next rounds))
  | .compare old next =>
      some (m, .advancing
        (if next = old then .updateEmpty old .load else .exchange old next))
  | .updateEmpty old point =>
      match m.updateEmptyStep true spurious point with
      | (m, some point) => some (m, .advancing (.updateEmpty old point))
      | (m, none) => some (m, .advancing (.exchange old ((old + 1) % cap.N)))
  | .exchange old next =>
      if m.mPopIndex = old ∧ spurious = false then
        some ({ m with mPopIndex := next }, .returning (.index next))
      else some (m, .advancing (.exchange m.mPopIndex next))

/-- A step of `find_if`, `rfind_if`, `loop_all` or `rloop_all`.  The source
reads an element through its reference twice, to test it and to pass it on;
here the test and the predicate or callback take the one value read. -/
def walkStep (m : CircleMap KEY T cap) (walk : MapWalk T) :
    WalkPoint T → Option (CircleMap KEY T cap × Activity KEY T)
  | .empty =>
      if m.empty then some (m, .returning (walk.nothing []))
      else some (m, .walking walk .cursor)
  | .cursor =>
      let pos := if walk.backward then m.mPopIndex + 1 else m.mPopIndex
      some (m, .walking walk (.item pos 0 cap.N.toNat []))
  | .item _ _ 0 visited => some (m, .returning (walk.nothing visited))
  | .item pos i (rounds + 1) visited => do
      let idx := if walk.backward then pos - 1 else (pos + i) % cap.N
      let item ← m.item? idx
      let pos := if walk.backward then (if idx = 0 then cap.N else idx) else pos
      match walk.pre with
      | some pre =>
          if truthy item && pre item then some (m, .walking walk (.result idx))
          else some (m, .walking walk (.item pos (i + 1) rounds visited))
      | none =>
          some (m, .walking walk (.item pos (i + 1) rounds
            (if truthy item then visited ++ [item] else visited)))
  | .result pos => do
      let item ← m.item? pos
      some (m, .returning (.item item))

/-- A turn of a thread, by what it is doing. -/
def act [DecidableEq KEY] (m : CircleMap KEY T cap) :
    Activity KEY T → MapTurn KEY T → Option (CircleMap KEY T cap × Activity KEY T)
  | .idle, .call call => some (m, call.begin)
  | .putting key value point, .proceed spurious =>
      m.putStep key value spurious point
  | .finding key point, .proceed _ => m.findStep key point
  | .erasing key point, .proceed _ => m.eraseStep key point
  | .fronting point, .proceed _ => m.frontStep point
  | .advancing point, .proceed spurious => m.nextStep spurious point
  | .walking walk point, .proceed _ => m.walkStep walk point
  | .testing, .proceed _ => some (m, .returning (.flag m.empty))
  | .returning _, .finish => some (m, .idle)
  | _, _ => none

end CircleMap

/-- An element of one of the containers: the index of a key, or an item. -/
inductive Place (KEY : Type) where
  | index (key : KEY)
  | item (slot : UInt32)

structure Access (KEY : Type) where
  place : Place KEY
  writes : Bool

/-- The element a thread reads or writes in its next step.  The members that
are atomic, and the lookups in `mKeys`, are left out. -/
def Activity.access (cap : Capacity) : Activity KEY T → Option (Access KEY)
  | .putting key _ (.findInternal .test) => some ⟨.index key, false⟩
  | .putting key _ (.findInternal .read) => some ⟨.index key, false⟩
  | .putting key _ (.store _) => some ⟨.index key, true⟩
  | .putting _ _ (.assign slot) => some ⟨.item slot, true⟩
  | .finding key (.findInternal .test) => some ⟨.index key, false⟩
  | .finding key (.findInternal .read) => some ⟨.index key, false⟩
  | .finding _ (.read slot) => some ⟨.item slot, false⟩
  | .erasing key .test => some ⟨.index key, false⟩
  | .erasing key .subscript => some ⟨.index key, false⟩
  | .erasing _ (.reset slot) => some ⟨.item slot, true⟩
  | .erasing key .invalidate => some ⟨.index key, true⟩
  | .fronting (.read slot) => some ⟨.item slot, false⟩
  | .advancing (.scan _ next (_ + 1)) => some ⟨.item ((next + 1) % cap.N), false⟩
  | .walking walk (.item pos i (_ + 1) _) =>
      some ⟨.item (if walk.backward then pos - 1 else (pos + i) % cap.N), false⟩
  | .walking _ (.result pos) => some ⟨.item pos, false⟩
  | _ => none

/-- Two accesses to one element, and not both of them reads. -/
def Access.Conflicts (here other : Access KEY) : Prop :=
  here.place = other.place ∧ (here.writes = true ∨ other.writes = true)

/-- A map and the threads that use it. -/
abbrev MapThreads (Thread KEY T : Type) (cap : Capacity) :=
  Threads Thread (CircleMap KEY T cap) (Activity KEY T)

namespace MapThreads

variable {Thread : Type} [MappedType T]

/-- A map just constructed, and no call begun. -/
def start : MapThreads Thread KEY T cap := ⟨CircleMap.fresh, fun _ => .idle⟩

def step [DecidableEq Thread] [DecidableEq KEY] :
    MapThreads Thread KEY T cap → Thread × MapTurn KEY T →
      Option (MapThreads Thread KEY T cap) :=
  Threads.step CircleMap.act

end MapThreads

end Saigon
