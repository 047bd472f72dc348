/-
Functions that are sequences of system calls: `getCopyingFiles` of
`clipboard.cpp`, `writeDump` of `minidump.cpp` and `enumerate_drives` of
`common_utils.cpp`.  What the system answers, and which allocations fail, is
an argument; the calls made are part of the result, and no result is an
exception.
-/
import Saigon.Support.Brackets

namespace Saigon

/-! ### clipboard -/

/-- What `getCopyingFiles` is answered, and which of its allocations fail.  What
`DragQueryFileW` copies of a name leaves room for the null in a buffer of `cch`
characters. -/
structure Clipboard (HANDLE WCHAR : Type) where
  opens : Bool
  data : Option HANDLE
  locks : HANDLE → Bool
  numFiles : HANDLE → Nat
  dragQueryFile : HANDLE → Nat → Nat → List WCHAR
  dragQueryFile_lt : ∀ hDrop i cch, 0 < cch →
    (dragQueryFile hDrop i cch).length < cch
  reserveFails : Bool
  copyFails : Nat → Bool

/-- The calls of `getCopyingFiles`; a pointer is written as the handle it was
locked from, and the number of files is queried without an index. -/
inductive ClipboardCall (HANDLE : Type) where
  | openClipboard (opened : Bool)
  | getClipboardData
  | globalLock (hData : HANDLE) (locked : Bool)
  | dragQueryFile (hDrop : HANDLE) (index : Option Nat)
  | globalUnlock (hData : HANDLE)
  | closeClipboard

/-- What the calls need and return. -/
inductive ClipboardResource (HANDLE : Type) where
  | clipboard
  | block (hData : HANDLE)
deriving DecidableEq

namespace ClipboardCall

variable {HANDLE : Type}

/-- A handle of the clipboard is valid while the clipboard is open. -/
def marks : ClipboardCall HANDLE →
    List (Brackets.Mark (ClipboardResource HANDLE))
  | .openClipboard opened => if opened then [.acquire .clipboard] else []
  | .getClipboardData => [.use .clipboard]
  | .globalLock hData locked =>
      .use .clipboard :: if locked then [.acquire (.block hData)] else []
  | .dragQueryFile hDrop _ => [.use .clipboard, .use (.block hDrop)]
  | .globalUnlock hData => [.use .clipboard, .release (.block hData)]
  | .closeClipboard => [.release .clipboard]

end ClipboardCall

def maxPath : Nat := 260

namespace Clipboard

variable {HANDLE WCHAR : Type}

/-- The loop over the files, with `left` of them to go. -/
def copyLoop (c : Clipboard HANDLE WCHAR) (hDrop : HANDLE) :
    Nat → Nat → List (List WCHAR) →
      List (ClipboardCall HANDLE) × Option (List (List WCHAR))
  | 0, _, filePaths => ([], some filePaths)
  | left + 1, i, filePaths =>
      let paths := c.dragQueryFile hDrop i maxPath
      if paths.length = 0 then
        let rest := c.copyLoop hDrop left (i + 1) filePaths
        (.dragQueryFile hDrop (some i) :: rest.1, rest.2)
      else if c.copyFails i then ([.dragQueryFile hDrop (some i)], none)
      else
        let rest := c.copyLoop hDrop left (i + 1) (filePaths ++ [paths])
        (.dragQueryFile hDrop (some i) :: rest.1, rest.2)

/-- The scope of `hDrop`. -/
def queryFiles (c : Clipboard HANDLE WCHAR) (hDrop : HANDLE) :
    List (ClipboardCall HANDLE) × Option (List (List WCHAR)) :=
  let numFiles := c.numFiles hDrop
  if numFiles = 0 then ([.dragQueryFile hDrop none], some [])
  else if c.reserveFails then ([.dragQueryFile hDrop none], none)
  else
    let rest := c.copyLoop hDrop numFiles 0 []
    (.dragQueryFile hDrop none :: rest.1, rest.2)

/-- The scope of `cbData`, which itself is not released. -/
def lockData (c : Clipboard HANDLE WCHAR) (hData : HANDLE) :
    List (ClipboardCall HANDLE) × Option (List (List WCHAR)) :=
  if c.locks hData then
    let rest := c.queryFiles hData
    (.globalLock hData true :: (rest.1 ++ [.globalUnlock hData]), rest.2)
  else ([.globalLock hData false], some [])

/-- The scope of `cbOpen`. -/
def readData (c : Clipboard HANDLE WCHAR) :
    List (ClipboardCall HANDLE) × Option (List (List WCHAR)) :=
  match c.data with
  | none => ([.getClipboardData], some [])
  | some hData =>
      let rest := c.lockData hData
      (.getClipboardData :: rest.1, rest.2)

/-- The deleters run at the end of each scope, exceptions or not. -/
def getCopyingFiles (c : Clipboard HANDLE WCHAR) :
    List (ClipboardCall HANDLE) × Option (List (List WCHAR)) :=
  if c.opens then
    let rest := c.readData
    (.openClipboard true :: (rest.1 ++ [.closeClipboard]), rest.2)
  else ([.openClipboard false], some [])

/-- The block of which the files are read, if there is one. -/
def readable (c : Clipboard HANDLE WCHAR) : Option HANDLE :=
  if c.opens then c.data.filter c.locks else none

/-- The names of the files as the buffer holds them, without the empty ones. -/
def names (c : Clipboard HANDLE WCHAR) (hDrop : HANDLE) : List (List WCHAR) :=
  ((List.range (c.numFiles hDrop)).map fun i =>
    c.dragQueryFile hDrop i maxPath).filter fun name => !name.isEmpty

/-- A name in the list has a character and fits the buffer with its null. -/
theorem length_of_mem_names (c : Clipboard HANDLE WCHAR) {hDrop : HANDLE}
    {name : List WCHAR} (hname : name ∈ c.names hDrop) :
    0 < name.length ∧ name.length < maxPath := by
  obtain ⟨hcopied, hkept⟩ := List.mem_filter.mp hname
  obtain ⟨i, _, rfl⟩ := List.mem_map.mp hcopied
  constructor
  · rw [List.length_pos_iff]
    rintro hnil
    rw [hnil] at hkept
    contradiction
  · exact c.dragQueryFile_lt hDrop i maxPath (by decide)

section Calls

variable [DecidableEq HANDLE] {held : List (ClipboardResource HANDLE)}
  {hDrop : HANDLE}

theorem closed_query (index : Option Nat)
    {rest : List (ClipboardCall HANDLE)} (hopen : .clipboard ∈ held)
    (hlocked : .block hDrop ∈ held)
    (hrest : Brackets.Closed held (rest.flatMap ClipboardCall.marks)) :
    Brackets.Closed held
      ((.dragQueryFile hDrop index :: rest).flatMap ClipboardCall.marks) := by
  rw [List.flatMap_cons]
  exact (hrest.use hlocked).use hopen

theorem copyLoop_closed (c : Clipboard HANDLE WCHAR)
    (hopen : .clipboard ∈ held) (hlocked : .block hDrop ∈ held)
    (left i : Nat) (filePaths : List (List WCHAR)) :
    Brackets.Closed held
      ((c.copyLoop hDrop left i filePaths).1.flatMap ClipboardCall.marks) := by
  fun_induction copyLoop c hDrop left i filePaths with
  | case1 i filePaths => exact Brackets.closed_nil held
  | case2 left i filePaths paths hempty rest ih =>
      exact closed_query (some i) hopen hlocked ih
  | case3 left i filePaths paths hempty hfails =>
      exact closed_query (some i) hopen hlocked (Brackets.closed_nil held)
  | case4 left i filePaths paths hempty hfails rest ih =>
      exact closed_query (some i) hopen hlocked ih

theorem queryFiles_closed (c : Clipboard HANDLE WCHAR)
    (hopen : .clipboard ∈ held) (hlocked : .block hDrop ∈ held) :
    Brackets.Closed held
      ((c.queryFiles hDrop).1.flatMap ClipboardCall.marks) := by
  have hcounted : Brackets.Closed held
      ([ClipboardCall.dragQueryFile hDrop none].flatMap ClipboardCall.marks) :=
    closed_query none hopen hlocked (Brackets.closed_nil held)
  rw [queryFiles]
  split
  · exact hcounted
  · split
    · exact hcounted
    · exact closed_query none hopen hlocked
        (c.copyLoop_closed hopen hlocked _ 0 [])

theorem lockData_closed (c : Clipboard HANDLE WCHAR)
    (hopen : .clipboard ∈ held) (hfree : .block hDrop ∉ held) :
    Brackets.Closed held
      ((c.lockData hDrop).1.flatMap ClipboardCall.marks) := by
  rw [lockData]
  split
  · have hopened : ClipboardResource.clipboard ∈ .block hDrop :: held :=
      List.mem_cons_of_mem _ hopen
    have hqueried := c.queryFiles_closed hopened List.mem_cons_self
    have hunlocked := (Brackets.closed_nil (.block hDrop :: held)).use hopened
    have hscope := (hqueried.append hunlocked).enclose hfree
    simpa [ClipboardCall.marks] using hscope.use hopen
  · exact (Brackets.closed_nil held).use hopen

/-- The two scopes nest, and `cbData` releases nothing. -/
theorem getCopyingFiles_closed (c : Clipboard HANDLE WCHAR) :
    Brackets.Closed [] ((c.getCopyingFiles).1.flatMap ClipboardCall.marks) := by
  rw [getCopyingFiles]
  split
  · have hdata : Brackets.Closed [.clipboard]
        (c.readData.1.flatMap ClipboardCall.marks) := by
      rw [readData]
      split
      · exact (Brackets.closed_nil _).use List.mem_cons_self
      · next hData _ =>
          exact (c.lockData_closed List.mem_cons_self (by simp)).use
            List.mem_cons_self
    simpa [ClipboardCall.marks] using hdata.enclose List.not_mem_nil
  · exact Brackets.closed_nil []

end Calls

/-- The loop appends the names that are left. -/
theorem copyLoop_result (c : Clipboard HANDLE WCHAR) (hDrop : HANDLE)
    (left i : Nat) (filePaths : List (List WCHAR)) :
    (c.copyLoop hDrop left i filePaths).2 = some (filePaths ++
        ((List.range' i left).map fun i =>
          c.dragQueryFile hDrop i maxPath).filter fun name => !name.isEmpty) ∨
      (c.copyLoop hDrop left i filePaths).2 = none ∧
        ∃ i, c.copyFails i = true := by
  fun_induction copyLoop c hDrop left i filePaths with
  | case1 i filePaths => simp
  | case2 left i filePaths paths hempty rest ih =>
      have hskipped : c.dragQueryFile hDrop i maxPath = [] :=
        List.length_eq_zero_iff.mp hempty
      rw [List.range'_succ, List.map_cons, hskipped]
      exact ih
  | case3 left i filePaths paths hempty hfails =>
      exact Or.inr ⟨rfl, i, hfails⟩
  | case4 left i filePaths paths hempty hfails rest ih =>
      have hkept : (c.dragQueryFile hDrop i maxPath).isEmpty = false := by
        rw [← Bool.not_eq_true, List.isEmpty_iff]
        exact fun hnil => hempty (List.length_eq_zero_iff.mpr hnil)
      rw [List.range'_succ, List.map_cons,
        List.filter_cons_of_pos (by rw [hkept]; rfl), List.append_cons]
      exact ih

theorem queryFiles_result (c : Clipboard HANDLE WCHAR) (hDrop : HANDLE) :
    (c.queryFiles hDrop).2 = some (c.names hDrop) ∨
      (c.queryFiles hDrop).2 = none ∧
        (c.reserveFails = true ∨ ∃ i, c.copyFails i = true) := by
  rw [queryFiles, names, List.range_eq_range']
  split
  · next hnone =>
      left
      rw [hnone]
      rfl
  · split
    · next hfails => exact Or.inr ⟨rfl, Or.inl hfails⟩
    · rcases c.copyLoop_result hDrop (c.numFiles hDrop) 0 [] with hcopied | hfailed
      · exact Or.inl hcopied
      · exact Or.inr ⟨hfailed.1, Or.inr hfailed.2⟩

theorem getCopyingFiles_result (c : Clipboard HANDLE WCHAR) :
    c.getCopyingFiles.2 = some (c.readable.elim [] c.names) ∨
      c.getCopyingFiles.2 = none ∧
        (c.reserveFails = true ∨ ∃ i, c.copyFails i = true) := by
  cases hopens : c.opens with
  | false =>
      left
      simp [getCopyingFiles, readable, hopens]
  | true =>
      cases hdata : c.data with
      | none =>
          left
          simp [getCopyingFiles, readData, readable, hopens, hdata]
      | some hData =>
          cases hlocks : c.locks hData with
          | false =>
              left
              simp [getCopyingFiles, readData, lockData, readable,
                Option.filter, hopens, hdata, hlocks]
          | true =>
              simpa [getCopyingFiles, readData, lockData, readable,
                Option.filter, hopens, hdata, hlocks]
                using c.queryFiles_result hData

/-- Whatever fails, the clipboard is closed and the block unlocked if they were
opened and locked, and neither is used before or after.  The result is the
names in order, and none if the clipboard, its data or the block is not to be
had; an exception comes from an allocation only.  Each name has a character and
fits the buffer. -/
theorem getCopyingFiles_spec [DecidableEq HANDLE] (c : Clipboard HANDLE WCHAR) :
    Brackets.Closed [] ((c.getCopyingFiles).1.flatMap ClipboardCall.marks) ∧
      (c.getCopyingFiles.2 = some (c.readable.elim [] c.names) ∨
        c.getCopyingFiles.2 = none ∧
          (c.reserveFails = true ∨ ∃ i, c.copyFails i = true)) ∧
      ∀ names, c.getCopyingFiles.2 = some names → ∀ name ∈ names,
        0 < name.length ∧ name.length < maxPath := by
  refine ⟨c.getCopyingFiles_closed, c.getCopyingFiles_result, ?_⟩
  intro names hnames name hname
  rcases c.getCopyingFiles_result with hresult | ⟨hthrown, _⟩
  · rw [hnames, Option.some.injEq] at hresult
    rw [hresult] at hname
    cases hreadable : c.readable with
    | none =>
        rw [hreadable, Option.elim_none] at hname
        contradiction
    | some hDrop =>
        rw [hreadable, Option.elim_some] at hname
        exact c.length_of_mem_names hname
  · rw [hthrown] at hnames
    contradiction

/-- A block with three files, one of which cannot be queried. -/
def threeFiles : Clipboard Nat Nat where
  opens := true
  data := some 5
  locks := fun _ => true
  numFiles := fun _ => 3
  dragQueryFile := fun _ i cch =>
    (if i = 1 then [] else [i, i]).take (cch - 1)
  dragQueryFile_lt := by
    intro hDrop i cch hcch
    rw [List.length_take]
    omega
  reserveFails := false
  copyFails := fun _ => false

example : threeFiles.getCopyingFiles.2 = some [[0, 0], [2, 2]] := by decide

end Clipboard

/-! ### minidump -/

/-- What `CreateFileA` returns; a failure is `INVALID_HANDLE_VALUE`. -/
inductive CreatedFile (HANDLE : Type) where
  | null
  | invalid
  | file (h : HANDLE)
deriving DecidableEq

/-- What `writeDump` is answered, and which of its allocations fail. -/
structure Crash (HANDLE : Type) where
  libraryLoaded : Bool
  procFound : Bool
  nameFails : Bool
  hFile : CreatedFile HANDLE
  newFails : Bool
  ret : Int

inductive DumpCall (HANDLE : Type) where
  | loadLibrary (loaded : Bool)
  | getProcAddress
  | createFile (hFile : CreatedFile HANDLE)
  | newInformation
  | miniDumpWriteDump (hFile : CreatedFile HANDLE)
  | closeHandle (hFile : CreatedFile HANDLE)
  | deleteInformation
  | freeLibrary

@[inherit_doc ClipboardResource]
inductive DumpResource (HANDLE : Type) where
  | library
  | file (hFile : CreatedFile HANDLE)
  | information
deriving DecidableEq

def DumpCall.marks {HANDLE : Type} :
    DumpCall HANDLE → List (Brackets.Mark (DumpResource HANDLE))
  | .loadLibrary loaded => if loaded then [.acquire .library] else []
  | .getProcAddress => [.use .library]
  | .createFile (.file h) => [.acquire (.file (.file h))]
  | .createFile _ => []
  | .newInformation => [.acquire .information]
  | .miniDumpWriteDump hFile =>
      [.use .library, .use (.file hFile), .use .information]
  | .closeHandle hFile => [.release (.file hFile)]
  | .deleteInformation => [.release .information]
  | .freeLibrary => [.release .library]

namespace Crash

variable {HANDLE : Type}

/-- From `GetProcAddress` on, with what becomes of `ret`. -/
def dump (c : Crash HANDLE) : List (DumpCall HANDLE) × Option Int :=
  if c.procFound then
    if c.nameFails then ([.getProcAddress], none)
    else
      match c.hFile with
      | .null => ([.getProcAddress, .createFile .null], some 0)
      | hFile =>
          if c.newFails then ([.getProcAddress, .createFile hFile], none)
          else
            ([.getProcAddress, .createFile hFile, .newInformation,
              .miniDumpWriteDump hFile, .closeHandle hFile,
              .deleteInformation], some c.ret)
  else ([.getProcAddress], some 0)

def writeDump (c : Crash HANDLE) : List (DumpCall HANDLE) × Option Bool :=
  if c.libraryLoaded then
    match c.dump with
    | (calls, some ret) =>
        (.loadLibrary true :: (calls ++ [.freeLibrary]), some (ret = 1))
    | (calls, none) => (.loadLibrary true :: calls, none)
  else ([.loadLibrary false], some false)

/-- `writeDump` leaves nothing open, and uses nothing that is not, exactly
when no allocation fails on the way and the file is not the invalid handle,
which is not null. -/
theorem writeDump_closed_iff [DecidableEq HANDLE] (c : Crash HANDLE) :
    Brackets.Closed [] (c.writeDump.1.flatMap DumpCall.marks) ↔
      (c.libraryLoaded = true → c.procFound = true →
        c.nameFails = false ∧ (c.hFile ≠ .null →
          c.newFails = false ∧ c.hFile ≠ .invalid)) := by
  cases hloaded : c.libraryLoaded with
  | false => simp [writeDump, DumpCall.marks, Brackets.Closed, hloaded]
  | true =>
      cases hproc : c.procFound with
      | false =>
          simp [writeDump, dump, DumpCall.marks, Brackets.Closed, Runs.run,
            Brackets.step, hloaded, hproc]
      | true =>
          cases hname : c.nameFails with
          | true =>
              -- nobody frees the library
              simp [writeDump, dump, DumpCall.marks, Brackets.Closed, Runs.run,
                Brackets.step, hloaded, hproc, hname]
          | false =>
              cases hFile : c.hFile with
              | null =>
                  simp [writeDump, dump, DumpCall.marks, Brackets.Closed,
                    Runs.run, Brackets.step, hloaded, hproc, hname, hFile]
              | invalid =>
                  -- what is written to and closed was never opened
                  cases hnew : c.newFails <;>
                    simp [writeDump, dump, DumpCall.marks, Brackets.Closed,
                      Runs.run, Brackets.step, hloaded, hproc, hname, hFile,
                      hnew]
              | file h =>
                  cases hnew : c.newFails <;>
                    simp [writeDump, dump, DumpCall.marks, Brackets.Closed,
                      Runs.run, Brackets.step, hloaded, hproc, hname, hFile,
                      hnew]

end Crash

/-! ### common_utils -/

/-- What `GetDriveTypeW` may return. -/
inductive DriveType where
  | unknown
  | noRootDir
  | removable
  | fixed
  | remote
  | cdrom
  | ramdisk
deriving DecidableEq

namespace Drives

/-- `letter`, up to its null. -/
def letter (i : Nat) : List Char := [Char.ofNat ('A'.toNat + i), ':', '\\']

def maxDrives : Nat := 26

def shown : DriveType → Bool
  | .removable => true
  | .fixed => true
  | _ => false

/-- The loop over the drives, with `left` of them to go. -/
def drivesLoop (getDriveType : List Char → DriveType) :
    Nat → Nat → BitVec 32 → List (List Char) → List (List Char)
  | 0, _, _, drives => drives
  | left + 1, i, dwDriveMask, drives =>
      let drives :=
        if dwDriveMask &&& 1 ≠ 0 ∧ shown (getDriveType (letter i)) then
          drives ++ [letter i]
        else drives
      drivesLoop getDriveType left (i + 1) (dwDriveMask >>> 1) drives

def enumerateDrives (dwDriveMask : BitVec 32)
    (getDriveType : List Char → DriveType) : List (List Char) :=
  if dwDriveMask = 0 then []
  else drivesLoop getDriveType maxDrives 0 dwDriveMask []

/-- The drives of which the mask has the bit, when they are to be shown. -/
def present (dwDriveMask : BitVec 32) (getDriveType : List Char → DriveType)
    (i : Nat) : Bool :=
  dwDriveMask.getLsbD i && shown (getDriveType (letter i))

theorem and_one_iff (dwDriveMask : BitVec 32) (i : Nat) :
    (dwDriveMask >>> i) &&& 1 ≠ 0 ↔ dwDriveMask.getLsbD i = true := by
  have hand := BitVec.and_one_eq_setWidth_ofBool_getLsbD (x := dwDriveMask >>> i)
  rw [BitVec.getLsbD_ushiftRight, Nat.add_zero] at hand
  rw [show (1 : BitVec 32) = 1#32 from rfl, hand]
  cases dwDriveMask.getLsbD i <;> decide

/-- The loop appends the drives of the bits that are left. -/
theorem drivesLoop_eq (getDriveType : List Char → DriveType)
    (dwDriveMask : BitVec 32) (left i : Nat) (drives : List (List Char)) :
    drivesLoop getDriveType left i (dwDriveMask >>> i) drives =
      drives ++ ((List.range' i left).filter
        (present dwDriveMask getDriveType)).map letter := by
  induction left generalizing i drives with
  | zero => simp [drivesLoop]
  | succ left ih =>
      have hpresent : (dwDriveMask >>> i &&& 1 ≠ 0 ∧
          shown (getDriveType (letter i)) = true) ↔
            present dwDriveMask getDriveType i = true := by
        rw [and_one_iff, present, Bool.and_eq_true]
      rw [drivesLoop, ← BitVec.shiftRight_add, ih, List.range'_succ,
        List.filter_cons, if_congr hpresent rfl rfl]
      split
      · rw [List.map_cons, List.append_assoc, List.singleton_append]
      · rfl

/-- The removable and the fixed drives among the 26 of the mask, in ascending
order; higher bits are ignored. -/
theorem enumerateDrives_eq (dwDriveMask : BitVec 32)
    (getDriveType : List Char → DriveType) :
    enumerateDrives dwDriveMask getDriveType =
      ((List.range 26).filter (present dwDriveMask getDriveType)).map letter := by
  rw [enumerateDrives]
  split
  · next hzero =>
      have habsent : ∀ i, ¬ present dwDriveMask getDriveType i = true := by
        intro i
        simp [hzero, present]
      rw [List.filter_eq_nil_iff.mpr fun i _ => habsent i]
      rfl
  · have hloop := drivesLoop_eq getDriveType dwDriveMask maxDrives 0 []
    rw [BitVec.ushiftRight_zero, ← List.range_eq_range'] at hloop
    exact hloop

/-- A floppy, a fixed, and a network drive. -/
example : enumerateDrives 0xF000000D#32
    (fun root => if root = letter 0 then .removable
      else if root = letter 2 then .fixed else .remote) =
    ["A:\\".toList, "C:\\".toList] := by decide

end Drives

end Saigon
