/-
Assignments, lookups and erases of a `circle_map` are linearizable among any
number of threads, and free of data races, where no key is written by one
thread while another uses it and no allocation hands out a slot in use.
-/
import Saigon.EffectSteps

namespace Saigon

variable {KEY T : Type} {cap : Capacity}

namespace MapThreads

variable {Thread : Type}

/-- What a client sees: the calls and their results, each with its thread. -/
def event (s : MapThreads Thread KEY T cap) :
    Thread × MapTurn KEY T →
      Option (Thread × Atomic.Event (MapCall KEY T) (Result T))
  | (t, .call call) => some (t, .called call)
  | (_, .proceed _) => none
  | (t, .finish) =>
      match s.locals t with
      | .returning result => some (t, .returned result)
      | _ => none

/-- No key has the slot, and no assignment is going to write it. -/
structure SlotFree (s : MapThreads Thread KEY T cap) (slot : UInt32) : Prop where
  unnamed : ∀ key, s.shared.slotOf key ≠ some slot
  unheld : ∀ t, (s.locals t).holds ≠ some slot

/-- Threads assign, look for and erase keys.  None writes a key while another
uses it, and an allocation takes a slot that is free. -/
def KeepsApart (s : MapThreads Thread KEY T cap) :
    Thread × MapTurn KEY T → Prop
  | (t, .call (.put key _)) =>
      ∀ other, other ≠ t → (s.locals other).uses ≠ some key
  | (t, .call (.erase key)) =>
      ∀ other, other ≠ t → (s.locals other).uses ≠ some key
  | (t, .call (.find key)) =>
      ∀ other, other ≠ t → (s.locals other).writes ≠ some key
  | (_, .call _) => False
  | (t, .proceed _) =>
      (s.locals t).Allocates → s.SlotFree s.shared.pushSlot
  | (_, .finish) => True

variable [MappedType T]

/-- The threads beside the map of the effects. -/
structure Linearized (s : MapThreads Thread KEY T cap) (a : CircleMap KEY T cap) :
    Prop where
  follows : s.shared.Follows a
  apart : ∀ t other, t ≠ other → (s.locals t).KeysApart (s.locals other)
  inStep : ∀ t, s.shared.InStep a (s.locals t)
  settled : ∀ key, (∀ t, (s.locals t).writes ≠ some key) → s.shared.Agrees a key
  free : ∀ pos, (∀ key slot, a.slotOf key = some slot → slot.toNat ≠ pos) →
    s.shared.itemAt pos = a.itemAt pos
  flag : a.mEmpty = true → s.shared.mEmpty = true ∨ ∃ t, (s.locals t).Puts

theorem start_linearized :
    Linearized (start : MapThreads Thread KEY T cap) CircleMap.fresh where
  follows := ⟨CircleMap.fresh_sized, CircleMap.fresh_tidy, fun _ _ => rfl, id, rfl,
    rfl⟩
  apart := by
    intro t other _
    constructor <;> (intro key hkey; contradiction)
  inStep := fun _ => trivial
  settled := fun _ _ => ⟨rfl, fun _ _ => rfl⟩
  free := fun _ _ => rfl
  flag := fun _ => Or.inl rfl

namespace Linearized

variable {s : MapThreads Thread KEY T cap} {a : CircleMap KEY T cap} {t : Thread}

/-- A slot that is free when an allocation takes it is free in the map of the
effects. -/
theorem hasRoom (hs : s.Linearized a) (hfree : s.SlotFree s.shared.pushSlot)
    (key : KEY) : a.HasRoom key := by
  intro _ other hother
  have hpush : a.pushSlot = s.shared.pushSlot := by
    rw [CircleMap.pushSlot, CircleMap.pushSlot, hs.follows.pushIndex]
  rw [hpush] at hother
  by_cases hwritten : ∃ t, (s.locals t).writes = some other
  · obtain ⟨t, hwrites⟩ := hwritten
    rcases (hs.inStep t).holds hwrites hother with hnamed | hheld
    · exact hfree.unnamed other hnamed
    · exact hfree.unheld t hheld
  · apply hfree.unnamed other
    rw [(hs.settled other (not_exists.mp hwritten)).slotOf, hother]

variable [DecidableEq Thread]

/-- The threads after a step of one of them. -/
theorem next (hs : s.Linearized a) {after followed : CircleMap KEY T cap}
    {next : Activity KEY T} (hfollows : after.Follows followed)
    (hnext : after.InStep followed next)
    (hothers : ∀ other, other ≠ t → after.InStep followed (s.locals other))
    (hapart : ∀ other, other ≠ t → next.KeysApart (s.locals other))
    (hsettled : ∀ key, next.writes ≠ some key →
      (∀ other, other ≠ t → (s.locals other).writes ≠ some key) →
      after.Agrees followed key)
    (hfree : ∀ pos, (∀ key slot, followed.slotOf key = some slot →
      slot.toNat ≠ pos) → after.itemAt pos = followed.itemAt pos)
    (hflag : followed.mEmpty = true → next.Puts ∨ ¬ (s.locals t).Puts ∧
      a.mEmpty = true ∧ after.mEmpty = s.shared.mEmpty) :
    Linearized ⟨after, Function.update s.locals t next⟩ followed := by
  constructor
  case follows => exact hfollows
  case apart =>
    have hsymm : ∀ here other : Activity KEY T, here.KeysApart other →
        other.KeysApart here := fun _ _ => Activity.KeysApart.symm
    exact Threads.pairwise_update hsymm hs.apart hapart
  case inStep =>
    rw [Function.forall_update_iff s.locals
      (p := fun _ here => after.InStep followed here)]
    exact ⟨hnext, hothers⟩
  case settled =>
    intro key hwrites
    rw [Function.forall_update_iff s.locals
      (p := fun _ here => here.writes ≠ some key)] at hwrites
    exact hsettled key hwrites.1 hwrites.2
  case free => exact hfree
  case flag =>
    intro hempty
    rcases hflag hempty with hputs | ⟨hhere, ha, hafter⟩
    · refine Or.inr ⟨t, ?_⟩
      simp only [Function.update_self]
      exact hputs
    · rcases hs.flag ha with hmark | ⟨other, hputs⟩
      · exact Or.inl (hafter.trans hmark)
      · refine Or.inr ⟨other, ?_⟩
        have hne : other ≠ t := by
          rintro rfl
          exact hhere hputs
        simp only [Function.update_of_ne hne]
        exact hputs

/-- A step of a thread that uses `key`. -/
theorem next_of_simulates [DecidableEq KEY] (hs : s.Linearized a) {key : KEY}
    {here next : Activity KEY T} (hlocal : s.locals t = here)
    {after followed : CircleMap KEY T cap}
    (hstep : CircleMap.Simulates key s.shared a here after followed next)
    (hothers : ∀ other, other ≠ t → after.InStep followed (s.locals other))
    (hwrites : ∀ other, here.writes = some other → other = key)
    (hnext : ∀ other, next.writes = some other → here.writes = some other)
    (huses : ∀ other, next.uses = some other → here.uses = some other) :
    Linearized ⟨after, Function.update s.locals t next⟩ followed := by
  subst hlocal
  have ha := hs.follows.tidy.slotInj
  have hfollowed := hstep.follows.tidy.slotInj
  apply hs.next hstep.follows hstep.inStep hothers _ _ _ hstep.flag
  · intro other hne
    exact (hs.apart t other (Ne.symm hne)).of_subset hnext huses
  · intro other hother hwritten
    by_cases heq : other = key
    · subst heq
      exact hstep.settled hother
    · apply hstep.print.agrees ha hfollowed heq
      apply hs.settled
      intro thread hthread
      by_cases hthis : thread = t
      · exact heq (hwrites other (hthis ▸ hthread))
      · exact hwritten thread hthis hthread
  · intro pos hpos
    exact hstep.print.free hs.free hpos

omit [DecidableEq Thread] in
/-- A thread that writes a key leaves the others in step. -/
theorem others_inStep (hs : s.Linearized a) {key : KEY}
    (hwrites : (s.locals t).writes = some key)
    {after followed : CircleMap KEY T cap}
    (hprint : CircleMap.Footprint key s.shared a after followed)
    (hfollowed : followed.UniqueSlots) (other : Thread) (hne : other ≠ t) :
    after.InStep followed (s.locals other) := by
  apply hprint.inStep hs.follows.tidy.slotInj hfollowed _ (hs.inStep other)
  exact (hs.apart t other (Ne.symm hne)).writes key hwrites

section Proceed

variable [DecidableEq KEY]

/-- Step lemma of a call in progress. -/
theorem proceed (hs : s.Linearized a) {spurious : Bool}
    (hok : KeepsApart s (t, .proceed spurious))
    {after : CircleMap KEY T cap} {next : Activity KEY T}
    (hact : s.shared.act (s.locals t) (.proceed spurious) = some (after, next)) :
    ∃ followed, Atomic.Commits CircleMap.perform a (s.locals t).phase followed
        next.phase ∧
      Linearized ⟨after, Function.update s.locals t next⟩ followed := by
  have hhere := hs.inStep t
  cases hlocal : s.locals t with
  | putting key value point =>
      have hwrites : (s.locals t).writes = some key := by rw [hlocal]; rfl
      rw [hlocal] at hhere hact
      have hroom : point = .pushIndex → a.HasRoom key := by
        rintro rfl
        apply hs.hasRoom (hok _)
        rw [hlocal]
        trivial
      obtain ⟨followed, hstep⟩ :=
        CircleMap.putStep_simulates hs.follows hhere hroom hact
      refine ⟨followed, hstep.commits, hs.next_of_simulates hlocal hstep ?_ ?_ ?_ ?_⟩
      · exact hs.others_inStep hwrites hstep.print hstep.follows.tidy.slotInj
      · exact fun other hother => (Option.some.inj hother).symm
      · rcases CircleMap.putStep_stays hact with ⟨_, rfl⟩ | ⟨_, rfl⟩
        · exact fun _ => id
        · intro other hother
          contradiction
      · rcases CircleMap.putStep_stays hact with ⟨_, rfl⟩ | ⟨_, rfl⟩
        · exact fun _ => id
        · intro other hother
          contradiction
  | finding key point =>
      rw [hlocal] at hhere hact
      obtain ⟨rfl, hstep⟩ := CircleMap.findStep_simulates hs.follows hhere hact
      refine ⟨a, hstep.commits, hs.next_of_simulates hlocal hstep ?_ ?_ ?_ ?_⟩
      · exact fun other _ => hs.inStep other
      · intro other hother
        contradiction
      · rcases CircleMap.findStep_stays hact with ⟨_, rfl⟩ | ⟨_, rfl⟩
        · exact fun _ => id
        · intro other hother
          contradiction
      · rcases CircleMap.findStep_stays hact with ⟨_, rfl⟩ | ⟨_, rfl⟩
        · exact fun _ => id
        · intro other hother
          contradiction
  | erasing key point =>
      have hwrites : (s.locals t).writes = some key := by rw [hlocal]; rfl
      rw [hlocal] at hhere hact
      obtain ⟨followed, hstep⟩ :=
        CircleMap.eraseStep_simulates hs.follows hhere hact
      refine ⟨followed, hstep.commits, hs.next_of_simulates hlocal hstep ?_ ?_ ?_ ?_⟩
      · exact hs.others_inStep hwrites hstep.print hstep.follows.tidy.slotInj
      · exact fun other hother => (Option.some.inj hother).symm
      · rcases CircleMap.eraseStep_stays hact with ⟨_, rfl⟩ | ⟨_, rfl⟩
        · exact fun _ => id
        · intro other hother
          contradiction
      · rcases CircleMap.eraseStep_stays hact with ⟨_, rfl⟩ | ⟨_, rfl⟩
        · exact fun _ => id
        · intro other hother
          contradiction
  | idle =>
      rw [hlocal] at hact
      contradiction
  | returning result =>
      rw [hlocal] at hact
      contradiction
  | _ =>
      rw [hlocal] at hhere
      exact hhere.elim

end Proceed

/-- Step lemma of a turn that begins a call or returns from one. -/
theorem still (hs : s.Linearized a) {next : Activity KEY T}
    (hnext : s.shared.InStep a next)
    (hapart : ∀ other, other ≠ t → next.KeysApart (s.locals other))
    (hwrites : (s.locals t).writes = none) (hputs : ¬ (s.locals t).Puts) :
    Linearized ⟨s.shared, Function.update s.locals t next⟩ a := by
  apply hs.next hs.follows hnext _ hapart
  · intro key _ hothers
    apply hs.settled
    intro thread hthread
    by_cases hthis : thread = t
    · rw [hthis, hwrites] at hthread
      contradiction
    · exact hothers thread hthis hthread
  · exact hs.free
  · exact fun hempty => Or.inr ⟨hputs, hempty, rfl⟩
  · exact fun other _ => hs.inStep other

/-- Step lemma of a call that begins. -/
theorem call (hs : s.Linearized a) {call : MapCall KEY T}
    (hidle : s.locals t = .idle) (hok : KeepsApart s (t, .call call)) :
    Linearized ⟨s.shared, Function.update s.locals t call.begin⟩ a := by
  have hagrees : ∀ key, (∀ other, other ≠ t → (s.locals other).writes ≠ some key) →
      s.shared.Agrees a key := by
    intro key hothers
    apply hs.settled
    intro thread hthread
    by_cases hthis : thread = t
    · rw [hthis, hidle] at hthread
      contradiction
    · exact hothers thread hthis hthread
  have hunused : ∀ {key}, (∀ other, other ≠ t → (s.locals other).uses ≠ some key) →
      ∀ other, other ≠ t → (s.locals other).writes ≠ some key := by
    intro key hothers other hne hwrites
    exact hothers other hne (Activity.uses_of_writes hwrites)
  have hwrites : (s.locals t).writes = none := by rw [hidle]; rfl
  have hputs : ¬ (s.locals t).Puts := by
    rw [hidle]
    exact id
  cases call with
  | put key value =>
      refine hs.still ?_ ?_ hwrites hputs
      · exact hagrees key (hunused hok)
      intro other hne
      constructor
      case writes =>
        intro key' hkey
        obtain rfl : key = key' := Option.some.inj hkey
        exact hok other hne
      case uses =>
        intro key' hkey
        obtain rfl : key = key' := Option.some.inj hkey
        exact hunused hok other hne
  | find key =>
      refine hs.still ?_ ?_ hwrites hputs
      · exact ⟨hagrees key hok, trivial⟩
      intro other hne
      constructor
      case writes =>
        intro key' hkey
        contradiction
      case uses =>
        intro key' hkey
        obtain rfl : key = key' := Option.some.inj hkey
        exact hok other hne
  | erase key =>
      refine hs.still ?_ ?_ hwrites hputs
      · exact hagrees key (hunused hok)
      intro other hne
      constructor
      case writes =>
        intro key' hkey
        obtain rfl : key = key' := Option.some.inj hkey
        exact hok other hne
      case uses =>
        intro key' hkey
        obtain rfl : key = key' := Option.some.inj hkey
        exact hunused hok other hne
  | _ => exact hok.elim

/-- Step lemma of a return. -/
theorem finish (hs : s.Linearized a) {result : Result T}
    (hreturning : s.locals t = .returning result) :
    Linearized ⟨s.shared, Function.update s.locals t .idle⟩ a := by
  apply hs.still
  · trivial
  · intro other _
    constructor <;> (intro key hkey; contradiction)
  · rw [hreturning]
    rfl
  · rw [hreturning]
    exact id

omit [DecidableEq Thread] in
/-- The maps are the same while no thread is at a call. -/
theorem shared_eq (hs : s.Linearized a) (hidle : ∀ t, s.locals t = .idle) :
    s.shared = a := by
  have hagrees : ∀ key, s.shared.Agrees a key := by
    intro key
    apply hs.settled
    intro t hwrites
    rw [hidle] at hwrites
    contradiction
  have hitems : ∀ pos, s.shared.itemAt pos = a.itemAt pos := by
    intro pos
    by_cases hnamed : ∃ key slot, a.slotOf key = some slot ∧ slot.toNat = pos
    · obtain ⟨key, slot, hslot, rfl⟩ := hnamed
      exact (hagrees key).item slot hslot
    · apply hs.free
      intro key slot hslot heq
      exact hnamed ⟨key, slot, hslot, heq⟩
  have hlength : s.shared.mData.length = a.mData.length := by
    rw [hs.follows.sized.dataLength, hs.follows.tidy.dataLength]
  have hdata : s.shared.mData = a.mData := by
    apply List.ext_getElem hlength
    intro pos hpos hpos'
    have hitem := hitems pos
    rw [CircleMap.itemAt, CircleMap.itemAt, List.getElem?_eq_getElem hpos,
      List.getElem?_eq_getElem hpos', Option.getD_some, Option.getD_some] at hitem
    exact hitem
  have hempty : s.shared.mEmpty = a.mEmpty := by
    cases ha : a.mEmpty with
    | true =>
        rcases hs.flag ha with hmark | ⟨t, hputs⟩
        · exact hmark
        · rw [hidle] at hputs
          exact hputs.elim
    | false =>
        by_contra hmark
        rw [Bool.not_eq_false] at hmark
        rw [hs.follows.flag hmark] at ha
        contradiction
  have hkeys : s.shared.mKeys = a.mKeys := funext fun key => (hagrees key).index
  have hpush := hs.follows.pushIndex
  have hpop := hs.follows.popIndex
  revert hempty hpush hpop hdata hkeys
  cases s.shared
  cases a
  simp only
  rintro rfl rfl rfl rfl rfl
  rfl

end Linearized

end MapThreads

/-- The threads of a machine whose calls take effect one at a time. -/
abbrev MapEffects (Thread KEY T : Type) (cap : Capacity) :=
  Threads Thread (CircleMap KEY T cap)
    (Atomic.Phase (MapCall KEY T) (Result T))

namespace MapEffects

variable {Thread : Type} [DecidableEq Thread] [DecidableEq KEY] [MappedType T]

def start : MapEffects Thread KEY T cap := ⟨CircleMap.fresh, fun _ => .idle⟩

/-- A call takes effect as its function does. -/
def step : MapEffects Thread KEY T cap →
    Thread × Atomic.Turn (MapCall KEY T) → Option (MapEffects Thread KEY T cap) :=
  Threads.step (Atomic.act CircleMap.perform)

end MapEffects

namespace MapThreads

variable {Thread : Type} [DecidableEq Thread] [DecidableEq KEY] [MappedType T]

/-- The threads beside the machine of the effects. -/
structure FollowsEffects (s : MapThreads Thread KEY T cap)
    (effects : MapEffects Thread KEY T cap) : Prop where
  phases : effects.locals = fun t => (s.locals t).phase
  linearized : s.Linearized effects.shared

omit [DecidableEq Thread] [DecidableEq KEY] in
theorem start_followsEffects :
    FollowsEffects (start : MapThreads Thread KEY T cap) MapEffects.start :=
  ⟨rfl, start_linearized⟩

/-- Every step is matched in the machine of the effects. -/
theorem step_simulated (s : MapThreads Thread KEY T cap)
    (effects : MapEffects Thread KEY T cap) (turn : Thread × MapTurn KEY T)
    (after : MapThreads Thread KEY T cap) (hs : s.FollowsEffects effects)
    (hok : KeepsApart s turn) (hstep : step s turn = some after) :
    Runs.Matches MapEffects.step Atomic.event after.FollowsEffects effects
      (event s turn).toList := by
  obtain ⟨t, turn⟩ := turn
  obtain ⟨a, phases⟩ := effects
  obtain ⟨hphases, hlinear⟩ := hs
  obtain ⟨shared, next, hact, rfl⟩ := Threads.step_cases hstep
  have hlater : ∀ {followed : CircleMap KEY T cap},
      Linearized ⟨shared, Function.update s.locals t next⟩ followed →
      FollowsEffects ⟨shared, Function.update s.locals t next⟩
        ⟨followed, Function.update phases t next.phase⟩ := by
    intro followed hfollowed
    refine ⟨?_, hfollowed⟩
    simp only at hphases
    rw [hphases]
    exact (Function.comp_update Activity.phase s.locals t next).symm
  have hphase : phases t = (s.locals t).phase := congrFun hphases t
  rcases CircleMap.act_cases hact with ⟨call, rfl, hidle, rfl, rfl⟩ |
    ⟨spurious, rfl, _⟩ | ⟨result, rfl, hreturning, rfl, rfl⟩
  · rw [hidle] at hphase
    apply Atomic.matches_call hphase
    have hbegin : call.begin.phase = .called call := by
      cases call <;> rfl
    rw [← hbegin]
    exact hlater (hlinear.call hidle hok)
  · obtain ⟨followed, hcommits, hfollowed⟩ := hlinear.proceed hok hact
    rw [← hphase] at hcommits
    exact Atomic.matches_of_commits hcommits (hlater hfollowed)
  · rw [hreturning] at hphase
    simp only [event, hreturning]
    exact Atomic.matches_finish hphase (hlater (hlinear.finish hreturning))

/-- Assignments, lookups and erases are linearizable: where no thread writes a
key that another uses, and an allocation takes a free slot, the calls and
results of every run are those of a machine whose calls take effect one at a
time, as the functions do, and whose map is the same when no call is going
on. -/
theorem calls_linearizable (cap : Capacity)
    {turns : List (Thread × MapTurn KEY T)} {last : MapThreads Thread KEY T cap}
    (hturns : Runs.EveryStep step KeepsApart
      (start : MapThreads Thread KEY T cap) turns)
    (hrun : Runs.run step start turns = some last) :
    ∃ actions, ∃ effects : MapEffects Thread KEY T cap,
      Runs.run MapEffects.step MapEffects.start actions = some effects ∧
      Runs.trace MapEffects.step Atomic.event
        (MapEffects.start : MapEffects Thread KEY T cap) actions =
        Runs.trace step event (start : MapThreads Thread KEY T cap) turns ∧
      ((∀ t, last.locals t = .idle) → last.shared = effects.shared) := by
  obtain ⟨actions, effects, heffects, htrace, hlast⟩ :=
    Runs.matches_of_simulation step_simulated start_followsEffects hturns hrun
  exact ⟨actions, effects, heffects, htrace, hlast.linearized.shared_eq⟩

omit [DecidableEq Thread] [DecidableEq KEY] [MappedType T] in
instance (s : MapThreads Bool Bool T cap) (slot : UInt32) :
    Decidable (s.SlotFree slot) :=
  decidable_of_iff ((∀ key, s.shared.slotOf key ≠ some slot) ∧
      ∀ t, (s.locals t).holds ≠ some slot)
    ⟨fun hfree => ⟨hfree.1, hfree.2⟩, fun hfree => ⟨hfree.1, hfree.2⟩⟩

omit [DecidableEq Thread] [MappedType T] in
instance (s : MapThreads Bool Bool T cap) : ∀ turn, Decidable (KeepsApart s turn)
  | (t, .call (.put key _)) | (t, .call (.erase key)) => inferInstanceAs
      (Decidable (∀ other, other ≠ t → (s.locals other).uses ≠ some key))
  | (t, .call (.find key)) => inferInstanceAs
      (Decidable (∀ other, other ≠ t → (s.locals other).writes ≠ some key))
  | (t, .proceed _) => inferInstanceAs
      (Decidable ((s.locals t).Allocates → s.SlotFree s.shared.pushSlot))
  | (_, .finish) => inferInstanceAs (Decidable True)
  | (_, .call .front) | (_, .call .nextAvailableItem) | (_, .call (.findIf _))
  | (_, .call (.rfindIf _)) | (_, .call .loopAll) | (_, .call .rloopAll)
  | (_, .call .empty) => inferInstanceAs (Decidable False)

/-- One thread assigns a key while the other assigns and erases another. -/
def apartTurns : List (Bool × MapTurn Bool DataType) :=
  [(false, .call (.put false ⟨1⟩)), (true, .call (.put true ⟨2⟩))] ++
    List.replicate 4 (false, .proceed false) ++
    List.replicate 8 (true, .proceed false) ++
    [(true, .finish), (true, .call (.erase true))] ++
    List.replicate 3 (true, .proceed true) ++
    List.replicate 2 (false, .proceed false) ++ [(true, .proceed false)] ++
    List.replicate 2 (false, .proceed false) ++
    [(true, .proceed false), (false, .finish), (true, .finish)]

theorem two_threads_linearizable :
    ∃ last, Runs.run step (start : MapThreads Bool Bool DataType twoSlots)
        apartTurns = some last ∧
      ∃ actions, ∃ effects : MapEffects Bool Bool DataType twoSlots,
        Runs.run MapEffects.step MapEffects.start actions = some effects ∧
        Runs.trace MapEffects.step Atomic.event
          (MapEffects.start : MapEffects Bool Bool DataType twoSlots) actions =
          Runs.trace step event (start : MapThreads Bool Bool DataType twoSlots)
            apartTurns ∧
        ((∀ t, last.locals t = .idle) → last.shared = effects.shared) := by
  have hrun : Runs.run step (start : MapThreads Bool Bool DataType twoSlots)
      apartTurns = some _ := rfl
  exact ⟨_, hrun, calls_linearizable twoSlots (by decide) hrun⟩

/-! ### Data races -/

/-- No two threads are about to access one element, with one of them writing
it. -/
theorem accesses_race_free (cap : Capacity)
    {turns : List (Thread × MapTurn KEY T)} {last : MapThreads Thread KEY T cap}
    (hturns : Runs.EveryStep step KeepsApart
      (start : MapThreads Thread KEY T cap) turns)
    (hrun : Runs.run step start turns = some last) {t other : Thread}
    (hne : t ≠ other) {here there : Access KEY}
    (hhere : (last.locals t).access cap = some here)
    (hthere : (last.locals other).access cap = some there) :
    ¬ here.Conflicts there := by
  obtain ⟨effects, hlast⟩ := Runs.exists_rel_of_simulation step_simulated
    start_followsEffects (Runs.Reachable.of_run Runs.Reachable.refl hturns hrun)
  have hlinear := hlast.linearized
  obtain ⟨key, huses, hwrites, hplace⟩ := (hlinear.inStep t).access hhere
  obtain ⟨key', huses', hwrites', hplace'⟩ := (hlinear.inStep other).access hthere
  rintro ⟨hsame, hconflict⟩
  have hkey : key = key' := by
    rcases hplace with hindex | ⟨slot, hitem, hslot⟩ <;>
      rcases hplace' with hindex' | ⟨slot', hitem', hslot'⟩
    · rw [hindex, hindex'] at hsame
      exact Place.index.inj hsame
    · rw [hindex, hitem'] at hsame
      contradiction
    · rw [hitem, hindex'] at hsame
      contradiction
    · rw [hitem, hitem', Place.item.injEq] at hsame
      subst hsame
      exact hlinear.follows.tidy.slotInj key key' slot hslot hslot'
  subst hkey
  have hapart := hlinear.apart t other hne
  rcases hconflict with hwrite | hwrite
  · exact hapart.writes key (hwrites hwrite) huses'
  · exact hapart.uses key huses (hwrites' hwrite)

/-- One thread is about to reset a slot while the other is about to store an
index. -/
theorem two_threads_race_free :
    ∃ last, Runs.run step (start : MapThreads Bool Bool DataType twoSlots)
        (apartTurns.take 21) = some last ∧
      ∀ here there, (last.locals true).access twoSlots = some here →
        (last.locals false).access twoSlots = some there →
        ¬ here.Conflicts there := by
  have hrun : Runs.run step (start : MapThreads Bool Bool DataType twoSlots)
      (apartTurns.take 21) = some _ := rfl
  refine ⟨_, hrun, fun here there hhere hthere => ?_⟩
  exact accesses_race_free twoSlots (by decide) hrun (by decide) hhere hthere

end MapThreads

end Saigon
