import Mathlib.Data.Finset.Basic
import Mathlib.Logic.Function.Basic
import Susm.Domain.Ids
import Susm.Foundation.Transition

/-!
# Garbage collection of installed versions

The processes that touch `versions`, `pins` and the selection record:
installations and rollbacks, controllers with their executions, and runs of
`garbage_collect`.  A collector reads the selection once and counts the pins of
one directory after the other, and every access is a step of its own.
-/

namespace Susm.Installer

open Susm.Foundation
open Susm.Domain (ExecutionId)

def isStaging (name : String) : Bool :=
  ".staging-".toList.isPrefixOf name.toList

/-- The name of a version directory, `<version>-<manifest-sha256>`.  A version
does not start with a dot, so that none of them is taken for a staging
directory. -/
def VersionName : Type := { name : String // isStaging name = false }
  deriving DecidableEq

/-- The file `pins/<version>/<execution>.pin`. -/
structure Pin where
  version : VersionName
  execution : ExecutionId
  deriving DecidableEq

inductive Phase where
  | listing
  | removing (version : VersionName)
  | clearing (version : VersionName)
  deriving DecidableEq

def Phase.removing? : Phase → Option VersionName
  | .removing version => some version
  | _ => none

/-- A run of `garbage_collect`.  The last two fields are only observed: the
version last selected since `current` was read, and the pins made since the
last count. -/
structure Collector where
  current : Option VersionName
  removed : Nat
  phase : Phase
  selected : Option VersionName
  pinned : Finset Pin

/-- A deleted version directory, with what was in use at that moment. -/
structure Removal where
  version : VersionName
  selection : Option VersionName
  pins : Finset Pin
  unfinished : Finset ExecutionId

/-- The directory was neither selected nor pinned by an unfinished execution. -/
def Removal.Unused (removal : Removal) : Prop :=
  removal.selection ≠ some removal.version ∧
    ∀ pin ∈ removal.pins, pin.version = removal.version →
      pin.execution ∉ removal.unfinished

structure World where
  selection : Option VersionName
  directories : Finset String
  pinDirectories : Finset VersionName
  pins : Finset Pin
  unfinished : Finset ExecutionId
  /-- The version that an installation or rollback is about to select. -/
  installers : Nat → Option VersionName
  collectors : Nat → Option Collector
  removals : List Removal

inductive Event where
  | stage (staging : String)
  | publish (installer : Nat) (staging : String) (version : VersionName)
  | reuse (installer : Nat) (version : VersionName)
  | select (installer : Nat)
  | abandon (installer : Nat)
  | createPins (version : VersionName)
  | pin (version : VersionName) (execution : ExecutionId)
  | finish (execution : ExecutionId)
  | unpin (version : VersionName) (execution : ExecutionId)
  | collect (collector : Nat)
  | visit (collector : Nat) (name : String)
  | remove (collector : Nat)
  | removePins (collector : Nat)
  | leave (collector : Nat)

namespace World

def pinsOf (world : World) (version : VersionName) : Finset Pin :=
  world.pins.filter fun pin => pin.version = version

def setInstaller (world : World) (installer : Nat)
    (version : Option VersionName) : World :=
  { world with
    installers := Function.update world.installers installer version }

def setCollector (world : World) (id : Nat) (collector : Option Collector) :
    World :=
  { world with
    collectors := Function.update world.collectors id collector }

/-- `atomic_write` of the selection record. -/
def selectVersion (world : World) (version : VersionName) : World :=
  { world with
    selection := some version
    collectors := fun id => (world.collectors id).map fun collector =>
      { collector with selected := some version } }

/-- `prepare_execution_build` creates the pin of an execution. -/
def addPin (world : World) (pin : Pin) : World :=
  { world with
    pins := insert pin world.pins
    unfinished := insert pin.execution world.unfinished
    collectors := fun id => (world.collectors id).map fun collector =>
      { collector with pinned := insert pin collector.pinned } }

/-- `garbage_collect` up to the listing: it reads the selection. -/
def begin (world : World) : Collector :=
  { current := world.selection, removed := 0, phase := .listing
    selected := none, pinned := ∅ }

/-- The selection and a version with pins are left alone, any other version is
to be removed. -/
def visitVersion (world : World) (id : Nat) (collector : Collector)
    (version : VersionName) : World :=
  if collector.current = some version ∨ world.pinsOf version ≠ ∅ then world
  else
    world.setCollector id
      (some { collector with phase := .removing version, pinned := ∅ })

def removeStaging (world : World) (id : Nat) (collector : Collector)
    (staging : String) : World :=
  { world.setCollector id
      (some { collector with removed := collector.removed + 1 }) with
    directories := world.directories.erase staging }

def visitEntry (world : World) (id : Nat) (collector : Collector)
    (name : String) : World :=
  if h : isStaging name = false then
    world.visitVersion id collector ⟨name, h⟩
  else world.removeStaging id collector name

/-- `remove_dir_all` of the version directory. -/
def removeVersion (world : World) (id : Nat) (collector : Collector)
    (version : VersionName) : World :=
  { world.setCollector id
      (some { collector with phase := .clearing version }) with
    directories := world.directories.erase version.1
    removals := world.removals ++
      [⟨version, world.selection, world.pins, world.unfinished⟩] }

/-- `remove_dir` of the pin directory, which has to be empty. -/
def clearPins (world : World) (id : Nat) (collector : Collector)
    (version : VersionName) : Option World :=
  if world.pinsOf version = ∅ then
    some { world.setCollector id
        (some { collector with
          removed := collector.removed + 1, phase := .listing }) with
      pinDirectories := world.pinDirectories.erase version }
  else none

/-- One access of one of the processes; nothing when it is not possible.
A collector that fails, or has seen every entry, leaves. -/
def step (world : World) : Event → Option World
  | .stage staging =>
      if isStaging staging ∧ staging ∉ world.directories then
        some { world with directories := insert staging world.directories }
      else none
  | .publish installer staging version =>
      if isStaging staging ∧ staging ∈ world.directories ∧
          version.1 ∉ world.directories then
        some (World.setInstaller
          { world with
            directories :=
              insert version.1 (world.directories.erase staging) }
          installer (some version))
      else none
  | .reuse installer version =>
      if version.1 ∈ world.directories then
        some (world.setInstaller installer (some version))
      else none
  | .select installer =>
      (world.installers installer).map fun version =>
        (world.setInstaller installer none).selectVersion version
  | .abandon installer => some (world.setInstaller installer none)
  | .createPins version =>
      some { world with
        pinDirectories := insert version world.pinDirectories }
  | .pin version execution =>
      if version ∈ world.pinDirectories then
        some (world.addPin ⟨version, execution⟩)
      else none
  | .finish execution =>
      some { world with unfinished := world.unfinished.erase execution }
  | .unpin version execution =>
      if execution ∈ world.unfinished then none
      else some { world with pins := world.pins.erase ⟨version, execution⟩ }
  | .collect id =>
      if world.collectors id = none then
        some (world.setCollector id (some world.begin))
      else none
  | .visit id name =>
      match world.collectors id with
      | some collector =>
          -- the listing may be older than a version directory
          if collector.phase = .listing ∧
              (isStaging name → name ∈ world.directories) then
            some (world.visitEntry id collector name)
          else none
      | none => none
  | .remove id =>
      match world.collectors id with
      | some collector =>
          match collector.phase with
          | .removing version =>
              if version.1 ∈ world.directories then
                some (world.removeVersion id collector version)
              else none
          | _ => none
      | none => none
  | .removePins id =>
      match world.collectors id with
      | some collector =>
          match collector.phase with
          | .clearing version => world.clearPins id collector version
          | _ => none
      | none => none
  | .leave id => some (world.setCollector id none)

structure Idle (world : World) : Prop where
  collectors : world.collectors = fun _ => none
  removals : world.removals = []

/-- No version directory was deleted while it was in use. -/
def KeepsUsed (world : World) : Prop :=
  ∀ removal ∈ world.removals, removal.Unused

end World

/-- Nothing came between the checks of the collector and the removal: no
selection made since still names the version, and no pin made since still
holds it for an unfinished execution. -/
def Collector.Undisturbed (collector : Collector) (world : World) : Prop :=
  ∀ version ∈ collector.phase.removing?,
    collector.selected ≠ some version ∧
      ∀ pin ∈ collector.pinned ∩ world.pinsOf version,
        pin.execution ∉ world.unfinished

instance (collector : Collector) (world : World) :
    Decidable (collector.Undisturbed world) :=
  inferInstanceAs (Decidable (∀ version ∈ collector.phase.removing?, _ ∧ _))

namespace World

def Undisturbed (world : World) : Event → Prop
  | .remove id =>
      ∀ collector ∈ world.collectors id, collector.Undisturbed world
  | _ => True

instance (world : World) (event : Event) :
    Decidable (world.Undisturbed event) := by
  cases event <;> unfold Undisturbed <;> infer_instance

end World

structure Collector.Tracks (collector : Collector)
    (selection : Option VersionName) (pins : Finset Pin) : Prop where
  selection : selection = collector.selected.or collector.current
  removing : ∀ version ∈ collector.phase.removing?,
    collector.current ≠ some version ∧
      ∀ pin ∈ pins, pin.version = version → pin ∈ collector.pinned

namespace World

def Tracks (world : World) : Prop :=
  ∀ id, ∀ collector ∈ world.collectors id,
    collector.Tracks world.selection world.pins

variable {world next : World} {event : Event} {id : Nat}
  {collector : Collector} {version : VersionName}

theorem mem_pinsOf {pin : Pin} :
    pin ∈ world.pinsOf version ↔ pin ∈ world.pins ∧ pin.version = version := by
  simp [pinsOf]

theorem Tracks.setCollector {last : Option Collector} (tracks : world.Tracks)
    (told : ∀ collector ∈ last,
      collector.Tracks world.selection world.pins) :
    (world.setCollector id last).Tracks := by
  intro other collector held
  simp only [World.setCollector, Function.update_apply] at held
  split at held
  · exact told collector held
  · exact tracks other collector held

theorem Tracks.selectVersion (tracks : world.Tracks) :
    (world.selectVersion version).Tracks := by
  intro id collector held
  obtain ⟨before, hbefore, rfl⟩ := Option.map_eq_some_iff.mp held
  exact ⟨by simp [World.selectVersion], (tracks id before hbefore).removing⟩

theorem Tracks.addPin {pin : Pin} (tracks : world.Tracks) :
    (world.addPin pin).Tracks := by
  intro id collector held
  obtain ⟨before, hbefore, rfl⟩ := Option.map_eq_some_iff.mp held
  have known := tracks id before hbefore
  refine ⟨known.selection, ?_⟩
  intro version pending
  obtain ⟨other, pinned⟩ := known.removing version pending
  refine ⟨other, ?_⟩
  intro made hmade same
  simp only [World.addPin, Finset.mem_insert] at hmade ⊢
  cases hmade with
  | inl new => exact .inl new
  | inr old => exact .inr (pinned made old same)

theorem Tracks.unpin {pin : Pin} (tracks : world.Tracks) :
    World.Tracks { world with pins := world.pins.erase pin } := by
  intro id collector held
  have known := tracks id collector held
  refine ⟨known.selection, ?_⟩
  intro version pending
  obtain ⟨other, pinned⟩ := known.removing version pending
  refine ⟨other, ?_⟩
  intro made hmade same
  exact pinned made (Finset.mem_of_mem_erase hmade) same

theorem begin_tracks : world.begin.Tracks world.selection world.pins :=
  ⟨rfl, nofun⟩

theorem Tracks.visitVersion (tracks : world.Tracks)
    (held : world.collectors id = some collector) :
    (world.visitVersion id collector version).Tracks := by
  unfold World.visitVersion
  split
  · exact tracks
  · rename_i free
    rw [not_or, not_not] at free
    apply tracks.setCollector
    rintro _ ⟨⟩
    refine ⟨(tracks id collector held).selection, ?_⟩
    rintro version ⟨⟩
    refine ⟨free.1, ?_⟩
    intro pin hpin same
    have counted := mem_pinsOf.mpr ⟨hpin, same⟩
    simp [free.2] at counted

theorem Tracks.turn {removed : Nat} {phase : Phase} (tracks : world.Tracks)
    (held : world.collectors id = some collector)
    (free : phase.removing? = none) :
    (world.setCollector id (some { collector with
      removed := removed, phase := phase })).Tracks := by
  apply tracks.setCollector
  rintro _ ⟨⟩
  refine ⟨(tracks id collector held).selection, ?_⟩
  intro version pending
  rw [free] at pending
  cases pending

theorem unused_iff (tracks : collector.Tracks world.selection world.pins)
    (pending : collector.phase = .removing version) :
    Removal.Unused ⟨version, world.selection, world.pins, world.unfinished⟩ ↔
      collector.Undisturbed world := by
  have selection := tracks.selection
  obtain ⟨other, pinned⟩ := tracks.removing version
    (by simp [pending, Phase.removing?])
  have same : world.selection ≠ some version ↔
      collector.selected ≠ some version := by
    rw [selection]
    cases collector.selected <;> simp [other]
  simp only [Removal.Unused, same, Collector.Undisturbed, pending,
    Phase.removing?, Option.mem_some_iff, forall_eq', Finset.mem_inter,
    mem_pinsOf]
  constructor
  · rintro ⟨unselected, unpinned⟩
    refine ⟨unselected, ?_⟩
    rintro pin ⟨_, hpin, hversion⟩
    exact unpinned pin hpin hversion
  · rintro ⟨unselected, unpinned⟩
    refine ⟨unselected, ?_⟩
    intro pin hpin hversion
    exact unpinned pin ⟨pinned pin hpin hversion, hpin, hversion⟩

theorem keepsUsed_iff (same : next.removals = world.removals)
    (free : world.Undisturbed event) :
    next.KeepsUsed ↔ world.KeepsUsed ∧ world.Undisturbed event := by
  simp [KeepsUsed, same, free]

theorem keepsUsed_removeVersion (tracks : world.Tracks)
    (held : world.collectors id = some collector)
    (pending : collector.phase = .removing version) :
    (world.removeVersion id collector version).KeepsUsed ↔
      world.KeepsUsed ∧ world.Undisturbed (.remove id) := by
  simp only [KeepsUsed, removeVersion, setCollector, Undisturbed, held,
    List.mem_append, List.mem_singleton, Option.mem_some_iff, forall_eq']
  rw [← unused_iff (tracks id collector held) pending]
  constructor
  · intro unused
    exact ⟨fun removal old => unused removal (.inl old),
      unused _ (.inr rfl)⟩
  · rintro ⟨before, now⟩ removal (old | rfl)
    · exact before removal old
    · exact now

theorem step_sound (tracks : world.Tracks)
    (moved : world.step event = some next) :
    next.Tracks ∧
      (next.KeepsUsed ↔ world.KeepsUsed ∧ world.Undisturbed event) := by
  cases event with
  | stage | publish | reuse =>
      obtain ⟨_, ⟨⟩⟩ := Option.ite_none_right_eq_some.mp moved
      exact ⟨tracks, keepsUsed_iff rfl trivial⟩
  | select installer =>
      obtain ⟨version, _, rfl⟩ := Option.map_eq_some_iff.mp moved
      exact ⟨Tracks.selectVersion tracks, keepsUsed_iff rfl trivial⟩
  | abandon | createPins | finish =>
      cases moved
      exact ⟨tracks, keepsUsed_iff rfl trivial⟩
  | pin version execution =>
      obtain ⟨_, ⟨⟩⟩ := Option.ite_none_right_eq_some.mp moved
      exact ⟨tracks.addPin, keepsUsed_iff rfl trivial⟩
  | unpin version execution =>
      obtain ⟨_, ⟨⟩⟩ := Option.ite_none_left_eq_some.mp moved
      exact ⟨tracks.unpin, keepsUsed_iff rfl trivial⟩
  | collect id =>
      obtain ⟨_, ⟨⟩⟩ := Option.ite_none_right_eq_some.mp moved
      refine ⟨?_, keepsUsed_iff rfl trivial⟩
      apply tracks.setCollector
      rintro _ ⟨⟩
      exact begin_tracks
  | visit id name =>
      cases held : world.collectors id with
      | none => simp [step, held] at moved
      | some collector =>
          simp only [step, held] at moved
          obtain ⟨⟨listing, _⟩, ⟨⟩⟩ :=
            Option.ite_none_right_eq_some.mp moved
          unfold visitEntry
          split
          · refine ⟨tracks.visitVersion held, keepsUsed_iff ?_ trivial⟩
            unfold visitVersion
            split <;> rfl
          · refine ⟨?_, keepsUsed_iff rfl trivial⟩
            exact tracks.turn held (by simp [listing, Phase.removing?])
  | remove id =>
      cases held : world.collectors id with
      | none => simp [step, held] at moved
      | some collector =>
          cases hphase : collector.phase <;> simp [step, held, hphase] at moved
          obtain ⟨_, rfl⟩ := moved
          exact ⟨tracks.turn held rfl,
            keepsUsed_removeVersion tracks held hphase⟩
  | removePins id =>
      cases held : world.collectors id with
      | none => simp [step, held] at moved
      | some collector =>
          cases hphase : collector.phase <;>
            simp [step, held, hphase, clearPins] at moved
          obtain ⟨_, rfl⟩ := moved
          exact ⟨tracks.turn held rfl, keepsUsed_iff rfl trivial⟩
  | leave id =>
      cases moved
      exact ⟨tracks.setCollector nofun, keepsUsed_iff rfl trivial⟩

theorem Idle.tracks (idle : world.Idle) : world.Tracks := by
  intro id collector held
  rw [idle.collectors] at held
  cases held

/-- A run deletes no version directory in use exactly when every removal in it
is undisturbed. -/
theorem keepsUsed_iff_undisturbed {first last : World} {events : List Event}
    (idle : first.Idle) (executed : execute step first events = some last) :
    last.KeepsUsed ↔
      executeAdmitted step Undisturbed first events = some last := by
  apply executeAdmitted_iff (fun world event next => step_sound) executed
    idle.tracks
  simp [KeepsUsed, idle.removals]

/-- Version 2.0.0 is selected, version 1.0.0 is installed too. -/
def older : VersionName :=
  ⟨"1.0.0-0000000000000000000000000000000000000000000000000000000000000001",
    rfl⟩

def newer : VersionName :=
  ⟨"2.0.0-0000000000000000000000000000000000000000000000000000000000000002",
    rfl⟩

def twoVersions : World :=
  { selection := some newer, directories := {older.1, newer.1}
    pinDirectories := ∅, pins := ∅, unfinished := ∅
    installers := fun _ => none, collectors := fun _ => none, removals := [] }

/-- An execution of the selected version starts while the other is removed. -/
def collects : List Event :=
  [.collect 0, .createPins newer, .visit 0 older.1, .pin newer ⟨1⟩,
    .remove 0, .removePins 0, .visit 0 newer.1, .leave 0]

theorem keepsUsed_iff_undisturbed_collects :
    ∃ last, execute step twoVersions collects = some last ∧
      last.KeepsUsed := by
  have possible : (execute step twoVersions collects).isSome := rfl
  obtain ⟨last, executed⟩ := Option.isSome_iff_exists.mp possible
  refine ⟨last, executed, ?_⟩
  apply (keepsUsed_iff_undisturbed ⟨rfl, rfl⟩ executed).mpr
  rw [← executed]
  rfl

def rollsBack : List Event :=
  [.collect 0, .visit 0 older.1, .reuse 1 older, .select 1, .remove 0]

/-- The collector deletes the version that has become the selection. -/
theorem keepsUsed_fails :
    ¬∀ first last events, Idle first →
      execute step first events = some last → KeepsUsed last := by
  intro keeps
  have last := keeps twoVersions _ rollsBack ⟨rfl, rfl⟩ rfl
  have removal := last ⟨older, some older, ∅, ∅⟩ (List.Mem.head _)
  exact removal.1 rfl

end World

end Susm.Installer
