import RealmDirectory.Config.Realm
import RealmDirectory.Directory.DataSource

/-!
# The registry of realms

The registry knows the realms by their identifiers and runs them on demand. A realm that
runs has an instance: its statements and a data source of its own. The instance lives in
the cell of a slot, which is filled once, by the first call that needs it, while others
wait; when filling fails, the next call tries again. Configuring a realm afresh puts a new
slot, filled already, in place of the old one and closes the data source of the old one.

Calls on the registry take several steps, and the steps of different calls can alternate
in any order. A step is one access to the realms, to the slots or to a cell, or the whole
opening of an instance. What the databases say in a step comes from outside. A call that
runs alone takes its steps one after the other.

## Main definitions

* `Registry`: the realms, the slots, the cells and the data sources.
* `Registry.Call`, `Registry.Call.step`: a call between two steps, and its next step.
* `Registry.getOrConfigure`, `Registry.reconfigure`, `Registry.close`: whole calls.
-/

namespace RealmDirectory

/-- A realm that runs: its configuration, its statements, and the number of its data
source. -/
structure Instance where
  realm : RealmConfig
  queries : TemplateSet
  source : Nat

/-- A place for an instance. -/
inductive Cell where
  | empty
  /-- A call is filling it, and others wait. -/
  | reserved
  | filled (running : Instance)

/-- The instance of a cell, once it is filled. -/
def Cell.instance? : Cell → Option Instance
  | filled i => some i
  | _ => none

/-- The realms and what runs. -/
structure Registry where
  /-- The configurations by identifier. -/
  realms : KeyedList String RealmConfig
  /-- The slots of realms that were asked for; a slot is the number of its cell. -/
  slots : KeyedList String Nat := .empty
  /-- The cells by number. -/
  cells : List Cell := []
  /-- The data sources that were opened, by number. -/
  sources : List DataSource := []
  /-- The data sources that were handed to a close, by number. -/
  retired : List Nat := []

namespace Registry

/-! ### Parts -/

/-- A registry of configured realms, none of which runs. Of realms with one identifier,
the last one counts. -/
def ofRealms (realms : List RealmConfig) : Registry where
  realms := KeyedList.ofList (realms.map fun r => (r.id, r))

/-- The identifiers of the realms in ascending order. -/
def realmIds (r : Registry) : List String := r.realms.keys.mergeSort fun a b => a ≤ b

/-- A realm that is not known. -/
def unknown (id : String) : Failure := .notFound ("Unknown realm: " ++ id)

/-- The cell with a number. -/
def cell (r : Registry) (slot : Nat) : Cell := r.cells.getD slot .empty

/-- Puts a cell in the place of the one with its number. -/
def setCell (r : Registry) (slot : Nat) (c : Cell) : Registry :=
  { r with cells := r.cells.set slot c }

/-- Adds a slot for a realm with a cell, in place of one that the realm has. -/
def addSlot (r : Registry) (id : String) (c : Cell) : Registry :=
  { r with slots := r.slots.insert id r.cells.length, cells := r.cells ++ [c] }

/-- The data source with a number. -/
def source (r : Registry) (number : Nat) : DataSource := r.sources.getD number {}

/-- Puts a data source in the place of the one with its number. -/
def setSource (r : Registry) (number : Nat) (s : DataSource) : Registry :=
  { r with sources := r.sources.set number s }

/-- Hands a data source to a close. -/
def retire (r : Registry) (number : Nat) : Registry :=
  { r.setSource number (r.source number).close with retired := r.retired ++ [number] }

/-- Hands the data source of the instance in a slot to a close, when there is one. -/
def retireSlot (r : Registry) (slot : Nat) : Registry :=
  match (r.cell slot).instance? with
  | some i => r.retire i.source
  | none => r

/-- Opens an instance of a realm: its statements are prepared, and a new data source is
configured with its database. -/
def openInstance (reply : Backend → Reply) (realm : RealmConfig) (r : Registry) :
    Except Failure Instance × Registry :=
  match realm.templateSet with
  | .error f => (.error f, r)
  | .ok queries =>
      let backend := realm.backend
      match ({} : DataSource).configure (reply backend) backend with
      | (.error f, _) => (.error f, r)
      | (.ok (), s) =>
          (.ok ⟨realm, queries, r.sources.length⟩, { r with sources := r.sources ++ [s] })

/-! ### Steps -/

/-- A call between two of its steps. -/
inductive Call where
  /-- Looks for the slot of a realm next. -/
  | finding (id : String)
  /-- Has found no slot, and looks next whether the realm is known. -/
  | knowing (id : String)
  /-- Takes the slot of a known realm next, or makes it. -/
  | claiming (id : String)
  /-- Looks into the cell of a slot next. -/
  | entering (id : String) (slot : Nat)
  /-- Has reserved the cell, and looks up the configuration next. -/
  | reading (id : String) (slot : Nat)
  /-- Opens an instance for the cell next. -/
  | opening (slot : Nat) (realm : RealmConfig)
  /-- Fills the cell next. -/
  | filling (slot : Nat) (running : Instance)
  /-- Opens an instance of a new configuration next. -/
  | validating (realm : RealmConfig)
  /-- Stores the new configuration next. -/
  | storing (running : Instance)
  /-- Puts the new slot in place next. -/
  | replacing (running : Instance)
  /-- Looks into the cell of the old slot next, to close what is in it. -/
  | retiring (running : Instance) (old : Nat)
  /-- Is over, with an instance unless it failed. -/
  | returned (result : Except Failure Instance)
  /-- Takes all slots away next. -/
  | draining
  /-- Looks into the cells of slots that were taken away, one after the other. -/
  | releasing (slots : List Nat)

/-- A call gives up its reservation of a cell. -/
def giveUp (r : Registry) (slot : Nat) (f : Failure) : Call × Registry :=
  (.returned (.error f), r.setCell slot .empty)

/-- The next step of a call. A call that is over takes none, and neither does one that
waits for a reserved cell. -/
def Call.step (reply : Backend → Reply) (r : Registry) : Call → Call × Registry
  | finding id =>
      match r.slots.get? id with
      | some slot => (entering id slot, r)
      | none => (knowing id, r)
  | knowing id =>
      if r.realms.contains id then (claiming id, r)
      else (returned (.error (unknown id)), r)
  | claiming id =>
      match r.slots.get? id with
      | some slot => (entering id slot, r)
      | none => (entering id r.cells.length, r.addSlot id .empty)
  | entering id slot =>
      match r.cell slot with
      | .filled i => (returned (.ok i), r)
      | .reserved => (entering id slot, r)
      | .empty => (reading id slot, r.setCell slot .reserved)
  | reading id slot =>
      match r.realms.get? id with
      | some realm => (opening slot realm, r)
      | none => r.giveUp slot (unknown id)
  | opening slot realm =>
      match r.openInstance reply realm with
      | (.ok i, r) => (filling slot i, r)
      | (.error f, r) => r.giveUp slot f
  | filling slot i => (returned (.ok i), r.setCell slot (.filled i))
  | validating realm =>
      match realm.check with
      | .error f => (returned (.error f), r)
      | .ok () =>
          match r.openInstance reply realm with
          | (.ok i, r) => (storing i, r)
          | (.error f, r) => (returned (.error f), r)
  | storing i => (replacing i, { r with realms := r.realms.insert i.realm.id i.realm })
  | replacing i =>
      match r.slots.get? i.realm.id with
      | some old => (retiring i old, r.addSlot i.realm.id (.filled i))
      | none => (returned (.ok i), r.addSlot i.realm.id (.filled i))
  | retiring i old => (returned (.ok i), r.retireSlot old)
  | draining => (releasing (r.slots.entries.map Prod.snd), { r with slots := .empty })
  | releasing (slot :: slots) => (releasing slots, r.retireSlot slot)
  | releasing [] => (releasing [], r)
  | returned result => (returned result, r)

/-- At most `fuel` steps of a call that runs alone. -/
def Call.run (reply : Backend → Reply) : Nat → Call → Registry → Call × Registry
  | 0, c, r => (c, r)
  | fuel + 1, c, r =>
      let (c, r) := c.step reply r
      Call.run reply fuel c r

/-- A call that is over stays as it is. -/
theorem Call.run_returned (reply : Backend → Reply) (result : Except Failure Instance) (n : Nat)
    (r : Registry) : (returned result).run reply n r = (returned result, r) := by
  induction n with
  | zero => rfl
  | succ n ih => simp only [run, step, ih]

/-- The instance that a call returned, unless it failed. -/
def Call.result : Call → Except Failure Instance
  | returned result => result
  | _ => .error (.unavailable "The realm is being configured")

/-- The steps that a call alone takes before it has looked into the slots' cells. -/
def maxSteps : Nat := 7

/-! ### Whole calls -/

/-- The instance of a realm, which starts to run if it does not yet. -/
def getOrConfigure (reply : Backend → Reply) (id : String) (r : Registry) :
    Except Failure Instance × Registry :=
  let (c, r) := (Call.finding id).run reply maxSteps r
  (c.result, r)

/-- Stores a configuration and runs it in place of what the realm runs now. -/
def reconfigure (reply : Backend → Reply) (realm : RealmConfig) (r : Registry) :
    Except Failure Instance × Registry :=
  let (c, r) := (Call.validating realm).run reply maxSteps r
  (c.result, r)

/-- Closes the data source of every realm that runs. Every realm can start again. -/
def close (reply : Backend → Reply) (r : Registry) : Registry :=
  (Call.draining.run reply (1 + r.slots.size) r).2

/-! ### Calls in any order -/

/-- A registry and the calls on it. -/
structure Run where
  registry : Registry
  calls : List Call

/-- What happens next: a call starts, or one takes a step. -/
inductive Event where
  | gets (id : String)
  | reconfigures (realm : RealmConfig)
  | closes
  | steps (call : Nat) (reply : Backend → Reply)

/-- What an event does. -/
def Run.next (r : Run) : Event → Run
  | .gets id => { r with calls := r.calls ++ [.finding id] }
  | .reconfigures realm => { r with calls := r.calls ++ [.validating realm] }
  | .closes => { r with calls := r.calls ++ [.draining] }
  | .steps i reply =>
      match r.calls[i]? with
      | none => r
      | some c =>
          let (c, registry) := c.step reply r.registry
          ⟨registry, r.calls.set i c⟩

/-- What a list of events does to a registry on which nothing was called. -/
def Run.of (realms : List RealmConfig) (events : List Event) : Run :=
  events.foldl Run.next ⟨ofRealms realms, []⟩

end Registry

end RealmDirectory
