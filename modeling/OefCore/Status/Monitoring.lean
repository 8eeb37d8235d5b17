import Mathlib.Data.Finset.Sort
import Mathlib.Data.String.Basic
import OefCore.CppUtils.BucketsOf
import OefCore.Status.PrometheusNames

/-
  The values that the core counts, the objects that count
  them, and the file in which they are published.

  Main declarations:
    * `Monitoring`, `MonitoringCall`
    * `prometheusReport`
    * `Meters`, `Board`
    * `Meters.shown_run`
-/

namespace OefCore

------------------------------------------------------------
-- Monitoring
------------------------------------------------------------

/- The buckets, and the keys of their map in its order. -/
structure Monitoring where
  inner : BucketsOf UInt64 String 256
  names : List String

namespace Monitoring

def construct : Monitoring where
  inner := BucketsOf.construct
  names := []

def find
    (mon : Monitoring)
    (name : String) : Nat × Monitoring :=
  let got := mon.inner.get name
  (got.1,
    { inner := got.2,
      names :=
        match mon.inner.names name with
        | some _ => mon.names
        | none => mon.names.orderedInsert (· ≤ ·) name })

def get
    (mon : Monitoring)
    (id : Nat) : UInt64 :=
  mon.inner.access id

def add
    (mon : Monitoring)
    (id : Nat)
    (delta : UInt64) : Monitoring :=
  { mon with
    inner := mon.inner.store id (mon.inner.access id + delta) }

def sub
    (mon : Monitoring)
    (id : Nat)
    (delta : UInt64) : Monitoring :=
  { mon with
    inner := mon.inner.store id (mon.inner.access id - delta) }

def set
    (mon : Monitoring)
    (id : Nat)
    (delta : UInt64) : Monitoring :=
  { mon with inner := mon.inner.store id delta }

/- It does nothing. -/
def max
    (mon : Monitoring)
    (_id : Nat)
    (_value : UInt64) : Monitoring :=
  mon

def getNames (mon : Monitoring) : List (String × Nat) :=
  mon.names.filterMap fun name =>
    (mon.inner.names name).map (name, ·)

/- What the function that reports is called with. -/
def report (mon : Monitoring) : List (String × UInt64) :=
  mon.getNames.map fun name2id =>
    (name2id.1, mon.inner.access name2id.2)

end Monitoring

/- What the operators of counters and gauges come down to. -/
inductive MonitoringCall where
  | add (delta : UInt64)
  | sub (delta : UInt64)
  | set (delta : UInt64)
  | max (value : UInt64)
deriving DecidableEq, Repr

namespace MonitoringCall

def apply
    (mon : Monitoring)
    (id : Nat) : MonitoringCall → Monitoring
  | add delta => mon.add id delta
  | sub delta => mon.sub id delta
  | set delta => mon.set id delta
  | max value => mon.max id value

end MonitoringCall

------------------------------------------------------------
-- The File
------------------------------------------------------------

/- The names of series that were made before. -/
abbrev SeriesNames := List (String × String)

def prometheusName
    (made : SeriesNames)
    (name : String) : String × SeriesNames :=
  match made.lookup name with
  | some series => (series, made)
  | none =>
      let series := prometheusUpThatNamingString name
      (series, (name, series) :: made)

/- The lines for a value whose series has a name already. -/
def prometheusLines
    (series : String)
    (value : UInt64) : List String :=
  if PrometheusNames.IsGauge series then
    ["# TYPE " ++ series ++ " gauge",
      series ++ " " ++ toString value]
  else
    ["# TYPE " ++ series ++ "_total counter",
      series ++ "_total " ++ toString value]

def prometheusReport
    (made : SeriesNames) :
    List (String × UInt64) → List String × SeriesNames
  | [] => ([], made)
  | (name, value) :: rest =>
      let named := prometheusName made name
      let others := prometheusReport named.2 rest
      (prometheusLines named.1 value ++ others.1, others.2)

------------------------------------------------------------
-- Meters
------------------------------------------------------------

/-
  What happens: a counter or gauge is constructed, copied,
  assigned from another one or used, or the loop of the core
  comes to its file, where the temporary file may not open and
  the final one may not be replaced.
-/
inductive MeterEvent where
  | construct (name : String)
  | copy (other : Nat)
  | assign (meter other : Nat)
  | call (meter : Nat) (call : MonitoringCall)
  | log (opened renamed : Bool)
deriving DecidableEq, Repr

/- The identities that the counters and gauges hold, and the
   lines of the final file. -/
structure Meters where
  mon : Monitoring
  ids : List Nat
  prometheusNames : SeriesNames
  finalFile : List String

namespace Meters

def init : Meters where
  mon := Monitoring.construct
  ids := []
  prometheusNames := []
  finalFile := []

def step (m : Meters) : MeterEvent → Meters
  | .construct name =>
      let found := m.mon.find name
      { m with mon := found.2, ids := m.ids ++ [found.1] }
  | .copy other =>
      match m.ids[other]? with
      | some id => { m with ids := m.ids ++ [id] }
      | none => m
  | .assign meter other =>
      match m.ids[other]? with
      | some id => { m with ids := m.ids.set meter id }
      | none => m
  | .call meter call =>
      match m.ids[meter]? with
      | some id => { m with mon := call.apply m.mon id }
      | none => m
  | .log opened renamed =>
      if opened then
        let text :=
          prometheusReport m.prometheusNames m.mon.report
        { m with
          prometheusNames := text.2,
          finalFile := if renamed then text.1 else m.finalFile }
      else
        m

def run (events : List MeterEvent) : Meters :=
  events.foldl step init

/- What the counters and gauges say. -/
def values (m : Meters) : List UInt64 :=
  m.ids.map m.mon.get

end Meters

------------------------------------------------------------
-- The Board
------------------------------------------------------------

/-
  What the counters and gauges are for: each name has a value,
  and each counter or gauge is one for a name.
-/
structure Board where
  seen : Finset String
  value : String → UInt64
  meters : List String
  file : List String

namespace Board

def init : Board where
  seen := ∅
  value := fun _ => 0
  meters := []
  file := []

/- The value after a call. -/
def called
    (value : UInt64) : MonitoringCall → UInt64
  | .add delta => value + delta
  | .sub delta => value - delta
  | .set delta => delta
  | .max _ => value

/- Every name once, in their order, with its value. -/
def report (b : Board) : List (String × UInt64) :=
  b.seen.sort.map fun name => (name, b.value name)

/- The lines for all values. -/
def text (b : Board) : List String :=
  b.report.flatMap fun entry =>
    prometheusLines (prometheusUpThatNamingString entry.1)
      entry.2

def step (b : Board) : MeterEvent → Board
  | .construct name =>
      { b with
        seen := insert name b.seen,
        meters := b.meters ++ [name] }
  | .copy other =>
      { b with meters := b.meters ++ b.meters[other]?.toList }
  | .assign meter other =>
      match b.meters[other]? with
      | some name =>
          { b with meters := b.meters.set meter name }
      | none => b
  | .call meter call =>
      match b.meters[meter]? with
      | some name =>
          { b with
            value :=
              Function.update b.value name
                (called (b.value name) call) }
      | none => b
  | .log opened renamed =>
      if opened ∧ renamed then { b with file := b.text } else b

def run (events : List MeterEvent) : Board :=
  events.foldl step init

end Board

------------------------------------------------------------
-- Names and Their Values
------------------------------------------------------------

namespace Monitoring

/- The identities that are handed out are for the names that
   were seen, and their values are the ones of the names. -/
structure Holds
    (mon : Monitoring)
    (seen : Finset String)
    (value : String → UInt64) : Prop where
  regular : mon.inner.Regular
  known : ∀ name, mon.inner.names name ≠ none ↔ name ∈ seen
  listed : mon.names = seen.sort
  valued : ∀ name id, mon.inner.names name = some id →
    mon.inner.access id = value name
  fresh : ∀ name, name ∉ seen → value name = 0

theorem holds_construct :
    construct.Holds ∅ fun _ => 0 where
  regular := BucketsOf.regular_construct
  known := by simp [construct, BucketsOf.construct]
  listed := by simp [construct]
  valued := by simp [construct, BucketsOf.construct]
  fresh := by simp

section Holds

variable
  {mon : Monitoring}
  {seen : Finset String}
  {value : String → UInt64}

theorem Holds.exists_id
    (hHolds : mon.Holds seen value)
    {name : String}
    (hSeen : name ∈ seen) :
    ∃ id, mon.inner.names name = some id :=
  Option.ne_none_iff_exists'.mp ((hHolds.known name).mpr hSeen)

/- A key that is inserted goes to its place in the order. -/
theorem sort_insert_of_notMem
    {name : String}
    (hNew : name ∉ seen) :
    seen.sort.orderedInsert (· ≤ ·) name =
      (insert name seen).sort := by
  have hPerm :=
    List.perm_orderedInsert (· ≤ ·) name seen.sort
  have hNodup :
      (seen.sort.orderedInsert (· ≤ ·) name).Nodup := by
    rw [hPerm.nodup_iff, List.nodup_cons]
    exact ⟨by simpa using hNew, seen.sort_nodup _⟩
  have hSorted :
      (seen.sort.orderedInsert (· ≤ ·) name).Pairwise
        (· ≤ ·) :=
    (seen.pairwise_sort (· ≤ ·)).orderedInsert name _
  have hSame :
      (seen.sort.orderedInsert (· ≤ ·) name).toFinset =
        insert name seen := by
    rw [List.toFinset_eq_of_perm _ _ hPerm]
    simp
  rw [← hSame]
  exact ((List.toFinset_sort (· ≤ ·) hNodup).mpr hSorted).symm

theorem Holds.find_known
    (hHolds : mon.Holds seen value)
    {name : String}
    {id : Nat}
    (hKnown : mon.inner.names name = some id) :
    (mon.find name).2.Holds (insert name seen) value := by
  have hSeen : name ∈ seen := by
    rw [← hHolds.known, hKnown]
    exact Option.some_ne_none id
  have hSame : (mon.find name).2 = mon := by
    simp [find, BucketsOf.get_of_known hKnown, hKnown]
  rw [hSame, Finset.insert_eq_of_mem hSeen]
  exact hHolds

/- What was never handed out has its first value yet. -/
theorem Holds.find_new
    (hHolds : mon.Holds seen value)
    {name : String}
    (hNew : mon.inner.names name = none) :
    (mon.find name).2.Holds (insert name seen) value := by
  have hUnseen : name ∉ seen := by
    rw [← hHolds.known name]
    exact fun hKnown => hKnown hNew
  obtain ⟨-, hNames, -⟩ := BucketsOf.get_of_new hNew
  constructor
  · exact hHolds.regular.get (by decide) name
  · intro other
    change (mon.inner.get name).2.names other ≠ none ↔ _
    rw [hNames]
    by_cases hOther : other = name
    · simp [hOther]
    · simpa [hOther] using hHolds.known other
  · have hListed :
        (mon.find name).2.names =
          mon.names.orderedInsert (· ≤ ·) name := by
      simp [find, hNew]
    rw [hListed, hHolds.listed, sort_insert_of_notMem hUnseen]
  · intro other id hId
    change (mon.inner.get name).2.names other = some id at hId
    change (mon.inner.get name).2.access id = value other
    rw [BucketsOf.access_get]
    rw [hNames] at hId
    by_cases hOther : other = name
    · rw [hOther, Function.update_self, Option.some.injEq]
        at hId
      rw [hOther, hHolds.fresh name hUnseen, ← hId]
      exact hHolds.regular.untouched _ (Nat.le_refl _)
    · rw [Function.update_of_ne hOther] at hId
      exact hHolds.valued other id hId
  · intro other hOther
    apply hHolds.fresh
    exact fun hSeen =>
      hOther (Finset.mem_insert_of_mem hSeen)

theorem Holds.find
    (hHolds : mon.Holds seen value)
    (name : String) :
    (mon.find name).2.Holds (insert name seen) value := by
  cases hName : mon.inner.names name with
  | some id => exact hHolds.find_known hName
  | none => exact hHolds.find_new hName

/- Who writes to the value of a name writes to no other. -/
theorem Holds.store
    (hHolds : mon.Holds seen value)
    {name : String}
    {id : Nat}
    (hName : mon.inner.names name = some id)
    (written : UInt64) :
    { mon with inner := mon.inner.store id written }.Holds seen
      (Function.update value name written) := by
  have hId := hHolds.regular.numbered name id hName
  constructor
  · exact hHolds.regular.store hId written
  · exact hHolds.known
  · exact hHolds.listed
  · intro other otherId hOther
    change mon.inner.names other = some otherId at hOther
    by_cases hSame : other = name
    · rw [hSame, hName, Option.some.injEq] at hOther
      rw [hSame, Function.update_self, ← hOther]
      exact BucketsOf.access_store_self
        (hHolds.regular.hasSlot hId) written
    · have hApart : otherId ≠ id := by
        intro hBoth
        rw [hBoth] at hOther
        exact hSame
          (hHolds.regular.distinct other name id hOther hName)
      rw [Function.update_of_ne hSame,
        BucketsOf.access_store_of_ne mon.inner hApart]
      exact hHolds.valued other otherId hOther
  · intro other hOther
    have hSame : other ≠ name := by
      intro hSame
      rw [← hHolds.known, hSame, hName] at hOther
      exact hOther (Option.some_ne_none id)
    rw [Function.update_of_ne hSame]
    exact hHolds.fresh other hOther

theorem Holds.apply
    (hHolds : mon.Holds seen value)
    {name : String}
    {id : Nat}
    (hName : mon.inner.names name = some id)
    (call : MonitoringCall) :
    (call.apply mon id).Holds seen
      (Function.update value name
        (Board.called (value name) call)) := by
  have hValue := hHolds.valued name id hName
  cases call with
  | add delta =>
      rw [Board.called, ← hValue]
      exact hHolds.store hName (mon.inner.access id + delta)
  | sub delta =>
      rw [Board.called, ← hValue]
      exact hHolds.store hName (mon.inner.access id - delta)
  | set delta => exact hHolds.store hName delta
  | max other =>
      rw [Board.called, Function.update_eq_self]
      exact hHolds

theorem Holds.report
    (hHolds : mon.Holds seen value) :
    mon.report =
      seen.sort.map fun name => (name, value name) := by
  have hEntries : ∀ names : List String,
      (∀ name ∈ names, name ∈ seen) →
        (names.filterMap fun name =>
          (mon.inner.names name).map (name, ·)).map
            (fun name2id =>
              (name2id.1, mon.inner.access name2id.2)) =
          names.map fun name => (name, value name) := by
    intro names hNames
    induction names with
    | nil => rfl
    | cons name names ih =>
        obtain ⟨id, hId⟩ :=
          hHolds.exists_id (hNames name List.mem_cons_self)
        have hRest := ih fun other hOther =>
          hNames other (List.mem_cons_of_mem name hOther)
        simpa [hId, hHolds.valued name id hId] using hRest
  rw [Monitoring.report, getNames, hHolds.listed]
  exact hEntries _ fun name hName =>
    (Finset.mem_sort (· ≤ ·)).mp hName

end Holds

end Monitoring

------------------------------------------------------------
-- Names of Series
------------------------------------------------------------

/- The names that are kept are those that would be made. -/
def MadeRight (made : SeriesNames) : Prop :=
  ∀ name series, made.lookup name = some series →
    series = prometheusUpThatNamingString name

theorem MadeRight.name
    {made : SeriesNames}
    (hMade : MadeRight made)
    (name : String) :
    (prometheusName made name).1 =
        prometheusUpThatNamingString name ∧
      MadeRight (prometheusName made name).2 := by
  unfold prometheusName
  cases hName : made.lookup name with
  | some series => exact ⟨hMade name series hName, hMade⟩
  | none =>
      refine ⟨rfl, fun other series hOther => ?_⟩
      rw [List.lookup_cons] at hOther
      split at hOther
      · next hSame =>
          rw [eq_of_beq hSame]
          exact (Option.some.inj hOther).symm
      · exact hMade other series hOther

theorem MadeRight.report
    {made : SeriesNames}
    (hMade : MadeRight made)
    (entries : List (String × UInt64)) :
    (prometheusReport made entries).1 =
        entries.flatMap (fun entry =>
          prometheusLines
            (prometheusUpThatNamingString entry.1) entry.2) ∧
      MadeRight (prometheusReport made entries).2 := by
  induction entries generalizing made with
  | nil => exact ⟨rfl, hMade⟩
  | cons entry entries ih =>
      obtain ⟨hName, hNext⟩ := hMade.name entry.1
      obtain ⟨hLines, hLast⟩ := ih hNext
      refine ⟨?_, hLast⟩
      rw [prometheusReport, hLines, hName, List.flatMap_cons]

------------------------------------------------------------
-- Runs
------------------------------------------------------------

namespace Meters

/- The board shows what the meters hold. -/
structure ShownBy
    (m : Meters)
    (b : Board) : Prop where
  holds : m.mon.Holds b.seen b.value
  ids_eq : m.ids.map some = b.meters.map m.mon.inner.names
  made : MadeRight m.prometheusNames
  file_eq : m.finalFile = b.file

theorem shown_init : init.ShownBy Board.init where
  holds := Monitoring.holds_construct
  ids_eq := rfl
  made := by simp [MadeRight, init]
  file_eq := rfl

section ShownBy

variable
  {m : Meters}
  {b : Board}

attribute [local simp] Meters.step Board.step

/- A counter or gauge is one for the name whose identity it
   holds. -/
theorem ShownBy.meter
    (hShown : m.ShownBy b)
    (meter : Nat) :
    m.ids[meter]?.map some =
      b.meters[meter]?.map m.mon.inner.names := by
  rw [← List.getElem?_map, ← List.getElem?_map, hShown.ids_eq]

theorem ShownBy.meter_some
    (hShown : m.ShownBy b)
    {meter id : Nat}
    (hId : m.ids[meter]? = some id) :
    ∃ name, b.meters[meter]? = some name ∧
      m.mon.inner.names name = some id := by
  have hMeter := hShown.meter meter
  rw [hId, Option.map_some] at hMeter
  exact Option.map_eq_some_iff.mp hMeter.symm

theorem ShownBy.meter_none
    (hShown : m.ShownBy b)
    {meter : Nat}
    (hId : m.ids[meter]? = none) :
    b.meters[meter]? = none := by
  have hMeter := hShown.meter meter
  rw [hId, Option.map_none] at hMeter
  exact Option.map_eq_none_iff.mp hMeter.symm

theorem ShownBy.construct
    (hShown : m.ShownBy b)
    (name : String) :
    (m.step (.construct name)).ShownBy
      (b.step (.construct name)) where
  holds := hShown.holds.find name
  ids_eq := by
    have hOld : ∀ other ∈ b.meters,
        (m.mon.inner.get name).2.names other =
          m.mon.inner.names other := by
      intro other hOther
      have hKnown : m.mon.inner.names other ∈
          m.ids.map some := by
        rw [hShown.ids_eq]
        exact List.mem_map_of_mem hOther
      obtain ⟨id, -, hId⟩ := List.mem_map.mp hKnown
      rw [← hId, BucketsOf.names_get_of_known name hId.symm]
    have hIds := hShown.ids_eq
    simp only [step, Board.step, List.map_append]
    rw [hIds, ← List.map_congr_left hOld]
    simp [Monitoring.find, BucketsOf.names_get]
  made := hShown.made
  file_eq := hShown.file_eq

theorem ShownBy.copy
    (hShown : m.ShownBy b)
    (other : Nat) :
    (m.step (.copy other)).ShownBy (b.step (.copy other)) := by
  cases hId : m.ids[other]? with
  | none =>
      have hNone := hShown.meter_none hId
      simpa [hId, hNone] using hShown
  | some id =>
      obtain ⟨name, hName, hNamed⟩ := hShown.meter_some hId
      simp only [Meters.step, Board.step, hId, hName]
      refine ⟨hShown.holds, ?_, hShown.made, hShown.file_eq⟩
      simp [hShown.ids_eq, hNamed]

theorem ShownBy.assign
    (hShown : m.ShownBy b)
    (meter other : Nat) :
    (m.step (.assign meter other)).ShownBy
      (b.step (.assign meter other)) := by
  cases hId : m.ids[other]? with
  | none =>
      have hNone := hShown.meter_none hId
      simpa [hId, hNone] using hShown
  | some id =>
      obtain ⟨name, hName, hNamed⟩ := hShown.meter_some hId
      simp only [Meters.step, Board.step, hId, hName]
      refine ⟨hShown.holds, ?_, hShown.made, hShown.file_eq⟩
      simp [List.map_set, hShown.ids_eq, hNamed]

theorem ShownBy.call
    (hShown : m.ShownBy b)
    (meter : Nat)
    (call : MonitoringCall) :
    (m.step (.call meter call)).ShownBy
      (b.step (.call meter call)) := by
  cases hId : m.ids[meter]? with
  | none =>
      have hNone := hShown.meter_none hId
      simpa [hId, hNone] using hShown
  | some id =>
      obtain ⟨name, hName, hNamed⟩ := hShown.meter_some hId
      simp only [Meters.step, Board.step, hId, hName]
      refine ⟨hShown.holds.apply hNamed call, ?_, hShown.made,
        hShown.file_eq⟩
      cases call with
      | add _ | sub _ | set _ | max _ => exact hShown.ids_eq

theorem ShownBy.log
    (hShown : m.ShownBy b)
    (opened renamed : Bool) :
    (m.step (.log opened renamed)).ShownBy
      (b.step (.log opened renamed)) := by
  obtain ⟨hText, hMade⟩ := hShown.made.report m.mon.report
  have hReport : m.mon.report = b.report :=
    hShown.holds.report
  rw [hReport] at hText hMade
  cases opened with
  | false => simpa using hShown
  | true =>
      simp only [step, Board.step, hReport]
      refine ⟨?_, ?_, hMade, ?_⟩
      · cases renamed <;> exact hShown.holds
      · cases renamed <;> exact hShown.ids_eq
      · cases renamed with
        | false => simpa using hShown.file_eq
        | true => simpa [Board.text] using hText

theorem ShownBy.step
    (hShown : m.ShownBy b)
    (event : MeterEvent) :
    (m.step event).ShownBy (b.step event) := by
  cases event with
  | construct name => exact hShown.construct name
  | copy other => exact hShown.copy other
  | assign meter other => exact hShown.assign meter other
  | call meter call => exact hShown.call meter call
  | log opened renamed => exact hShown.log opened renamed

theorem ShownBy.foldl
    (hShown : m.ShownBy b)
    (events : List MeterEvent) :
    (events.foldl Meters.step m).ShownBy
      (events.foldl Board.step b) := by
  induction events generalizing m b with
  | nil => exact hShown
  | cons event events ih => exact ih (hShown.step event)

theorem ShownBy.values_eq
    (hShown : m.ShownBy b) :
    m.values = b.meters.map b.value := by
  apply List.ext_getElem?
  intro meter
  rw [values, List.getElem?_map, List.getElem?_map]
  cases hId : m.ids[meter]? with
  | none => rw [hShown.meter_none hId, Option.map_none,
      Option.map_none]
  | some id =>
      obtain ⟨name, hName, hNamed⟩ := hShown.meter_some hId
      rw [hName, Option.map_some, Option.map_some,
        ← hShown.holds.valued name id hNamed]
      rfl

end ShownBy

/-
  Whatever is constructed, copied, assigned and counted: the
  report has every name once with what its own counters and
  gauges made of its value, each of them reads that value, and
  the file shows what was reported when it was last replaced.
-/
theorem shown_run (events : List MeterEvent) :
    (run events).mon.report = (Board.run events).report ∧
      (run events).values =
        (Board.run events).meters.map
          (Board.run events).value ∧
      (run events).finalFile = (Board.run events).file := by
  have hShown : (run events).ShownBy (Board.run events) :=
    shown_init.foldl events
  exact ⟨hShown.holds.report, hShown.values_eq,
    hShown.file_eq⟩

end Meters

end OefCore
