import OutOfOrder.Machine.Cycle
import OutOfOrder.Report.Cell
import OutOfOrder.Text.Columns

/-!
# Reports

A snapshot holds what can be seen of a machine, and is printed as a table for every pool, the
registers that hold or await something, and the cache lines that hold a block.  An integer with too
many digits cannot be written, and where one would have to be there is no report.
-/

namespace OutOfOrder

/-- The lines of a table with the given columns.  A row without a cell for a column shows an empty
one there. -/
def formatTable (columns : List String) (rows : List Row) : List String :=
  Text.columns columns (rows.map fun row =>
    columns.map fun column => ((row.lookup column).getD .empty).display)

/-- What can be seen of a machine. -/
structure Snapshot where
  cycle : Int
  queue : List String
  issuedCount : Int
  /-- For each pool its key and a row for each of its stations. -/
  stations : List (String × List Row)
  registers : List (String × Int)
  tags : List (String × String)
  /-- A row for each cache line. -/
  lines : List Row
  hits : Int
  misses : Int

def stationColumns : List String :=
  ["name", "busy", "instruction", "vj", "vk", "qj", "qk", "remaining"]

def lineColumns : List String :=
  ["index", "tag", "base_address", "end_address", "data"]

def Station.row (station : Station) : Row :=
  [("name", .text station.name), ("busy", .flag station.busy),
    ("instruction", .ofText? (station.instruction?.map (·.display))),
    ("vj", .ofNumber? station.j.value?), ("vk", .ofNumber? station.k.value?),
    ("qj", .ofText? station.j.tag?), ("qk", .ofText? station.k.tag?),
    ("remaining", .number station.remaining)]

def lineRow (index : Nat) (view : Option LineView) : Row :=
  [("index", .number index), ("valid", .flag view.isSome),
    ("tag", .ofNumber? (view.map (·.block))),
    ("base_address", .ofNumber? (view.map (·.first))),
    ("end_address", .ofNumber? (view.map (·.last))),
    ("data", .ofText? (view.map (·.data)))]

def Machine.snapshot (m : Machine) : Snapshot where
  cycle := m.cycle
  queue := m.queue.map (·.instruction.display)
  issuedCount := m.issuedCount
  stations := Pool.busOrder.map fun pool => (pool.key, (m.bank.ofPool pool).map Station.row)
  registers := m.registers.values.entries
  tags := m.registers.tags.entries
  lines := m.cache.lineTable.map fun (index, view) => lineRow index view
  hits := m.cache.hits
  misses := m.cache.misses

def poolTitle (key : String) : String :=
  match key with
  | "add" => "Add stations"
  | "mul" => "Mul stations"
  | "int" => "Int stations"
  | "load_store" => "Load/store buffers"
  | other => other

/-- The line of a register.  A tag without a name is not shown. -/
def registerLine (tags : List (String × String)) (name : String) (value : Int) : String :=
  let tag := (tags.lookup name).getD ""
  "  " ++ Text.padRight 4 name ++ "= " ++ toString value ++
    (if tag.isEmpty then "" else "  <- " ++ tag)

/-- The registers, other than `R0`, that are not zero or carry a tag. -/
def shownRegisters (registers : List (String × Int)) (tags : List (String × String)) :
    List (String × Int) :=
  registers.filter fun (name, value) =>
    name ≠ zeroRegister && (value ≠ 0 || (tags.lookup name).isSome)

/-- The lines of the registers that are shown, or the remark that there are none. -/
def renderRegisters (registers : List (String × Int)) (tags : List (String × String)) :
    List String :=
  let shown := shownRegisters registers tags
  if shown.isEmpty then ["  (all zero, no pending tags)"]
  else shown.map fun (name, value) => registerLine tags name value

/-- The lines of a table as part of a report, or a remark if there are no rows. -/
def renderTable (columns : List String) (remark : String) (rows : List Row) : List String :=
  if rows.isEmpty then ["  (" ++ remark ++ ")"]
  else (formatTable columns rows).map ("  " ++ ·)

def renderProgress (snapshot : Snapshot) : List String :=
  let next := match snapshot.queue with
    | [] => ""
    | first :: _ => "  Next: " ++ first
  ["=== Cycle " ++ toString snapshot.cycle ++ " ===",
    s!"Issued: {snapshot.issuedCount}  Queue: {snapshot.queue.length}" ++ next]

namespace Snapshot

/-- The rows of the cache lines that hold a block. -/
def held (snapshot : Snapshot) : List Row :=
  snapshot.lines.filter fun row => (row.lookup "valid").any Cell.isTrue

/-- Every integer that the report shows has few enough digits to be written. -/
def isWritable (snapshot : Snapshot) : Bool :=
  [snapshot.cycle, snapshot.issuedCount, snapshot.hits, snapshot.misses].all Numeral.isWritable &&
    snapshot.stations.all (fun (_, rows) => rows.all (·.isWritable stationColumns)) &&
    (shownRegisters snapshot.registers snapshot.tags).all (Numeral.isWritable ·.2) &&
    snapshot.held.all (·.isWritable lineColumns)

/-- The lines of the report of a snapshot, or what keeps it from being printed. -/
def report (snapshot : Snapshot) : Except Obstacle (List String) :=
  if snapshot.isWritable then
    .ok (renderProgress snapshot ++
      snapshot.stations.flatMap (fun (key, rows) =>
        "" :: (poolTitle key ++ ":") :: renderTable stationColumns "none" rows) ++
      "" :: "Registers:" :: renderRegisters snapshot.registers snapshot.tags ++
      "" :: s!"Cache: hits={snapshot.hits} misses={snapshot.misses}" ::
        renderTable lineColumns "no valid lines" snapshot.held)
  else .error .unwritable

end Snapshot

end OutOfOrder
