import OutOfOrder.Assembly.Operand
import OutOfOrder.Directory
import OutOfOrder.Word

/-!
# The register file

Registers hold words.  A register that a station is going to write carries that station's name as
its tag.  The register `R0` is always zero and never carries a tag.  Names outside the two banks are
registers as well, which hold zero until they are written.
-/

namespace OutOfOrder

/-- The register that is always zero. -/
def zeroRegister : String := "R0"

/-- The values of the registers, and the tags of those that wait for a station. -/
structure RegisterFile where
  values : Directory String Int
  tags : Directory String String

namespace RegisterFile

/-- The names of the two banks' registers. -/
def bankNames : List String :=
  ['R', 'F'].flatMap fun bank =>
    (List.range Assembly.bankSize).map (Assembly.registerName bank)

def initial : RegisterFile where
  values := ⟨bankNames.map (·, 0)⟩
  tags := {}

def read (file : RegisterFile) (name : String) : Int :=
  if name = zeroRegister then 0 else (file.values.get? name).getD 0

/-- Writes the low word of a value into a register. -/
def write (file : RegisterFile) (name : String) (value : Int) : RegisterFile :=
  if name = zeroRegister then file
  else { file with values := file.values.put name (Word.wrap value) }

def writeAll (file : RegisterFile) (contents : List (String × Int)) : RegisterFile :=
  contents.foldl (fun file (name, value) => file.write name value) file

/-- Names the station that is going to write a register, in place of any earlier one. -/
def setTag (file : RegisterFile) (name station : String) : RegisterFile :=
  if name = zeroRegister then file else { file with tags := file.tags.put name station }

/-- The station that is going to write a register. -/
def tag? (file : RegisterFile) (name : String) : Option String :=
  if name = zeroRegister then none else file.tags.get? name

/-- Clears the tag of a register if it still names the station. -/
def clearTag (file : RegisterFile) (name station : String) : RegisterFile :=
  if file.tags.get? name = some station then { file with tags := file.tags.erase name } else file

def nonzero (file : RegisterFile) : List (String × Int) :=
  file.values.entries.filter fun (name, value) => value ≠ 0 && name ≠ zeroRegister

def dump (file : RegisterFile) : List String :=
  let values := file.nonzero.map fun (name, value) => "    " ++ name ++ " = " ++ toString value
  let tags := file.tags.entries.map fun (name, station) => "    " ++ name ++ " -> " ++ station
  "RegisterFileModel State:" ::
    (if values.isEmpty then ["  Values: all zero"] else "  Values (non-zero):" :: values) ++
    (if tags.isEmpty then ["  Tags: all clear"] else "  Tags:" :: tags)

/-- A register reads as the word that was written last, and `R0` as zero. -/
theorem read_write (file : RegisterFile) (name other : String) (value : Int) :
    (file.write name value).read other =
      if other = name ∧ other ≠ zeroRegister then Word.wrap value else file.read other := by
  by_cases hname : name = zeroRegister
  · grind [write]
  · simp only [write, read, if_neg hname, Directory.get?_put]
    grind

end RegisterFile

end OutOfOrder
