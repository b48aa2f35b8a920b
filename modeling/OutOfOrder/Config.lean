import OutOfOrder.Isa.Opcode
import OutOfOrder.Text.Decimal
import OutOfOrder.Text.Quoted

/-!
# Machine parameters

A machine is described by latencies, the geometry and timing of its cache, and the sizes of its
station pools.  Parameters arrive as settings of any kind; a configuration holds them once they are
known to be natural numbers and the block size to be positive.
-/

namespace OutOfOrder

inductive Parameter where
  | addLatency
  | mulLatency
  | divLatency
  | loadLatency
  | storeLatency
  | intLatency
  | cacheSizeBytes
  | blockSizeBytes
  | cacheHitLatency
  | cacheMissPenalty
  | numAddStations
  | numMulStations
  | numIntStations
  | numLoadBuffers
  deriving DecidableEq, Repr

namespace Parameter

/-- Every parameter, in the order in which they are checked. -/
def all : List Parameter :=
  [.addLatency, .mulLatency, .divLatency, .loadLatency, .storeLatency, .intLatency,
    .cacheSizeBytes, .blockSizeBytes, .cacheHitLatency, .cacheMissPenalty,
    .numAddStations, .numMulStations, .numIntStations, .numLoadBuffers]

def name : Parameter → String
  | .addLatency => "add_latency"
  | .mulLatency => "mul_latency"
  | .divLatency => "div_latency"
  | .loadLatency => "load_latency"
  | .storeLatency => "store_latency"
  | .intLatency => "int_latency"
  | .cacheSizeBytes => "cache_size_bytes"
  | .blockSizeBytes => "block_size_bytes"
  | .cacheHitLatency => "cache_hit_latency"
  | .cacheMissPenalty => "cache_miss_penalty"
  | .numAddStations => "num_add_stations"
  | .numMulStations => "num_mul_stations"
  | .numIntStations => "num_int_stations"
  | .numLoadBuffers => "num_load_buffers"

def ofName? (name : String) : Option Parameter :=
  all.find? (·.name == name)

/-- The value of a parameter that is not set. -/
def standard : Parameter → Nat
  | .addLatency => 2
  | .mulLatency => 10
  | .divLatency => 40
  | .loadLatency => 2
  | .storeLatency => 2
  | .intLatency => 1
  | .cacheSizeBytes => 1024
  | .blockSizeBytes => 16
  | .cacheHitLatency => 2
  | .cacheMissPenalty => 50
  | .numAddStations => 3
  | .numMulStations => 2
  | .numIntStations => 2
  | .numLoadBuffers => 3

end Parameter

def Opcode.latency : Opcode → Parameter
  | .add | .sub | .addD | .subD => .addLatency
  | .mul | .mulD => .mulLatency
  | .div | .divD => .divLatency
  | op => match op.form with
    | .load => .loadLatency
    | .store => .storeLatency
    | _ => .intLatency

def Pool.size : Pool → Parameter
  | .add => .numAddStations
  | .mul => .numMulStations
  | .int => .numIntStations
  | .loadStore => .numLoadBuffers

/-- What somebody sets a parameter to. -/
inductive Setting where
  | absent
  | flag (value : Bool)
  | integer (value : Int)
  | decimal (value : Decimal)
  | text (value : String)
  /-- The parameter is named, and no value given for it. -/
  | nothing
  deriving DecidableEq, Repr

namespace Setting

def display : Setting → String
  | .absent => "None"
  | .flag true => "True"
  | .flag false => "False"
  | .integer value => toString value
  | .decimal value => value.text
  | .text value => Text.quote value
  | .nothing => "[]"

end Setting

abbrev Settings := Parameter → Setting

/-- Why settings describe no machine. -/
inductive ConfigError where
  /-- No parameter has this name. -/
  | unknown (name : String)
  /-- The name stands for the settings themselves. -/
  | reserved (name : String)
  | notInteger (parameter : Parameter) (setting : Setting)
  | negative (parameter : Parameter) (value : Int)
  | emptyBlock
  deriving DecidableEq, Repr

def ConfigError.message : ConfigError → String
  | .unknown name =>
    "SimulatorConfig.__init__() got an unexpected keyword argument " ++ "'" ++ name ++ "'"
  | .reserved name =>
    "SimulatorConfig.__init__() got multiple values for argument " ++ "'" ++ name ++ "'"
  | .notInteger parameter setting =>
    parameter.name ++ " must be an integer, got " ++ setting.display
  | .negative parameter value =>
    parameter.name ++ " must be non-negative, got " ++ toString value
  | .emptyBlock => "block_size_bytes must be positive"

namespace Settings

/-- The settings of a machine for which nothing is set. -/
def standard : Settings :=
  fun parameter => .integer parameter.standard

def set (settings : Settings) (parameter : Parameter) (setting : Setting) : Settings :=
  fun other => if other = parameter then setting else settings other

/-- The name by which settings call themselves, which no parameter can have. -/
def selfName : String := "self"

/-- The standard settings with the named parameters set anew. -/
def ofFields (fields : List (String × Setting)) : Except ConfigError Settings :=
  fields.foldlM (fun settings (name, setting) =>
    match Parameter.ofName? name with
    | some parameter => .ok (settings.set parameter setting)
    | none => .error (if name = selfName then .reserved name else .unknown name)) standard

end Settings

namespace Setting

/-- Checks that the setting of a parameter is a natural number. -/
def check (parameter : Parameter) : Setting → Except ConfigError Unit
  | .integer value => if value < 0 then .error (.negative parameter value) else .ok ()
  | setting => .error (.notInteger parameter setting)

def toNat : Setting → Nat
  | .integer value => value.toNat
  | _ => 0

end Setting

/-- The parameters of a machine. -/
structure Config where
  value : Parameter → Nat
  blockSize_pos : 0 < value .blockSizeBytes

namespace Config

def standard : Config :=
  ⟨Parameter.standard, by decide⟩

/-- The machine that the settings describe.  The first parameter with a bad setting is reported. -/
def ofSettings (settings : Settings) : Except ConfigError Config := do
  Parameter.all.forM fun parameter => (settings parameter).check parameter
  if positive : 0 < (settings .blockSizeBytes).toNat then
    return ⟨fun parameter => (settings parameter).toNat, positive⟩
  else throw .emptyBlock

end Config

/-- The word contents of the demonstration memory. -/
def demoMemory : List (Int × Int) :=
  [(100, 10), (104, 20), (108, 30), (200, 7), (204, 3)]

/-- The named register contents for demonstration programs. -/
def registerPresets : List (String × List (String × Int)) := [
  ("tc1", [("R2", 100), ("F4", 5), ("F1", 10), ("F3", 20)]),
  ("tc2", [("R2", 200), ("F1", 3), ("F3", 7), ("F4", 2)]),
  ("tc3", [("R1", 0), ("R2", 0), ("F2", 3)])]

end OutOfOrder
