/-!
# The log

Besides its results the program reports on its work in a log, one record a line.
-/

namespace OutOfOrder

/-- How much a record matters. -/
inductive LogLevel where
  | debug
  | info
  | warning
  deriving DecidableEq, Repr

/-- The part of the program that reports. -/
inductive LogSource where
  | loader
  | machine
  | commandLine
  deriving DecidableEq, Repr

structure LogRecord where
  level : LogLevel
  source : LogSource
  message : String
  deriving DecidableEq, Repr

def LogLevel.name : LogLevel → String
  | .debug => "DEBUG"
  | .info => "INFO"
  | .warning => "WARNING"

def LogSource.name : LogSource → String
  | .loader => "tomasim.encoders.program_loader"
  | .machine => "tomasim.tomasulo.tomasulo_model"
  | .commandLine => "tomasim.cli"

def LogRecord.line (record : LogRecord) : String :=
  record.level.name ++ " " ++ record.source.name ++ ": " ++ record.message

end OutOfOrder
