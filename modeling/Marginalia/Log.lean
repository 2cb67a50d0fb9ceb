/-!
# Log lines

What the program reports about its work besides its results.
-/

namespace Marginalia

inductive LogLevel
  | debug
  | info
  | warning
  | error
  deriving DecidableEq, Repr

def LogLevel.name : LogLevel → String
  | debug => "DEBUG"
  | info => "INFO"
  | warning => "WARNING"
  | error => "ERROR"

/-- The parts of the program that report. -/
inductive Reporter
  | journal
  | engine
  | scanner
  | server
  deriving DecidableEq, Repr

def Reporter.name : Reporter → String
  | journal => "inline_issues.journal"
  | engine => "inline_issues.engine"
  | scanner => "inline_issues.scanner"
  | server => "inline_issues.server"

structure LogLine where
  level : LogLevel
  reporter : Reporter
  text : String
  deriving DecidableEq, Repr

/-- The line as it is printed. -/
def LogLine.print (line : LogLine) : String :=
  line.level.name ++ " " ++ line.reporter.name ++ ": " ++ line.text

end Marginalia
