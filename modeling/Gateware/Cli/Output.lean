import Gateware.Repository.Event

/-!
# Output

The program writes plain lines and log lines; a log line has a level and the part of the program
that it comes from.
-/

namespace Gateware.Cli

open Text

inductive Level where
  | error
  | warn
  | info
  | debug
  deriving DecidableEq, Repr

/-- The name of a level, as wide as the widest. -/
def Level.label : Level → Text
  | .error => "ERROR"
  | .warn => "WARN "
  | .info => "INFO "
  | .debug => "DEBUG"

inductive Line where
  | plain (text : Text)
  | log (level : Level) (target message : Text)
  deriving DecidableEq

def Line.text : Line → Text
  | .plain text => text
  | .log level target message => level.label ++ " [" ++ target ++ "] " ++ message

/-- Whether a line is written; details are only for a verbose run. -/
def Line.isShown (verbose : Bool) : Line → Bool
  | .log .debug _ _ => verbose
  | _ => true

def lineOfEvent : RunEvent → Line
  | .scriptRead path => .log .debug "hdl_script" ("Reading " ++ path.text)
  | .mapParsed groups path =>
    .log .debug "hdl_regmap::parse" ("Parsed " ++ decimal groups ++ " groups from " ++ path.text)
  | .importsResolved maps =>
    .log .debug "hdl_regmap::resolve"
      ("Resolving imports across " ++ decimal maps ++ " register maps")
  | .noTestbenches root =>
    .log .info "hdl_builder::regmap"
      ("No testbenches/ in " ++ root.text ++ ", skipping register map output")
  | .carriersRead v boards =>
    .log .debug "hdl_builder::makefile" (v.name ++ " carriers: " ++ joinWith ", " boards)
  | .interfacesIndexed count =>
    .log .debug "hdl_builder" ("Indexed " ++ decimal count ++ " interfaces")
  | .componentParsed path =>
    .log .debug "hdl_ipxact::component" ("Parsing component " ++ path.text)
  | .manifestRead m =>
    .log .debug "hdl_manifest::library"
      ("Library " ++ m.key ++ " (" ++ m.vendor.name ++ "): " ++
        decimal m.manifest.dependencies.size ++ " files, " ++
        decimal m.manifest.libraryDependencies.size ++ " libraries, " ++
        decimal m.manifest.interfaces.size ++ " interfaces")
  | .projectRead key scripts libraries =>
    .log .debug "hdl_manifest::project"
      ("Project " ++ key ++ ": " ++ decimal scripts ++ " scripts, " ++ decimal libraries ++
        " instantiated libraries")
  | .written path => .log .debug "hdl_builder" ("Wrote " ++ path.text)

/-- The line on which a failure of the program ends. -/
def failureLine (message : Text) : Line := .log .error "xtask" ("Error: " ++ message)

end Gateware.Cli
