/-!
# Failures

Every way in which an operation of a deployment can fail, and the text of each. A failed value
hands its failure on unchanged, except that a resource whose registration fails keeps the text
of the cause in the failure of its own properties.
-/

namespace Provision

inductive Failure where
  /-- A type that no value can be converted to. -/
  | invalidShape (context typeName reason : String)
  | invalidArgument (name reason : String)
  /-- A transformation returned options with another parent. -/
  | parentChanged (resource : String)
  /-- A component was given both a single provider and a list of providers. -/
  | conflictingProviders (resource : String)
  /-- The engine takes no requests any more. -/
  | monitorClosed
  /-- The engine took a request and will not answer it. -/
  | monitorDropped
  /-- The engine answered a request with an error. -/
  | rpc (operation reason : String)
  | registrationFailed (resource reason : String)
  | alreadyResolved (name : String)
  /-- The engine refused the arguments of a call. -/
  | callFailed (token failures : String)
  /-- A value has no form that can be sent. -/
  | conversion (context reason : String)
  /-- A program's own computation failed. -/
  | output (reason : String)
  deriving DecidableEq, Repr

namespace Failure

def message : Failure → String
  | .invalidShape context typeName reason =>
    context ++ " contains invalid type " ++ typeName ++ ": " ++ reason
  | .invalidArgument name reason => "Invalid argument '" ++ name ++ "': " ++ reason
  | .parentChanged resource =>
    "Transformations cannot be used to change the 'parent' of resource " ++ resource
  | .conflictingProviders resource =>
    "Do not supply both 'provider' and 'providers' options to component " ++ resource
  | .monitorClosed => "Monitor closed"
  | .monitorDropped => "Monitor dropped response channel"
  | .rpc operation reason => operation ++ " failed: " ++ reason
  | .registrationFailed resource reason => "Registration of " ++ resource ++ " failed: " ++ reason
  | .alreadyResolved name => "Output '" ++ name ++ "' was already resolved"
  | .callFailed token failures => "Call to " ++ token ++ " failed: " ++ failures
  | .conversion context reason => "Conversion of " ++ context ++ " failed: " ++ reason
  | .output reason => "Output computation failed: " ++ reason

def kind : Failure → String
  | .invalidShape .. => "InvalidShape"
  | .invalidArgument .. => "InvalidArgument"
  | .parentChanged .. => "TransformationChangedParent"
  | .conflictingProviders .. => "ConflictingProviders"
  | .monitorClosed => "MonitorClosed"
  | .monitorDropped => "MonitorDropped"
  | .rpc .. => "Rpc"
  | .registrationFailed .. => "RegistrationFailed"
  | .alreadyResolved .. => "AlreadyResolved"
  | .callFailed .. => "CallFailed"
  | .conversion .. => "Conversion"
  | .output .. => "Output"

/-- The failure of a kind, described by its fields. -/
def ofKind? (field : String → String) : String → Option Failure
  | "InvalidShape" =>
    some (.invalidShape (field "context") (field "typeName") (field "reason"))
  | "InvalidArgument" => some (.invalidArgument (field "name") (field "reason"))
  | "TransformationChangedParent" => some (.parentChanged (field "resource"))
  | "ConflictingProviders" => some (.conflictingProviders (field "resource"))
  | "MonitorClosed" => some .monitorClosed
  | "MonitorDropped" => some .monitorDropped
  | "Rpc" => some (.rpc (field "operation") (field "message"))
  | "RegistrationFailed" => some (.registrationFailed (field "resource") (field "reason"))
  | "AlreadyResolved" => some (.alreadyResolved (field "name"))
  | "CallFailed" => some (.callFailed (field "token") (field "failures"))
  | "Conversion" => some (.conversion (field "context") (field "reason"))
  | "Output" => some (.output (field "message"))
  | _ => none

end Failure

end Provision
