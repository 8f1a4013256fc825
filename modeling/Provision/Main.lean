import Provision.Json.Writer
import Provision.Sample.Program
import Provision.Text.Quoted

/-!
# The command

Runs the sample program with the settings in the environment, prints the outputs of the
components, and tells by the exit code whether the deployment succeeded.
-/

open Provision

def main : IO UInt32 := do
  let names := [Settings.projectVariable, Settings.stackVariable, Settings.organizationVariable,
    Settings.dryRunVariable, Settings.parallelVariable]
  let found ← names.mapM fun name => do return (name, ← IO.getEnv name)
  let ending := Sample.execute (Settings.ofEnvironment fun name => (found.lookup name).join)
  match ending.printed with
  | .ok document => IO.println (document.writeIndented 0)
  | .error _ => pure ()
  match ending.failure? with
  | some cause => IO.eprintln ("Error: " ++ Quoted.text cause.message)
  | none => pure ()
  return ending.exitCode.toUInt32
