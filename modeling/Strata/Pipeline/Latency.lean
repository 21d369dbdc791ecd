import Strata.Host.Tree
import Strata.Latency
import Strata.Pipeline

/-!
# Writing latency samples

When a pipeline over the host is taken down, its samples are written into the
directory that the configuration names, if it names one.
-/

namespace Strata

/-- Writes files into a directory of the host. -/
def Registry.writeTexts
    (directory : String) :
    List (String × String) → HostAction Unit
  | [] => return ()
  | (name, text) :: rest => do
    Host.writeAll (Host.join directory name) text.toUTF8.toList
    writeTexts directory rest

/-- Writes all samples into a directory of the host, which is made if it is
missing. -/
def Registry.dump
    (registry : Registry)
    (directory : String) :
    Action Host Unit :=
  Action.ofRun fun host =>
    let (answer, host) := HostAction.execute
      (do
        Host.makeDirectories directory
        writeTexts directory registry.files)
      host
    (answer.mapError .host, host)

/-- Takes a pipeline down. -/
def Pipeline.shutdown
    (pipeline : Pipeline Host) :
    Action (Pipeline.State Host) Unit := do
  match pipeline.config.latencyDirectory with
  | none => return ()
  | some directory =>
    let registry := (← get).registry
    Session.onStorage (Fleet.onHost (registry.dump directory))

end Strata
