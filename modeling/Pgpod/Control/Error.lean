import Pgpod.Core.Manifest

/-!
# The errors of the control plane
-/

namespace Pgpod

inductive Error
  | podman (why : String)
  | registry (why : String)
  | postgres (why : String)
  | manifest (why : ManifestError)
  | spec (why : SpecError)
  | backup (why : String)
  | pgBackRest (command detail : String)
  | upgrade (step detail : String)
  | pgBackRestMissing (path : String)
  | agentMissing (path : String)
  | portAllocation (why : String)
  | notReady (inst : String) (seconds : Nat) (detail : String)
  | diverged (inst detail : String)
  | poolerDiverged (pooler detail : String)
  | invalid (why : String)
deriving DecidableEq

namespace Error

def toString : Error → String
  | podman why | registry why | postgres why | backup why | invalid why => why
  | manifest why => why.toString
  | spec why => why.toString
  | pgBackRest command detail => "pgbackrest " ++ command ++ " failed\n\n" ++ detail
  | upgrade step detail => "the " ++ step ++ " step of the upgrade failed\n\n" ++ detail
  | pgBackRestMissing path => "the pgBackRest bundle is not installed at " ++ path ++
      " — build it with ops/build-pgbackrest.sh"
  | agentMissing path => "the pgpod agent is not installed at " ++ path ++
      " — build and install it with ops/build-agent.sh"
  | portAllocation why => "could not allocate a host port: " ++ why
  | notReady inst seconds detail => "instance " ++ inst ++ " did not become ready within " ++
      Nat.repr seconds ++ "s\n" ++ detail
  | diverged inst detail => inst ++ " is running a different spec than the manifest " ++
      "describes, and the spec is fixed when the container is created — a restart would " ++
      "re-run the agent with the old one.\n\n" ++ detail ++
      "\n\nApplying this means replacing the container:\n\n  " ++
      "pgpod apply -f <manifest> --recreate\n\nWith a pooler in front, clients are held " ++
      "across that window rather than dropped (ADR 05). Without one, every open connection " ++
      "goes. `pgpod delete <cluster>` followed by `pgpod apply` does the same thing the " ++
      "long way and keeps the volume either way."
  | poolerDiverged pooler detail => "pooler " ++ pooler ++ " is running a different spec " ++
      "than the manifest describes, and the spec is fixed when the container is " ++
      "created.\n\n" ++ detail ++ "\n\nReplacing it drops every connection through it — " ++
      "there is nothing in front of a pooler to hold them — so pgpod will not do it " ++
      "implicitly:\n  pgpod pooler delete " ++ pooler ++ "\n  pgpod apply -f <manifest>\n\n" ++
      "Nothing durable is destroyed: a pooler has no volume and re-renders its config on " ++
      "every start."

end Error

end Pgpod
