import CredentialGate.CommandLine.Run
import CredentialGate.Proofs.Config.Layers

/-! The settings that a command runs with. Its flags stand over the settings that were loaded, so
each field is decided by its own flag, variable and entry of the file, and by no others. -/
namespace CredentialGate.CommandLine

open Config Files Session

section

variable (around : Surroundings σ) (env : Environment) (i : Invocation) (w : World σ)

end

end CredentialGate.CommandLine
