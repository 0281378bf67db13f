import TagGateway.Group.Service
import TagGateway.Link.Message
import TagGateway.Link.Queue

/-!
The readers at the other end of the link. Each tells its capabilities when it connects; commands
for it are put on the link, and that they are is all that is known of them.
-/

set_option autoImplicit false

namespace TagGateway

structure ReaderLink (R : Type) where
  known : Std.TreeMap String Capabilities := ∅
  outbound : Queue (Outbound R)

namespace ReaderLink

variable {R : Type}

def remember (l : ReaderLink R) (reader : String) (caps : Capabilities) : ReaderLink R :=
  { l with known := l.known.insert reader caps }

def forget (l : ReaderLink R) (reader : String) : ReaderLink R :=
  { l with known := l.known.erase reader }

def offer (l : ReaderLink R) (message : Outbound R) : Offer × ReaderLink R :=
  let (outcome, outbound) := l.outbound.offer message
  (outcome, { l with outbound })

/-- The readers as a service. A command for which no room comes up has timed out. -/
def service : Service (ReaderLink R) where
  capabilities reader l :=
    match l.known[reader]? with
    | some caps => (.ok caps, l)
    | none => (.error (.rejected ("no capabilities known for " ++ reader)), l)
  perform reader command l :=
    match l.offer (.command reader command) with
    | (.taken, l) => (.ok (), l)
    | (.full, l) => (.error .timeout, l)
    | (.closed, l) => (.error .closed, l)

end ReaderLink

end TagGateway
