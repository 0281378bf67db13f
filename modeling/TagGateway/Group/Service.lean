import TagGateway.Reader.Capabilities
import TagGateway.Reader.Operation

set_option autoImplicit false

namespace TagGateway

inductive ServiceError where
  | timeout
  | status (code : UInt16)
  | closed
  | rejected (reason : String)
  deriving DecidableEq, Repr

def ServiceError.message : ServiceError → String
  | timeout => "device service timed out"
  | status code => "device service returned status " ++ toString code.toNat
  | closed => "device service link closed"
  | rejected reason => "device service rejected request: " ++ reason

structure Service (σ : Type) where
  capabilities : String → σ → Except ServiceError Capabilities × σ
  perform : String → Command → σ → Except ServiceError Unit × σ

/-- Has one reader perform commands, up to the first that fails. -/
def Service.performAll {σ : Type} (svc : Service σ) (reader : String) :
    List Command → σ → Except ServiceError Unit × σ
  | [], s => (.ok (), s)
  | c :: rest, s =>
    match svc.perform reader c s with
    | (.ok (), s) => svc.performAll reader rest s
    | (.error e, s) => (.error e, s)

abbrev Failure := String × ServiceError

def failureText (failures : List Failure) : String :=
  toString failures.length ++ " reader(s) failed:"
    ++ String.join (failures.map fun (reader, e) => " [" ++ reader ++ ": " ++ e.message ++ "]")

/-- Has each reader perform commands of its own. A failure at one does not keep the others. -/
def Service.performEach {σ : Type} (svc : Service σ) :
    List (String × List Command) → σ → List Failure × σ
  | [], s => ([], s)
  | (reader, commands) :: rest, s =>
    match svc.performAll reader commands s with
    | (.ok (), s) => svc.performEach rest s
    | (.error e, s) =>
      let (failures, s) := svc.performEach rest s
      ((reader, e) :: failures, s)

inductive Request where
  | capabilities
  | perform (command : Command)
  deriving DecidableEq, Repr

structure Call where
  reader : String
  request : Request
  deriving DecidableEq, Repr

/-- A service that keeps the calls made, in their order, and answers by a plan, which may look at
the calls before. -/
def Service.planned (capabilities : List Call → String → Except ServiceError Capabilities)
    (perform : List Call → String → Command → Except ServiceError Unit) : Service (List Call) where
  capabilities reader calls :=
    (capabilities calls reader, calls ++ [{ reader, request := .capabilities }])
  perform reader command calls :=
    (perform calls reader command, calls ++ [{ reader, request := .perform command }])

end TagGateway
