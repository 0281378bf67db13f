import TagGateway.Proofs.Group.Agreement

set_option autoImplicit false

namespace TagGateway

inductive LogEntry where
  | told (reader : String) (command : Command) (done : Bool)
  | joined (reader : String)
  deriving DecidableEq, Repr

variable {σ : Type}

def Service.recorded (svc : Service σ) : Service (σ × List LogEntry) where
  capabilities reader p :=
    let (answer, s) := svc.capabilities reader p.1
    (answer, s, p.2)
  perform reader command p :=
    let (answer, s) := svc.perform reader command p.1
    (answer, s, p.2 ++ [.told reader command answer.isOk])

theorem log_of_capabilities {svc : Service σ} {reader : String} {p p' : σ × List LogEntry}
    {answer : Except ServiceError Capabilities}
    (h : svc.recorded.capabilities reader p = (answer, p')) : p'.2 = p.2 := by
  obtain ⟨-, rfl⟩ := Prod.mk.inj h
  rfl

theorem perform_recorded {svc : Service σ} {reader : String} {command : Command}
    {p : σ × List LogEntry} {answer : Except ServiceError Unit} {s : σ}
    (h : svc.perform reader command p.1 = (answer, s)) :
    svc.recorded.perform reader command p
      = (answer, s, p.2 ++ [.told reader command answer.isOk]) := by
  simp [Service.recorded, h]

theorem recorded_agrees (svc : Service σ) : svc.recorded.Agrees svc Prod.fst where
  capabilities _ _ := rfl
  perform _ _ _ := rfl

namespace Group

def joins : GroupAction → GroupReply → List LogEntry
  | .add name, .added (.ok ()) => [.joined name]
  | _, _ => []

def actLog (svc : Service σ) (g : Group) (a : GroupAction) (s : σ) : List LogEntry :=
  let (reply, _, _, log) := g.act svc.recorded a (s, [])
  log ++ joins a reply

def log (svc : Service σ) (g : Group) : List GroupAction → σ → List LogEntry
  | [], _ => []
  | a :: rest, s =>
    let (_, g', s') := g.act svc a s
    g.actLog svc a s ++ g'.log svc rest s'

end Group

end TagGateway
