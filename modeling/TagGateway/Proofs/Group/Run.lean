import TagGateway.Group.Basic
import TagGateway.Proofs.Results

set_option autoImplicit false

namespace TagGateway

/-- What can be done to a group. -/
inductive GroupAction where
  | add (name : String)
  | remove (name : String)
  | setBehavior (behavior : Behavior)
  | setEnvironment (environment : Environment)
  | startAll
  | stopAll
  | process (name : String) (batch : List Reading)

inductive GroupReply where
  | added (result : Except ReaderError Unit)
  | removed
  | changed (result : Except GroupError Unit)
  | told (result : Except (List Failure) Unit)
  | processed (result : Except ReaderError (List Reading))

namespace Group

variable {σ : Type}

def new (trust : Bool) : Group := { trust }

@[simp] theorem readers_new (trust : Bool) : (new trust).readers = ∅ := rfl

def act (svc : Service σ) (g : Group) : GroupAction → σ → GroupReply × Group × σ
  | .add name, s => let (result, g, s) := g.add svc name s; (.added result, g, s)
  | .remove name, s => (.removed, g.remove name, s)
  | .setBehavior behavior, s =>
    let (result, g, s) := g.setBehavior svc behavior s; (.changed result, g, s)
  | .setEnvironment environment, s =>
    let (result, g, s) := g.setEnvironment svc environment s; (.changed result, g, s)
  | .startAll, s => let (result, g, s) := g.startAll svc s; (.told result, g, s)
  | .stopAll, s => let (result, g, s) := g.stopAll svc s; (.told result, g, s)
  | .process name batch, s =>
    match g.process name batch with
    | .ok (g, batch) => (.processed (.ok batch), g, s)
    | .error e => (.processed (.error e), g, s)

def run (svc : Service σ) (g : Group) : List GroupAction → σ → Group × σ
  | [], s => (g, s)
  | a :: rest, s =>
    let (_, g, s) := g.act svc a s
    g.run svc rest s

/-- How the attempt to set a reader up came out, by the step that it got to. -/
inductive Configured (svc : Service σ) (g : Group) (name : String) (s : σ) :
    Except ReaderError GroupReader → σ → Prop where
  | unreached {e : ServiceError} {s₁ : σ} (asked : svc.capabilities name s = (.error e, s₁)) :
    Configured svc g name s (.error (.service e)) s₁
  | unsuited {caps : Capabilities} {cause : BehaviorError} {s₁ : σ}
    (asked : svc.capabilities name s = (.ok caps, s₁)) (prepared : g.prepare caps = .error cause) :
    Configured svc g name s (.error (.behavior cause)) s₁
  | failed {caps : Capabilities} {device : Device} {spec : RoSpec} {e : ServiceError} {s₁ s₂ : σ}
    (asked : svc.capabilities name s = (.ok caps, s₁))
    (prepared : g.prepare caps = .ok (device, spec))
    (told : svc.performAll name (.setConfig device.config :: installation spec g.running) s₁
      = (.error e, s₂)) :
    Configured svc g name s (.error (.service e)) s₂
  | done {caps : Capabilities} {device : Device} {spec : RoSpec} {s₁ s₂ : σ}
    (asked : svc.capabilities name s = (.ok caps, s₁))
    (prepared : g.prepare caps = .ok (device, spec))
    (told : svc.performAll name (.setConfig device.config :: installation spec g.running) s₁
      = (.ok (), s₂)) :
    Configured svc g name s (.ok (.new device g.trust)) s₂

theorem configured (svc : Service σ) (g : Group) (name : String) (s : σ) :
    Configured svc g name s (g.configure svc name s).1 (g.configure svc name s).2 := by
  unfold configure
  cases asked : svc.capabilities name s with
  | mk answer s₁ =>
    cases answer with
    | error e => exact .unreached asked
    | ok caps =>
      cases prepared : g.prepare caps with
      | error cause =>
        simp only [prepared]
        exact .unsuited asked prepared
      | ok pair =>
        obtain ⟨device, spec⟩ := pair
        simp only [prepared]
        cases told : svc.performAll name
            (.setConfig device.config :: installation spec g.running) s₁ with
        | mk answer s₂ =>
          cases answer with
          | error e => exact .failed asked prepared told
          | ok done => exact .done asked prepared told

theorem prepare_eq_ok {g : Group} {caps : Capabilities} {device : Device} {spec : RoSpec}
    (h : g.prepare caps = .ok (device, spec)) :
    Device.ofCapabilities caps = .ok device
      ∧ device.compile g.behavior g.environment = .ok spec := by
  obtain ⟨d, hd, h⟩ := bind_eq_ok.1 h
  obtain ⟨spec', hc, h⟩ := bind_eq_ok.1 h
  obtain ⟨rfl, rfl⟩ := Prod.mk.inj (Except.ok.inj h)
  exact ⟨hd, hc⟩

end Group

end TagGateway
