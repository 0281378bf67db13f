import TagGateway.Proofs.Device.Compile
import TagGateway.Proofs.Group.Trace

set_option autoImplicit false

namespace TagGateway.Group

def setup (g : Group) (device : Device) (spec : RoSpec) : List Command :=
  [.setConfig device.config, .deleteAll, .add spec, .enable spec.id]
    ++ if g.running ∧ spec.boundary.start = .null then [.start spec.id] else []

variable {σ : Type}

/-- How the attempt to join may come out, with the calls made. Nothing is told to a reader whose
capabilities are not known, or do not do for it. -/
inductive Joined (svc : Service σ) (g : Group) (name : String) (s : σ) :
    Except ReaderError Unit → Group → List Exchange → Prop where
  | unreached {e : ServiceError} (asked : (svc.capabilities name s).1 = .error e) :
    Joined svc g name s (.error (.service e)) g [.asked name (some e)]
  | unfit {caps : Capabilities} {cause : BehaviorError}
    (asked : (svc.capabilities name s).1 = .ok caps)
    (known : Device.ofCapabilities caps = .error cause) :
    Joined svc g name s (.error (.behavior cause)) g [.asked name none]
  | unable {caps : Capabilities} {device : Device} {cause : BehaviorError}
    (asked : (svc.capabilities name s).1 = .ok caps)
    (known : Device.ofCapabilities caps = .ok device)
    (compiled : device.compile g.behavior g.environment = .error cause) :
    Joined svc g name s (.error (.behavior cause)) g [.asked name none]
  | failed {caps : Capabilities} {device : Device} {spec : RoSpec} {before after : List Command}
    {c : Command} {e : ServiceError} (asked : (svc.capabilities name s).1 = .ok caps)
    (known : Device.ofCapabilities caps = .ok device)
    (compiled : device.compile g.behavior g.environment = .ok spec)
    (split : g.setup device spec = before ++ c :: after) :
    Joined svc g name s (.error (.service e)) g
      (.asked name none :: (before.map (.told name · none) ++ [.told name c (some e)]))
  | done {caps : Capabilities} {device : Device} {spec : RoSpec}
    (asked : (svc.capabilities name s).1 = .ok caps)
    (known : Device.ofCapabilities caps = .ok device)
    (compiled : device.compile g.behavior g.environment = .ok spec) :
    Joined svc g name s (.ok ())
      { g with
        readers := g.readers.insert name
          { device, carries := !(g.trust && device.vendor.reportsAllFields), seen := {} } }
      (.asked name none :: (g.setup device spec).map (.told name · none))

theorem capabilities_traced {svc : Service σ} {name : String} {p p' : σ × List Exchange}
    {answer : Except ServiceError Capabilities}
    (h : svc.traced.capabilities name p = (answer, p')) :
    (svc.capabilities name p.1).1 = answer ∧ p'.2 = p.2 ++ [.asked name (failure? answer)] := by
  obtain ⟨rfl, rfl⟩ := Prod.mk.inj h
  exact ⟨rfl, rfl⟩

theorem performAll_traced {svc : Service σ} {name : String} {commands : List Command}
    {p p' : σ × List Exchange} {answer : Except ServiceError Unit}
    (h : svc.traced.performAll name commands p = (answer, p')) :
    ∃ segment, p'.2 = p.2 ++ segment ∧ CutOff name commands segment answer := by
  have hcut := cutOff_performAll svc name commands p
  rwa [h] at hcut

theorem prepare_eq_error {g : Group} {caps : Capabilities} {cause : BehaviorError}
    (h : g.prepare caps = .error cause) :
    Device.ofCapabilities caps = .error cause
      ∨ ∃ device, Device.ofCapabilities caps = .ok device
        ∧ device.compile g.behavior g.environment = .error cause := by
  unfold prepare at h
  cases hdevice : Device.ofCapabilities caps with
  | error cause' =>
    simp only [hdevice, error_bind, Except.error.injEq] at h
    exact .inl (congrArg Except.error h)
  | ok device =>
    refine .inr ⟨device, rfl, ?_⟩
    cases hspec : device.compile g.behavior g.environment with
    | error cause' =>
      simp only [hdevice, hspec, ok_bind, error_bind, Except.error.injEq] at h
      exact congrArg Except.error h
    | ok spec => simp [hdevice, hspec] at h

/-- A reader joins after it was asked for its capabilities and then told everything, with nothing
failing: the group has it anew under its name, with no values seen, and is the same otherwise. If
anything fails the group is the same altogether, with a reader of that name that it had before; and
the calls made end with the one that failed, or are the first alone if the reader is not fit. -/
theorem joined_or_unchanged (svc : Service σ) (g : Group) (name : String) (s : σ) :
    let (result, g', s', trace) := g.add svc.traced name (s, [])
    g.add svc name s = (result, g', s') ∧ Joined svc g name s result g' trace := by
  refine ⟨((traced_agrees svc).add g name (s, [])).symm, ?_⟩
  have hsteps := configured svc.traced g name (s, [])
  cases hc : g.configure svc.traced name (s, []) with
  | mk answer p =>
    obtain ⟨s', trace⟩ := p
    rw [hc] at hsteps
    cases hsteps with
    | unreached asked =>
      obtain ⟨hasked, rfl⟩ := capabilities_traced asked
      exact .unreached hasked
    | unsuited asked prepared =>
      obtain ⟨hasked, rfl⟩ := capabilities_traced asked
      obtain hknown | ⟨device, hknown, hcompiled⟩ := prepare_eq_error prepared
      · exact .unfit hasked hknown
      · exact .unable hasked hknown hcompiled
    | failed asked prepared told =>
      obtain ⟨hasked, hfirst⟩ := capabilities_traced asked
      obtain ⟨hknown, hcompiled⟩ := prepare_eq_ok prepared
      obtain ⟨segment, rfl, hcut⟩ := performAll_traced told
      rw [hfirst]
      cases hcut with
      | failed split => exact .failed hasked hknown hcompiled split
    | done asked prepared told =>
      obtain ⟨hasked, hfirst⟩ := capabilities_traced asked
      obtain ⟨hknown, hcompiled⟩ := prepare_eq_ok prepared
      obtain ⟨segment, rfl, hcut⟩ := performAll_traced told
      rw [hfirst]
      cases hcut with
      | done => exact .done hasked hknown hcompiled

example :
    let svc : Service Unit :=
      { capabilities := fun _ s => (.ok (Device.plain 0), s)
        perform := fun _ c s => (if c = .enable managedRoSpec then .error .timeout else .ok (), s) }
    let (result, _, _, trace) := (new false).add svc.traced "gate" ((), [])
    result = .error (.service .timeout)
      ∧ trace.map (·.error) = [none, none, none, none, some .timeout] := by
  decide +kernel

end TagGateway.Group
